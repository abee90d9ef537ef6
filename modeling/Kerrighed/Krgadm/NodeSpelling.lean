import Kerrighed.Common.Numerals
import Kerrighed.Krgadm.NodeItems

/-!
# The items that are read

The numbers of an item are read with `strtol`, which allows blanks and a sign before each of
them. `SpelledItem` is the form of all items that are read: every text of that form is read,
and no other text is.

With it the lists on which the parser returns can be told from those on which the loop over an
interval increments its counter beyond `INT_MAX`.
-/

namespace Kerrighed.Krgadm

open Kerrighed.Common Kerrighed.Hotplug

variable {maxNodes : ℕ}

/-- The forms of the items that are read. A minus before the first number would be taken for
the dash of an interval. -/
inductive SpelledItem where
  | node (number : Spelling) (unsigned : number.sign ≠ .minus)
  | interval (first last : Spelling) (unsigned : first.sign ≠ .minus)

/-- The text of an item. -/
def SpelledItem.text : SpelledItem → List Char
  | .node number _ => number.text
  | .interval first last _ => first.text ++ '-' :: last.text

/-- The numbers that are read from an item. -/
def SpelledItem.item : SpelledItem → NodeItem
  | .node number _ => .node (clampLong number.value)
  | .interval first last _ => .interval (clampLong first.value) (clampLong last.value)

/-- The text of an item that is read. -/
def IsSpelled (ch : List Char) : Prop := ∃ sp : SpelledItem, ch = sp.text

/-- An interval whose last number is `INT_MAX` after its conversion to `int`. -/
def EndsAtIntMax (ch : List Char) : Prop :=
  ∃ first last : Spelling, first.sign ≠ .minus ∧ ch = first.text ++ '-' :: last.text ∧
    longMin ≤ last.value ∧ last.value ≤ longMax ∧ last.value % 4294967296 = 2147483647

/-- Behind items that are read the list has an interval that ends at `INT_MAX`. -/
def ReachesIntMax (chs : List (List Char)) : Prop :=
  ∃ before ch after, chs = before ++ ch :: after ∧ (∀ b ∈ before, IsSpelled b) ∧ EndsAtIntMax ch

/-- A spelling without a minus has no dash. -/
theorem dash_notMem_text {p : Spelling} (hp : p.sign ≠ .minus) : '-' ∉ p.text := by
  rw [Spelling.text, List.mem_append, List.mem_append]
  rintro (h | h | h)
  · have hblank := p.areBlanks '-' h
    contradiction
  · cases hsign : p.sign with
    | none => simp [hsign, Sign.text] at h
    | plus => simp [hsign, Sign.text] at h
    | minus => exact hp hsign
  · have hdigit := p.numeral.areDigits '-' h
    contradiction

/-- A spelling is not empty. -/
theorem text_ne_nil (p : Spelling) : p.text ≠ [] := by
  intro h
  rw [Spelling.text, List.append_eq_nil_iff, List.append_eq_nil_iff] at h
  exact p.numeral.nonempty h.2.2

/-- A spelling at the end of a text is read to that end. -/
theorem strtol_text (p : Spelling) : strtol 10 p.text = (clampLong p.value, []) := by
  have hend : NoDigit [] := by simp [NoDigit]
  have h := strtol_spelling p hend
  rwa [List.append_nil] at h

/-- A spelling before a dash is read up to the dash. -/
theorem strtol_text_dash (p : Spelling) (rest : List Char) :
    strtol 10 (p.text ++ '-' :: rest) = (clampLong p.value, '-' :: rest) :=
  strtol_spelling p fun c hc => by
    rw [← Option.some.inj hc]
    decide

/-- The text behind the first dash is the one behind an unsigned number. -/
theorem behind_dash {p : Spelling} (hp : p.sign ≠ .minus) (rest : List Char) :
    ((p.text ++ '-' :: rest).dropWhile (· ≠ '-')).tail = rest := by
  have hall : ∀ c ∈ p.text, decide (c ≠ '-') = true := fun c hc =>
    decide_eq_true fun heq => dash_notMem_text hp (heq ▸ hc)
  rw [List.dropWhile_append_of_pos hall]
  rfl

/-- The first dash is the minus of a negative number. -/
theorem behind_minus {p : Spelling} (hp : p.sign = .minus) (rest : List Char) :
    ((p.text ++ rest).dropWhile (· ≠ '-')).tail = p.numeral.digits ++ rest := by
  have hall : ∀ c ∈ p.blanks, decide (c ≠ '-') = true := fun c hc =>
    decide_eq_true fun heq => by
      have hblank := p.areBlanks c hc
      rw [heq] at hblank
      contradiction
  rw [Spelling.text, hp, List.append_assoc, List.dropWhile_append_of_pos hall]
  rfl

/-- Every item of these forms is read. -/
theorem readItem_text (sp : SpelledItem) : readItem sp.text = some sp.item := by
  cases sp with
  | node number unsigned =>
    simp only [readItem, SpelledItem.text, SpelledItem.item, strtol_text,
      dash_notMem_text unsigned, if_false]
    simp [(text_ne_nil number).symm]
  | interval first last unsigned =>
    simp only [readItem, SpelledItem.text, SpelledItem.item, strtol_text_dash,
      behind_dash unsigned, strtol_text]
    simp [text_ne_nil first, (text_ne_nil last).symm]

/-- Only items of these forms are read. -/
theorem exists_spelledItem {ch : List Char} {item : NodeItem} (h : readItem ch = some item) :
    IsSpelled ch := by
  rw [readItem] at h
  by_cases hdash : '-' ∈ ch
  · simp only [hdash, if_true] at h
    split at h
    · contradiction
    · rename_i hfirst
      rw [not_or, not_not] at hfirst
      obtain ⟨first, rest, rfl, hrest⟩ := exists_spelling hfirst.1
      rw [strtol_spelling first hrest] at hfirst
      obtain ⟨rest, rfl⟩ := List.head?_eq_some_iff.mp hfirst.2
      by_cases hsign : first.sign = .minus
      · -- The number behind the minus is followed by the dash, so it is not the last one.
        have hbare := strtol_text_dash ⟨[], by simp, .none, first.numeral⟩ rest
        rw [behind_minus hsign] at h
        change strtol 10 (first.numeral.digits ++ '-' :: rest) = _ at hbare
        simp [hbare] at h
      · rw [behind_dash hsign] at h
        split at h
        · contradiction
        · rename_i hlast
          rw [not_or, not_not] at hlast
          obtain ⟨last, behind, rfl, hbehind⟩ := exists_spelling hlast.1
          rw [strtol_spelling last hbehind] at hlast
          obtain rfl := hlast.2
          exact ⟨.interval first last hsign, by simp [SpelledItem.text]⟩
  · simp only [hdash, if_false] at h
    split at h
    · contradiction
    · rename_i hnumber
      rw [not_or, not_not] at hnumber
      obtain ⟨number, rest, rfl, hrest⟩ := exists_spelling hnumber.1
      rw [strtol_spelling number hrest] at hnumber
      obtain rfl := hnumber.2
      refine ⟨.node number fun hsign => hdash ?_, by simp [SpelledItem.text]⟩
      simp [Spelling.text, hsign, Sign.text]

/-- An item is read exactly when it is of one of these forms. -/
theorem isSome_readItem_iff {ch : List Char} : (readItem ch).isSome = true ↔ IsSpelled ch := by
  constructor
  · intro h
    obtain ⟨item, hitem⟩ := Option.isSome_iff_exists.mp h
    exact exists_spelledItem hitem
  · rintro ⟨sp, rfl⟩
    rw [readItem_text]
    rfl

/-- The numbers that become `INT_MAX` on the way through `long` and `int`. -/
theorem toInt_clampLong_eq_intMax {v : ℤ} :
    toInt (clampLong v) = intMax ↔ longMin ≤ v ∧ v ≤ longMax ∧ v % 4294967296 = 2147483647 := by
  rw [toInt, Int.bmod_def, clampLong, intMax, longMin, longMax]
  split <;> omega

/-- The intervals at whose end the loop overflows. -/
theorem endsAtMax_iff {ch : List Char} : endsAtMax ch = true ↔ EndsAtIntMax ch := by
  constructor
  · intro h
    have hsome : (readItem ch).isSome = true := by
      rw [endsAtMax] at h
      cases hread : readItem ch with
      | none => simp [hread] at h
      | some item => rfl
    obtain ⟨sp, rfl⟩ := isSome_readItem_iff.mp hsome
    rw [endsAtMax, readItem_text, Option.any_some] at h
    cases sp with
    | node number unsigned => contradiction
    | interval first last unsigned =>
      rw [SpelledItem.item, NodeItem.endsAtMax, decide_eq_true_iff, toInt_clampLong_eq_intMax] at h
      exact ⟨first, last, unsigned, rfl, h⟩
  · rintro ⟨first, last, unsigned, rfl, hmax⟩
    have hread := readItem_text (.interval first last unsigned)
    rw [SpelledItem.text] at hread
    rw [endsAtMax, hread, Option.any_some, SpelledItem.item, NodeItem.endsAtMax, decide_eq_true_iff,
      toInt_clampLong_eq_intMax]
    exact hmax

/-- The first item ends at `INT_MAX`, or it is read and an item behind it does. -/
theorem reachesIntMax_cons {ch : List Char} {rest : List (List Char)} :
    ReachesIntMax (ch :: rest) ↔ EndsAtIntMax ch ∨ IsSpelled ch ∧ ReachesIntMax rest := by
  constructor
  · rintro ⟨before, bad, after, heq, hbefore, hbad⟩
    cases before with
    | nil =>
      obtain ⟨rfl, -⟩ := List.cons.inj heq
      exact .inl hbad
    | cons b before =>
      obtain ⟨rfl, hrest⟩ := List.cons.inj heq
      exact .inr ⟨hbefore ch List.mem_cons_self, before, bad, after, hrest,
        fun b hb => hbefore b (List.mem_cons_of_mem _ hb), hbad⟩
  · rintro (hbad | ⟨hch, before, bad, after, rfl, hbefore, hbad⟩)
    · exact ⟨[], ch, rest, rfl, by simp, hbad⟩
    · exact ⟨ch :: before, bad, after, rfl, List.forall_mem_cons.mpr ⟨hch, hbefore⟩, hbad⟩

/-- Reading items has a result unless the loop over one of them overflows. -/
theorem parseItems_ok_iff {chs : List (List Char)} {nodeSet : KrgNodeSet maxNodes} :
    (∃ result, parseItems chs nodeSet = .ok result) ↔ ¬ ReachesIntMax chs := by
  induction chs generalizing nodeSet with
  | nil =>
    have hnot : ¬ ReachesIntMax [] := by
      rintro ⟨before, ch, after, heq, -⟩
      simp at heq
    exact iff_of_true ⟨_, rfl⟩ hnot
  | cons ch rest ih =>
    rw [reachesIntMax_cons, ← endsAtMax_iff, ← isSome_readItem_iff]
    rcases item_cases ch with ⟨hread, -, hmax⟩ | ⟨haccepted, hmax⟩ | ⟨-, hmax⟩
    · rw [parseItems_of_none hread, hread, hmax]
      simp
    · rw [parseItems_of_accepted haccepted, ih, hmax]
      simp [Option.isSome_of_any haccepted]
    · rw [parseItems_of_endsAtMax hmax, hmax]
      simp

/-- The parser returns exactly on the lists in which no interval that ends at `INT_MAX` stands
behind items that are all read. On any other list the loop over that interval overflows: the
recursion itself always ends. -/
theorem parseNodes_returns_iff (ch : List Char) (nodeSet : KrgNodeSet maxNodes) :
    parseNodes ch nodeSet ≠ .error .cutOff ∧
      ((∃ result, parseNodes ch nodeSet = .ok result) ↔ ¬ ReachesIntMax (ch.splitOn ',')) := by
  refine ⟨parseNodes_ne_cutOff ch nodeSet, ?_⟩
  rw [parseNodes_eq]
  exact parseItems_ok_iff

/-- The loop over an interval up to `INT_MAX` overflows. -/
theorem parseNodes_intMax :
    parseNodes "0-2147483647".toList (⟨0, Vector.replicate 4 0⟩ : KrgNodeSet 4) =
      .error .signedOverflow := by
  have hmax : endsAtMax "0-2147483647".toList = true := by decide
  rw [parseNodes_eq, splitOn_of_notMem (by decide)]
  exact parseItems_of_endsAtMax hmax [] _

end Kerrighed.Krgadm
