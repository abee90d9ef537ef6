import Kerrighed.Krgadm.NodeSpelling

/-!
# The grammar of node lists

The manual documents a node list as numbers and intervals of two numbers with a dash, separated
by commas. `ListItem` is the form of its items, and each denotes a set of numbers.

The parser does not quite follow the manual. It converts the numbers to `int`, and it also
reads items with blanks and signs in them. The two results below tell exactly when the nodes of
a list are those that it denotes, and when a text is treated as the grammar demands.
-/

namespace Kerrighed.Krgadm

open Kerrighed.Common Kerrighed.Hotplug

variable {maxNodes : ℕ}

/-- The documented forms of an item. -/
inductive ListItem where
  | nodeId (id : Numeral)
  | nodeRange (first last : Numeral)

/-- The text of an item. -/
def ListItem.text : ListItem → List Char
  | .nodeId id => id.digits
  | .nodeRange first last => first.digits ++ '-' :: last.digits

/-- The text of a list of items. -/
def listText (items : List ListItem) : List Char := [','].intercalate (items.map ListItem.text)

/-- The nodes that an item denotes. -/
def ListItem.Denotes : ListItem → ℤ → Prop
  | .nodeId id, n => n = id.value
  | .nodeRange first last, n => first.value ≤ n ∧ n ≤ last.value

/-- A numeral after the conversion to `long` and `int`. -/
def asInt (m : Numeral) : ℤ := toInt (clampLong m.value)

/-- The nodes that an item denotes after the conversion of its numbers to `int`. -/
def ListItem.Names : ListItem → ℤ → Prop
  | .nodeId id, n => n = asInt id
  | .nodeRange first last, n => asInt first ≤ n ∧ n ≤ asInt last

/-- The numbers of an item are at most `INT_MAX`. -/
def ListItem.FitsInt : ListItem → Prop
  | .nodeId id => id.value ≤ 2147483647
  | .nodeRange first last => first.value ≤ 2147483647 ∧ last.value ≤ 2147483647

/-- The nodes that an item adds: of a number the low 32 bits are left, no node is as large as bit 31,
and a number that a `long` cannot hold becomes one below all nodes. -/
def ListItem.Hits : ListItem → ℤ → Prop
  | .nodeId id, n => id.value < 2 ^ 63 ∧ n < 2 ^ 31 ∧ n = id.value % 2 ^ 32
  | .nodeRange first last, n =>
    (2 ^ 63 ≤ first.value ∨ 2 ^ 31 ≤ first.value % 2 ^ 32 ∨ first.value % 2 ^ 32 ≤ n) ∧
      last.value < 2 ^ 63 ∧ last.value % 2 ^ 32 < 2 ^ 31 ∧ n ≤ last.value % 2 ^ 32

/-- A bare numeral as a spelling. -/
def bare (m : Numeral) : Spelling := ⟨[], by simp, .none, m⟩

/-- A documented item is one of the items that are read. -/
def ListItem.spelled : ListItem → SpelledItem
  | .nodeId id => .node (bare id) (by simp [bare])
  | .nodeRange first last => .interval (bare first) (bare last) (by simp [bare])

/-- The text stays the same. -/
theorem text_spelled (item : ListItem) : item.spelled.text = item.text := by
  cases item <;> rfl

/-- What an item names is what it denotes after the conversion. -/
theorem names_text {item : ListItem} {n : ℤ} : names item.text n = true ↔ item.Names n := by
  rw [names, ← text_spelled, readItem_text, Option.any_some]
  cases item <;>
    simp [ListItem.spelled, SpelledItem.item, NodeItem.names, ListItem.Names, asInt, bare,
      Spelling.value]

/-- The conversion does not change what an item with small numbers denotes. -/
theorem names_iff_denotes {item : ListItem} (h : item.FitsInt) {n : ℤ} :
    item.Names n ↔ item.Denotes n := by
  have hconv {m : Numeral} (hm : m.value ≤ 2147483647) : asInt m = m.value :=
    toInt_clampLong_eq_iff.mpr (by omega)
  cases item with
  | nodeId id => rw [ListItem.Names, ListItem.Denotes, hconv h]
  | nodeRange first last => rw [ListItem.Names, ListItem.Denotes, hconv h.1, hconv h.2]

/-- The conversion to `int` leaves the low 32 bits, as a signed number. -/
theorem asInt_eq (m : Numeral) :
    asInt m = if m.value < 2 ^ 63 then
      if m.value % 2 ^ 32 < 2 ^ 31 then (m.value : ℤ) % 2 ^ 32 else (m.value : ℤ) % 2 ^ 32 - 2 ^ 32
      else -1 := by
  rw [asInt, toInt, clampLong, longMin, longMax, Int.bmod_def]
  split_ifs <;> omega

/-- The nodes that an item names after the conversion, in terms of its numbers. -/
theorem names_iff_hits {item : ListItem} {n : ℤ} (hn : 0 ≤ n) : item.Names n ↔ item.Hits n := by
  cases item with
  | nodeId id =>
    rw [ListItem.Names, ListItem.Hits, asInt_eq]
    split_ifs <;> omega
  | nodeRange first last =>
    have hfirst : asInt first ≤ n ↔
        2 ^ 63 ≤ first.value ∨ 2 ^ 31 ≤ first.value % 2 ^ 32 ∨ first.value % 2 ^ 32 ≤ n := by
      rw [asInt_eq]
      split_ifs <;> omega
    have hlast : n ≤ asInt last ↔
        last.value < 2 ^ 63 ∧ last.value % 2 ^ 32 < 2 ^ 31 ∧ n ≤ last.value % 2 ^ 32 := by
      rw [asInt_eq]
      split_ifs <;> omega
    rw [ListItem.Names, ListItem.Hits, hfirst, hlast]

/-- The text of an item has no comma. -/
theorem comma_notMem_text (item : ListItem) : ',' ∉ item.text := by
  have hdigits (m : Numeral) : ',' ∉ m.digits := fun hmem => by
    have hdigit := m.areDigits ',' hmem
    contradiction
  cases item with
  | nodeId id => exact hdigits id
  | nodeRange first last => simp [ListItem.text, hdigits]

/-- A list is split into its items. -/
theorem splitOn_listText {items : List ListItem} (hitems : items ≠ []) :
    (listText items).splitOn ',' = items.map ListItem.text := by
  refine List.splitOn_intercalate ',' ?_ (by simpa using hitems)
  intro text htext
  obtain ⟨item, -, rfl⟩ := List.mem_map.mp htext
  exact comma_notMem_text item

/-- A single node is always read. -/
theorem accepted_nodeId (id : Numeral) : accepted (ListItem.nodeId id).text = true := by
  rw [accepted, ← text_spelled, readItem_text]
  rfl

/-- A list of accepted items is read and adds what they name. -/
theorem parseNodes_listText {items : List ListItem} (hitems : items ≠ [])
    (haccepted : ∀ item ∈ items, accepted item.text = true) (nodeSet : KrgNodeSet maxNodes) :
    parseNodes (listText items) nodeSet =
      .ok (1, addNamed (items.map ListItem.text) nodeSet) := by
  rw [parseNodes_eq, splitOn_listText hitems, parseItems_eq_one_iff]
  exact ⟨List.forall_mem_map.mpr haccepted, rfl⟩

/-- A list that is read adds the nodes in range that its items name. -/
theorem mem_parseNodes {items : List ListItem} (hitems : items ≠ []) {nodeSet t : KrgNodeSet maxNodes}
    (h : parseNodes (listText items) nodeSet = .ok (1, t)) {n : ℤ} :
    n ∈ t.members ↔ n ∈ nodeSet.members ∨
      ((0 ≤ n ∧ n < maxNodes) ∧ ∃ item ∈ items, item.Names n) := by
  rw [parseNodes_eq, splitOn_listText hitems, parseItems_eq_one_iff] at h
  rw [h.2, addNamed, members_addWhere, Finset.mem_union, mem_indexSet]
  refine or_congr_right (and_congr_right fun hn => ?_)
  simp [Int.toNat_of_nonneg hn.1, names_text]

/-- The set is the one that the list means exactly when the numbers above `INT_MAX` do no harm: each
node in range that is neither in the set before nor denoted by an item with smaller numbers is hit by
an item with such a number if and only if one denotes it. -/
theorem parseNodes_means_iff {items : List ListItem} (hitems : items ≠ [])
    {nodeSet t : KrgNodeSet maxNodes}
    (h : parseNodes (listText items) nodeSet = .ok (1, t)) :
    (∀ n, n ∈ t.members ↔ n ∈ nodeSet.members ∨
        ((0 ≤ n ∧ n < maxNodes) ∧ ∃ item ∈ items, item.Denotes n)) ↔
      ∀ n : ℤ, 0 ≤ n ∧ n < maxNodes → n ∉ nodeSet.members →
        (∀ item ∈ items, item.FitsInt → ¬ item.Denotes n) →
        ((∃ item ∈ items, ¬ item.FitsInt ∧ item.Hits n) ↔
          ∃ item ∈ items, ¬ item.FitsInt ∧ item.Denotes n) := by
  simp only [mem_parseNodes hitems h]
  -- An item with small numbers names what it denotes, so only the large ones are left.
  have hlarge {n : ℤ} (hn : 0 ≤ n) (hsmall : ∀ item ∈ items, item.FitsInt → ¬ item.Denotes n) :
      ((∃ item ∈ items, item.Names n) ↔ ∃ item ∈ items, ¬ item.FitsInt ∧ item.Hits n) ∧
        ((∃ item ∈ items, item.Denotes n) ↔ ∃ item ∈ items, ¬ item.FitsInt ∧ item.Denotes n) := by
    constructor
    · refine exists_congr fun item => and_congr_right fun hitem => ?_
      rw [names_iff_hits hn, iff_and_self]
      intro hhits hfits
      exact hsmall item hitem hfits ((names_iff_denotes hfits).mp ((names_iff_hits hn).mpr hhits))
    · refine exists_congr fun item => and_congr_right fun hitem => ?_
      rw [iff_and_self]
      exact fun hdenotes hfits => hsmall item hitem hfits hdenotes
  constructor
  · intro hsame n hn hout hsmall
    have hmean := hsame n
    rw [or_iff_right hout, or_iff_right hout, and_iff_right hn, and_iff_right hn] at hmean
    rw [← (hlarge hn.1 hsmall).1, hmean, (hlarge hn.1 hsmall).2]
  · intro hmean n
    by_cases hout : n ∈ nodeSet.members
    · simp [hout]
    · refine or_congr_right (and_congr_right fun hn => ?_)
      by_cases hsmall : ∀ item ∈ items, item.FitsInt → ¬ item.Denotes n
      · rw [(hlarge hn.1 hsmall).1, hmean n hn hout hsmall, (hlarge hn.1 hsmall).2]
      · simp only [not_forall, not_not] at hsmall
        obtain ⟨item, hitem, hfits, hdenotes⟩ := hsmall
        exact iff_of_true ⟨item, hitem, (names_iff_denotes hfits).mpr hdenotes⟩
          ⟨item, hitem, hdenotes⟩

/-- A number above `INT_MAX` may name another node after its conversion. -/
theorem parseNodes_means_other :
    ∃ items t, items.map ListItem.text = ["4294967297".toList] ∧
      parseNodes (listText items) (⟨0, Vector.replicate 4 0⟩ : KrgNodeSet 4) = .ok (1, t) ∧
      ¬ ∀ n : ℤ, n ∈ t.members ↔
        n ∈ (⟨0, Vector.replicate 4 0⟩ : KrgNodeSet 4).members ∨
          ((0 ≤ n ∧ n < 4) ∧ ∃ item ∈ items, item.Denotes n) := by
  have hitems : [ListItem.nodeId (decimal 4294967297)] ≠ [] := List.cons_ne_nil _ _
  have hparse := parseNodes_listText hitems (List.forall_mem_singleton.mpr (accepted_nodeId _))
    (⟨0, Vector.replicate 4 0⟩ : KrgNodeSet 4)
  have hone : asInt (decimal 4294967297) = 1 := by
    rw [asInt, value_decimal]
    decide
  refine ⟨[.nodeId (decimal 4294967297)], _, by decide, hparse, fun h => ?_⟩
  have hmem := (mem_parseNodes hitems hparse).mpr
    (.inr ⟨by decide, .nodeId (decimal 4294967297), List.mem_singleton_self _, hone.symm⟩)
  rcases (h 1).mp hmem with hempty | ⟨-, item, hitem, hdenotes⟩
  · revert hempty
    decide
  · obtain rfl := List.mem_singleton.mp hitem
    rw [ListItem.Denotes, value_decimal] at hdenotes
    contradiction

/-- A number above `INT_MAX` does no harm where the node it hits is in the list as well. -/
theorem parseNodes_means_range :
    ∃ items t, items.map ListItem.text = ["1-2".toList, "4294967297".toList] ∧
      parseNodes (listText items) (⟨0, Vector.replicate 4 0⟩ : KrgNodeSet 4) = .ok (1, t) ∧
      ∀ n : ℤ, n ∈ t.members ↔ n ∈ (⟨0, Vector.replicate 4 0⟩ : KrgNodeSet 4).members ∨
        ((0 ≤ n ∧ n < (4 : ℕ)) ∧ ∃ item ∈ items, item.Denotes n) := by
  have hitems : [ListItem.nodeRange (decimal 1) (decimal 2), .nodeId (decimal 4294967297)] ≠ [] :=
    List.cons_ne_nil _ _
  have hparse := parseNodes_listText hitems
    (List.forall_mem_cons.mpr ⟨by decide, List.forall_mem_singleton.mpr (accepted_nodeId _)⟩)
    (⟨0, Vector.replicate 4 0⟩ : KrgNodeSet 4)
  refine ⟨[.nodeRange (decimal 1) (decimal 2), .nodeId (decimal 4294967297)], _, by decide, hparse,
    (parseNodes_means_iff hitems hparse).mpr fun n hn _ hsmall => ?_⟩
  have hrange := hsmall _ List.mem_cons_self
  simp only [List.mem_cons, List.not_mem_nil, or_false, exists_eq_or_imp, exists_eq_left,
    ListItem.FitsInt, ListItem.Hits, ListItem.Denotes, value_decimal] at hrange ⊢
  omega

/-- A list of documented items. -/
def IsNodeList (ch : List Char) : Prop := ∃ items, items ≠ [] ∧ ch = listText items

/-- A list of items that are read, with or without blanks and signs. -/
def IsSpelledList (ch : List Char) : Prop := ∀ part ∈ ch.splitOn ',', IsSpelled part

/-- A documented list is one of the lists that are read. -/
theorem IsNodeList.isSpelledList {ch : List Char} (h : IsNodeList ch) : IsSpelledList ch := by
  obtain ⟨items, hitems, rfl⟩ := h
  rw [IsSpelledList, splitOn_listText hitems]
  intro part hpart
  obtain ⟨item, -, rfl⟩ := List.mem_map.mp hpart
  exact ⟨item.spelled, (text_spelled item).symm⟩

/-- Where the loops end, the result is 1 exactly for a list of items that are read. -/
theorem parseNodes_eq_one_iff {ch : List Char} {nodeSet t : KrgNodeSet maxNodes} {r : ℤ}
    (h : parseNodes ch nodeSet = .ok (r, t)) : r = 1 ↔ IsSpelledList ch := by
  rw [parseNodes_eq] at h
  constructor
  · rintro rfl part hpart
    have haccepted := (parseItems_eq_one_iff.mp h).1 part hpart
    rw [← isSome_readItem_iff]
    exact Option.isSome_of_any haccepted
  · intro hspelled
    rcases parseItems_ret h with hr | rfl
    · exact hr
    · obtain ⟨part, hpart, hnone⟩ := parseItems_eq_neg_one h
      have hsome := isSome_readItem_iff.mpr (hspelled part hpart)
      rw [hnone] at hsome
      contradiction

/-- When the loops end, the parser returns 1 for the documented lists and -1 for any other text
if and only if the text is none of the lists with blanks or signs that it reads as well. -/
theorem parseNodes_accepts_iff {ch : List Char} {nodeSet t : KrgNodeSet maxNodes} {r : ℤ}
    (h : parseNodes ch nodeSet = .ok (r, t)) :
    ((IsNodeList ch → r = 1) ∧ (¬ IsNodeList ch → r = -1)) ↔
      (IsSpelledList ch → IsNodeList ch) := by
  rw [← parseNodes_eq_one_iff h]
  rw [parseNodes_eq] at h
  rcases parseItems_ret h with rfl | rfl
  · simp
  · have hlist : ¬ IsNodeList ch := fun hlist => by
      have hret := parseNodes_eq_one_iff ((parseNodes_eq ch nodeSet).trans h)
      have hone := hret.mpr hlist.isSpelledList
      contradiction
    simp [hlist]

/-- A documented item starts with a digit. -/
theorem ListItem.exists_cons (item : ListItem) :
    ∃ c cs, item.text = c :: cs ∧ c.isDigit = true := by
  cases item with
  | nodeId id => exact id.exists_cons
  | nodeRange first last =>
    obtain ⟨c, cs, hcons, hc⟩ := first.exists_cons
    exact ⟨c, _, congrArg (· ++ '-' :: last.digits) hcons, hc⟩

/-- A number with a plus is accepted. -/
theorem parseNodes_accepts_plus :
    parseNodes "+3".toList (⟨0, Vector.replicate 4 0⟩ : KrgNodeSet 4) =
        .ok (1, ⟨0, #v[0, 0, 0, 1]⟩) ∧
      ¬ IsNodeList "+3".toList := by
  refine ⟨rfl, ?_⟩
  rintro ⟨items, hitems, htext⟩
  have hsplit : items.map ListItem.text = ["+3".toList] := by
    rw [← splitOn_listText hitems, ← htext]
    decide
  obtain ⟨item, -, hitem⟩ := List.mem_map.mp (hsplit ▸ List.mem_singleton_self _)
  obtain ⟨c, cs, hcons, hc⟩ := item.exists_cons
  rw [hitem] at hcons
  obtain ⟨rfl, -⟩ := List.cons.inj hcons
  contradiction

/-- A text with two dashes is no documented list, and it is refused. -/
theorem parseNodes_refuses_dashes :
    (IsNodeList "1-2-3".toList → (-1 : ℤ) = 1) ∧ (¬ IsNodeList "1-2-3".toList → (-1 : ℤ) = -1) := by
  have hparse : parseNodes "1-2-3".toList (⟨0, Vector.replicate 4 0⟩ : KrgNodeSet 4) =
      .ok (-1, ⟨0, Vector.replicate 4 0⟩) := rfl
  refine (parseNodes_accepts_iff hparse).mpr fun hspelled => ?_
  have hread := isSome_readItem_iff.mpr (hspelled "1-2-3".toList (by decide))
  have hnone : (readItem "1-2-3".toList).isSome = false := by decide
  rw [hnone] at hread
  contradiction

end Kerrighed.Krgadm
