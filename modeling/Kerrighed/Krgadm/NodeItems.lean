import Kerrighed.Common.Text
import Kerrighed.Krgadm.NodeList
import Mathlib.Data.List.TakeWhile

/-!
# The items of a node list

The recursion of `parse_nodes` splits its text at the last comma. It comes to reading the items
between the commas one after the other, up to the first one that is refused.

What is read from an item does not depend on the node set, and an item that is read adds the
nodes it names to whatever set there is. So a list that is read adds the nodes that its items
name, in any order.
-/

namespace Kerrighed.Krgadm

open Kerrighed.Common Kerrighed.Hotplug

variable {maxNodes : ℕ}

/-- Read one item: an interval when it has a dash, and a node otherwise. -/
def parseItem (ch : List Char) (nodeSet : KrgNodeSet maxNodes) :
    Except Fault (ℤ × KrgNodeSet maxNodes) :=
  if '-' ∈ ch then parseNodesInterval ch nodeSet else .ok (parseNode ch nodeSet)

/-- Read items one after the other, up to the first that is refused. -/
def parseItems : List (List Char) → KrgNodeSet maxNodes → Except Fault (ℤ × KrgNodeSet maxNodes)
  | [], nodeSet => .ok (1, nodeSet)
  | ch :: rest, nodeSet => do
    let (r, nodeSet) ← parseItem ch nodeSet
    if r = -1 then .ok (r, nodeSet) else parseItems rest nodeSet

/-- The numbers read from an item, before their conversion to `int`. -/
inductive NodeItem where
  | node (number : ℤ)
  | interval (first last : ℤ)
  deriving DecidableEq, Repr

/-- The numbers of an item, or nothing when the item is refused. -/
def readItem (ch : List Char) : Option NodeItem :=
  let node1 := strtol 10 ch
  if '-' ∈ ch then
    if node1.2 = ch ∨ node1.2.head? ≠ some '-' then none
    else
      let index := (ch.dropWhile (· ≠ '-')).tail
      let node2 := strtol 10 index
      if node2.2 = index ∨ node2.2 ≠ [] then none else some (.interval node1.1 node2.1)
  else if node1.2 = ch ∨ node1.2 ≠ [] then none else some (.node node1.1)

/-- The nodes that an item names, after the conversion of its numbers to `int`. -/
def NodeItem.names : NodeItem → ℤ → Bool
  | .node number, n => n = toInt number
  | .interval first last, n => toInt first ≤ n ∧ n ≤ toInt last

/-- The item is an interval that ends at `INT_MAX`. -/
def NodeItem.endsAtMax : NodeItem → Bool
  | .node _ => false
  | .interval _ last => toInt last = intMax

/-- The text of an item from which its loop gets to an end. -/
def accepted (ch : List Char) : Bool := (readItem ch).any fun item => !item.endsAtMax

/-- The text of an interval that ends at `INT_MAX`. -/
def endsAtMax (ch : List Char) : Bool := (readItem ch).any NodeItem.endsAtMax

/-- The nodes that the text of an item names. -/
def names (ch : List Char) (n : ℤ) : Bool := (readItem ch).any (·.names n)

/-- The set with the nodes that some items name. -/
def addNamed (chs : List (List Char)) (nodeSet : KrgNodeSet maxNodes) : KrgNodeSet maxNodes :=
  addWhere (fun bcl => chs.any (names · bcl)) nodeSet

/-- An `int` is at most `INT_MAX`. -/
theorem toInt_le_intMax (v : ℤ) : toInt v ≤ intMax := by
  have hlt := Int.bmod_lt (x := v) (show 0 < 4294967296 by decide)
  rw [toInt, intMax]
  omega

/-- The loop over an interval adds its nodes, unless it ends at `INT_MAX`. -/
theorem addNodesFrom_eq {fuel : ℕ} {node node2 : ℤ} (hfuel : node2 + 1 - node < fuel)
    (hpos : 0 < fuel) (hmax : node2 ≤ intMax) (nodeSet : KrgNodeSet maxNodes) :
    addNodesFrom fuel node node2 nodeSet =
      if node ≤ node2 ∧ node2 = intMax then .error .signedOverflow
      else .ok (addWhere (fun bcl => node ≤ bcl ∧ (bcl : ℤ) ≤ node2) nodeSet) := by
  induction fuel generalizing node nodeSet with
  | zero => omega
  | succ fuel ih =>
    rw [addNodesFrom]
    by_cases hle : node ≤ node2
    · rw [if_pos hle]
      by_cases hnode : node = intMax
      · rw [if_pos hnode, if_pos ⟨hle, by omega⟩]
      · rw [if_neg hnode, ih (by omega) (by omega)]
        have hcond : (node + 1 ≤ node2 ∧ node2 = intMax) ↔ (node ≤ node2 ∧ node2 = intMax) := by
          omega
        simp only [hcond, add_eq_addWhere, addWhere_addWhere]
        congr 3
        funext bcl
        rw [← Bool.decide_or]
        exact decide_eq_decide.mpr (by omega)
    · rw [if_neg hle, if_neg (fun h => hle h.1), addWhere_of_forall_not]
      intro i _
      exact decide_eq_false fun h => hle (h.1.trans h.2)

/-- An interval that is read adds its nodes, unless it ends at `INT_MAX`. -/
theorem addNodes_eq (first last : ℤ) (nodeSet : KrgNodeSet maxNodes) :
    addNodes (toInt first) (toInt last) nodeSet =
      if toInt last = intMax then .error .signedOverflow
      else .ok (addWhere (fun bcl => toInt first ≤ bcl ∧ (bcl : ℤ) ≤ toInt last) nodeSet) := by
  have hfirst := toInt_le_intMax first
  have hcond : (toInt first ≤ toInt last ∧ toInt last = intMax) ↔ toInt last = intMax := by omega
  rw [addNodes, addNodesFrom_eq (by omega) (Nat.succ_pos _) (toInt_le_intMax last)]
  simp only [hcond]

/-- An item that is read adds what it names, unless it is an interval that ends at `INT_MAX`. -/
theorem parseItem_eq (ch : List Char) (nodeSet : KrgNodeSet maxNodes) :
    parseItem ch nodeSet =
      match readItem ch with
      | none => .ok (-1, nodeSet)
      | some item =>
        if item.endsAtMax then .error .signedOverflow
        else .ok (1, addWhere (fun bcl => item.names bcl) nodeSet) := by
  rw [parseItem, readItem]
  by_cases hdash : '-' ∈ ch
  · rw [if_pos hdash, if_pos hdash, parseNodesInterval]
    split
    · rfl
    · simp only
      split
      · rfl
      · rw [addNodes_eq]
        simp only [NodeItem.endsAtMax, decide_eq_true_eq]
        split <;> rfl
  · rw [if_neg hdash, if_neg hdash, parseNode]
    split
    · rfl
    · simp only [add_eq_addWhere]
      rfl

/-- An item is read with 1 or refused with -1. -/
theorem parseItem_ret {ch : List Char} {nodeSet t : KrgNodeSet maxNodes} {r : ℤ}
    (h : parseItem ch nodeSet = .ok (r, t)) : r = 1 ∨ r = -1 := by
  rw [parseItem_eq] at h
  split at h
  · exact .inr (Prod.mk.inj (Except.ok.inj h)).1.symm
  · split at h
    · contradiction
    · exact .inl (Prod.mk.inj (Except.ok.inj h)).1.symm

/-- The rest is read behind an item that is not refused. -/
theorem parseItems_of_ok {ch : List Char} {nodeSet t : KrgNodeSet maxNodes} {r : ℤ}
    (h : parseItem ch nodeSet = .ok (r, t)) (rest : List (List Char)) :
    parseItems (ch :: rest) nodeSet = if r = -1 then .ok (r, t) else parseItems rest t := by
  rw [parseItems, h]
  rfl

/-- Nothing is read behind an item whose loop overflows. -/
theorem parseItems_of_error {ch : List Char} {nodeSet : KrgNodeSet maxNodes} {fault : Fault}
    (h : parseItem ch nodeSet = .error fault) (rest : List (List Char)) :
    parseItems (ch :: rest) nodeSet = .error fault := by
  rw [parseItems, h]
  rfl

/-- Items are read in two parts, the second one only when the first is not refused. -/
theorem parseItems_append (before after : List (List Char)) (nodeSet : KrgNodeSet maxNodes) :
    parseItems (before ++ after) nodeSet = (do
      let (r, nodeSet) ← parseItems before nodeSet
      if r = -1 then .ok (r, nodeSet) else parseItems after nodeSet) := by
  induction before generalizing nodeSet with
  | nil => rfl
  | cons ch rest ih =>
    rw [List.cons_append]
    cases hitem : parseItem ch nodeSet with
    | error fault =>
      rw [parseItems_of_error hitem, parseItems_of_error hitem]
      rfl
    | ok result =>
      obtain ⟨r, t⟩ := result
      rw [parseItems_of_ok hitem, parseItems_of_ok hitem]
      by_cases hr : r = -1
      · rw [if_pos hr, if_pos hr]
        exact (if_pos hr).symm
      · rw [if_neg hr, if_neg hr, ih]

/-- Without a separator there is nothing to split. -/
theorem notMem_of_splitLast {sep : Char} {ch : List Char} (h : splitLast sep ch = none) :
    sep ∉ ch := by
  induction ch with
  | nil => exact List.not_mem_nil
  | cons c cs ih =>
    rw [splitLast] at h
    cases hrest : splitLast sep cs with
    | some parts => simp [hrest] at h
    | none =>
      rw [hrest] at h
      by_cases hc : c = sep
      · simp [hc] at h
      · rw [List.mem_cons, not_or]
        exact ⟨Ne.symm hc, ih hrest⟩

/-- The recursion reads the items between the commas one after the other. -/
theorem parseNodesWithin_eq {depth : ℕ} {ch : List Char} (hdepth : ch.length < depth)
    (nodeSet : KrgNodeSet maxNodes) :
    parseNodesWithin depth ch nodeSet = parseItems (ch.splitOn ',') nodeSet := by
  induction depth generalizing ch nodeSet with
  | zero => omega
  | succ depth ih =>
    rw [parseNodesWithin]
    cases hsplit : splitLast ',' ch with
    | some parts =>
      obtain ⟨before, behind⟩ := parts
      have hch := splitLast_some hsplit
      have hlength := congrArg List.length hch
      rw [List.length_append, List.length_cons] at hlength
      have hbefore (s : KrgNodeSet maxNodes) :
          parseNodesWithin depth before s = parseItems (before.splitOn ',') s := ih (by omega) s
      have hbehind (s : KrgNodeSet maxNodes) :
          parseNodesWithin depth behind s = parseItems (behind.splitOn ',') s := ih (by omega) s
      rw [hch, splitOn_append_cons, parseItems_append]
      simp only [hbefore, hbehind]
    | none =>
      rw [splitOn_of_notMem (notMem_of_splitLast hsplit)]
      change parseItem ch nodeSet = _
      cases hitem : parseItem ch nodeSet with
      | error fault => exact (parseItems_of_error hitem []).symm
      | ok result =>
        obtain ⟨r, t⟩ := result
        rw [parseItems_of_ok hitem]
        rcases parseItem_ret hitem with rfl | rfl <;> rfl

/-- A node list is read item by item. -/
theorem parseNodes_eq (ch : List Char) (nodeSet : KrgNodeSet maxNodes) :
    parseNodes ch nodeSet = parseItems (ch.splitOn ',') nodeSet :=
  parseNodesWithin_eq (Nat.lt_succ_self _) nodeSet

/-- Adding what one item names and then what others name. -/
theorem addNamed_cons (ch : List Char) (chs : List (List Char)) (nodeSet : KrgNodeSet maxNodes) :
    addNamed (ch :: chs) nodeSet = addNamed chs (addWhere (fun bcl => names ch bcl) nodeSet) := by
  rw [addNamed, addNamed, addWhere_addWhere]
  rfl

/-- An item is refused, or its loop gets to an end, or it ends at `INT_MAX`. -/
theorem item_cases (ch : List Char) :
    (readItem ch = none ∧ accepted ch = false ∧ endsAtMax ch = false) ∨
      (accepted ch = true ∧ endsAtMax ch = false) ∨ (accepted ch = false ∧ endsAtMax ch = true) := by
  rw [accepted, endsAtMax]
  cases readItem ch with
  | none => exact .inl ⟨rfl, rfl, rfl⟩
  | some item =>
    rw [Option.any_some, Option.any_some]
    cases item.endsAtMax with
    | true => exact .inr (.inr ⟨rfl, rfl⟩)
    | false => exact .inr (.inl ⟨rfl, rfl⟩)

/-- Nothing is read behind an item that is refused. -/
theorem parseItems_of_none {ch : List Char} (h : readItem ch = none) (rest : List (List Char))
    (nodeSet : KrgNodeSet maxNodes) : parseItems (ch :: rest) nodeSet = .ok (-1, nodeSet) := by
  have hitem := parseItem_eq ch nodeSet
  rw [h] at hitem
  exact parseItems_of_ok hitem rest

/-- The loop over an interval that ends at `INT_MAX` overflows. -/
theorem parseItems_of_endsAtMax {ch : List Char} (h : endsAtMax ch = true)
    (rest : List (List Char)) (nodeSet : KrgNodeSet maxNodes) :
    parseItems (ch :: rest) nodeSet = .error .signedOverflow := by
  have hitem := parseItem_eq ch nodeSet
  rw [endsAtMax] at h
  cases hread : readItem ch with
  | none => simp [hread] at h
  | some item =>
    rw [hread, Option.any_some] at h
    simp only [hread, h, if_true] at hitem
    exact parseItems_of_error hitem rest

/-- Behind an accepted item the rest is read into the set with the nodes that it names. -/
theorem parseItems_of_accepted {ch : List Char} (h : accepted ch = true)
    (rest : List (List Char)) (nodeSet : KrgNodeSet maxNodes) :
    parseItems (ch :: rest) nodeSet =
      parseItems rest (addWhere (fun bcl => names ch bcl) nodeSet) := by
  have hitem := parseItem_eq ch nodeSet
  rw [accepted] at h
  cases hread : readItem ch with
  | none => simp [hread] at h
  | some item =>
    have hnames : names ch = item.names := by
      funext n
      rw [names, hread]
      rfl
    rw [hread, Option.any_some, Bool.not_eq_true'] at h
    simp only [hread, h, Bool.false_eq_true, if_false] at hitem
    rw [parseItems_of_ok hitem, if_neg (by decide), hnames]

/-- The items are read up to the first that is not accepted, and that one decides the result. -/
theorem parseItems_eq (chs : List (List Char)) (nodeSet : KrgNodeSet maxNodes) :
    parseItems chs nodeSet =
      let nodeSet := addNamed (chs.takeWhile accepted) nodeSet
      match chs.dropWhile accepted with
      | [] => .ok (1, nodeSet)
      | ch :: _ => if endsAtMax ch then .error .signedOverflow else .ok (-1, nodeSet) := by
  have hnil (s : KrgNodeSet maxNodes) : addNamed [] s = s :=
    addWhere_of_forall_not s fun _ _ => rfl
  induction chs generalizing nodeSet with
  | nil => simp [parseItems, hnil]
  | cons ch rest ih =>
    rw [List.takeWhile_cons, List.dropWhile_cons]
    rcases item_cases ch with ⟨hread, haccepted, hmax⟩ | ⟨haccepted, -⟩ | ⟨haccepted, hmax⟩
    · rw [parseItems_of_none hread, haccepted]
      simp [hnil, hmax]
    · rw [parseItems_of_accepted haccepted, haccepted, ih]
      simp [addNamed_cons]
    · rw [parseItems_of_endsAtMax hmax, haccepted]
      simp [hmax]

/-- The result is 1 exactly when every item is accepted, and then the set has what they name. -/
theorem parseItems_eq_one_iff {chs : List (List Char)} {nodeSet t : KrgNodeSet maxNodes} :
    parseItems chs nodeSet = .ok (1, t) ↔
      (∀ ch ∈ chs, accepted ch = true) ∧ t = addNamed chs nodeSet := by
  rw [parseItems_eq]
  cases hdrop : chs.dropWhile accepted with
  | nil =>
    have hall := List.dropWhile_eq_nil_iff.mp hdrop
    have htake := List.takeWhile_eq_self_iff.mpr hall
    simp only [htake, Except.ok.injEq, Prod.mk.injEq, true_and]
    exact ⟨fun h => ⟨hall, h.symm⟩, fun h => h.2.symm⟩
  | cons ch rest =>
    have hnot : ¬ ∀ ch ∈ chs, accepted ch = true := fun hall => by
      rw [List.dropWhile_eq_nil_iff.mpr hall] at hdrop
      contradiction
    simp only
    split <;> simp [hnot]

/-- A list is read with 1 or refused with -1. -/
theorem parseItems_ret {chs : List (List Char)} {nodeSet t : KrgNodeSet maxNodes} {r : ℤ}
    (h : parseItems chs nodeSet = .ok (r, t)) : r = 1 ∨ r = -1 := by
  rw [parseItems_eq] at h
  simp only at h
  split at h
  · exact .inl (Prod.mk.inj (Except.ok.inj h)).1.symm
  · split at h
    · contradiction
    · exact .inr (Prod.mk.inj (Except.ok.inj h)).1.symm

/-- A list is refused because of an item that is not read. -/
theorem parseItems_eq_neg_one {chs : List (List Char)} {nodeSet t : KrgNodeSet maxNodes}
    (h : parseItems chs nodeSet = .ok (-1, t)) : ∃ ch ∈ chs, readItem ch = none := by
  rw [parseItems_eq] at h
  cases hdrop : chs.dropWhile accepted with
  | nil => simp [hdrop] at h
  | cons ch rest =>
    have hmem : ch ∈ chs := (List.dropWhile_sublist accepted).subset (hdrop ▸ List.mem_cons_self)
    have hnot := List.head?_dropWhile_not accepted chs
    rw [hdrop] at h hnot
    simp only [List.head?_cons] at h hnot
    rcases item_cases ch with ⟨hread, -⟩ | ⟨haccepted, -⟩ | ⟨-, hmax⟩
    · exact ⟨ch, hmem, hread⟩
    · rw [haccepted] at hnot
      contradiction
    · rw [hmax] at h
      contradiction

/-- What items name depends only on which items there are. -/
theorem addNamed_congr {chs chs' : List (List Char)} (h : ∀ ch, ch ∈ chs ↔ ch ∈ chs')
    (nodeSet : KrgNodeSet maxNodes) : addNamed chs nodeSet = addNamed chs' nodeSet := by
  rw [addNamed, addNamed]
  congr 1
  funext bcl
  rw [Bool.eq_iff_iff, List.any_eq_true, List.any_eq_true]
  exact exists_congr fun ch => and_congr_left' (h ch)

/-- The part behind a comma is read when the part before it was. -/
theorem parseNodes_append (a b : List Char) (nodeSet : KrgNodeSet maxNodes) :
    parseNodes (a ++ ',' :: b) nodeSet = (do
      let (r, nodeSet) ← parseNodes a nodeSet
      if r = 1 then parseNodes b nodeSet else .ok (r, nodeSet)) := by
  simp only [parseNodes_eq]
  rw [splitOn_append_cons, parseItems_append]
  cases hparse : parseItems (a.splitOn ',') nodeSet with
  | error fault => rfl
  | ok result =>
    obtain ⟨r, t⟩ := result
    change (if r = -1 then .ok (r, t) else parseItems (b.splitOn ',') t) =
      if r = 1 then parseItems (b.splitOn ',') t else .ok (r, t)
    rcases parseItems_ret hparse with rfl | rfl <;> rfl

/-- A list that is read stays so, with the same set, when its parts are reordered or repeated. -/
theorem parseNodes_of_mem_iff {parts parts' : List (List Char)}
    (hparts : ∀ part, part ∈ parts ↔ part ∈ parts') (hnil : parts ≠ [])
    {nodeSet t : KrgNodeSet maxNodes}
    (h : parseNodes ([','].intercalate parts) nodeSet = .ok (1, t)) :
    parseNodes ([','].intercalate parts') nodeSet = .ok (1, t) := by
  have hnil' : parts' ≠ [] := by
    obtain ⟨part, hpart⟩ := List.exists_mem_of_ne_nil parts hnil
    exact List.ne_nil_of_mem ((hparts part).mp hpart)
  have hmem (ch : List Char) : ch ∈ parts.flatMap (·.splitOn ',') ↔
      ch ∈ parts'.flatMap (·.splitOn ',') := by
    simp only [List.mem_flatMap, hparts]
  rw [parseNodes_eq, splitOn_intercalate hnil, parseItems_eq_one_iff] at h
  rw [parseNodes_eq, splitOn_intercalate hnil', parseItems_eq_one_iff]
  exact ⟨fun ch hch => h.1 ch ((hmem ch).mpr hch), h.2.trans (addNamed_congr hmem nodeSet)⟩

/-- Reading a joined list is reading its parts in order, the second one from the set that the
first one left and only when that one was read. For lists that are read, neither the order nor
the repetition of the parts matters. -/
theorem parseNodes_join (a b : List Char) (nodeSet : KrgNodeSet maxNodes) :
    (parseNodes (a ++ ',' :: b) nodeSet = do
      let (r, nodeSet) ← parseNodes a nodeSet
      if r = 1 then parseNodes b nodeSet else .ok (r, nodeSet)) ∧
    ∀ parts parts' : List (List Char), (∀ part, part ∈ parts ↔ part ∈ parts') →
      ∀ t, parseNodes ([','].intercalate parts) nodeSet = .ok (1, t) →
        parseNodes ([','].intercalate parts') nodeSet = .ok (1, t) := by
  refine ⟨parseNodes_append a b nodeSet, fun parts parts' hparts t h => ?_⟩
  by_cases hnil : parts = []
  · have hnil' : parts' = [] := List.eq_nil_iff_forall_not_mem.mpr fun part hpart => by
      have hmem := (hparts part).mpr hpart
      rw [hnil] at hmem
      contradiction
    rw [hnil']
    rw [hnil] at h
    exact h
  · exact parseNodes_of_mem_iff hparts hnil h

end Kerrighed.Krgadm
