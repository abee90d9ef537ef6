import Kerrighed.Common.Scan

/-!
# Node sets

A node set is a vector of bytes with one entry for each possible node id, and every function
of the library that takes a node id checks its range itself. The functions below are those of
the library, over a vector whose length is `kerrighed_max_nodes`.

The purpose of a node set is to be a finite set of ids. `members` reads that set off the
bytes, and each function is characterized by what it does to or tells about the members.
-/

namespace Kerrighed.Hotplug

open Kerrighed.Common

/-- A node set for `kerrighed_max_nodes` nodes. -/
structure KrgNodeSet (maxNodes : ℕ) where
  subclusterid : ℤ
  v : Vector Int8 maxNodes
  deriving DecidableEq, Repr

variable {maxNodes : ℕ}

/-- The byte at an index of the vector. -/
def KrgNodeSet.byte (s : KrgNodeSet maxNodes) (i : ℕ) : Int8 := s.v[i]?.getD 0

/-- The test `if (node_set->v[i])`. -/
def KrgNodeSet.flag (s : KrgNodeSet maxNodes) (i : ℕ) : Bool := s.byte i ≠ 0

/-- Reset the identifier and every entry. -/
def krgNodeSetClear (_item : KrgNodeSet maxNodes) : KrgNodeSet maxNodes :=
  ⟨0, Vector.replicate maxNodes 0⟩

/-- Clear the memory that `malloc` returns, whatever it held. -/
def krgNodeSetCreate (malloc : Option (KrgNodeSet maxNodes)) : Option (KrgNodeSet maxNodes) :=
  malloc.map krgNodeSetClear

/-- Set the entry of a node in range. -/
def krgNodeSetAdd (item : KrgNodeSet maxNodes) (n : ℤ) : ℤ × KrgNodeSet maxNodes :=
  if 0 ≤ n ∧ n < maxNodes then (0, { item with v := item.v.setIfInBounds n.toNat 1 })
  else (-1, item)

/-- Clear the entry of a node in range. -/
def krgNodeSetRemove (item : KrgNodeSet maxNodes) (n : ℤ) : ℤ × KrgNodeSet maxNodes :=
  if 0 ≤ n ∧ n < maxNodes then (0, { item with v := item.v.setIfInBounds n.toNat 0 })
  else (-1, item)

/-- The entry of a node in range, and 0 for any other number. -/
def krgNodeSetContains (nodeSet : KrgNodeSet maxNodes) (n : ℤ) : ℤ :=
  if 0 ≤ n ∧ n < maxNodes then (nodeSet.byte n.toNat).toInt else 0

/-- Count the entries that are set. -/
def krgNodeSetWeight (nodeSet : KrgNodeSet maxNodes) : ℤ :=
  (List.range maxNodes).countP nodeSet.flag

/-- The next node of the set behind `node`, or `-1`. -/
def krgNodeSetNext (nodeSet : KrgNodeSet maxNodes) (node : ℤ) : ℤ :=
  nextIndex nodeSet.flag maxNodes node

/-- The loop over all ids that adds those which pass a test. -/
def addWhere (test : ℕ → Bool) (r : KrgNodeSet maxNodes) : KrgNodeSet maxNodes :=
  (List.range maxNodes).foldl (fun r bcl => if test bcl then (krgNodeSetAdd r bcl).2 else r) r

/-- The body of a loop that takes the current node out when it passes a test. -/
def dropWhere (drop : ℤ → Bool) (s : KrgNodeSet maxNodes) (node : ℤ) : KrgNodeSet maxNodes :=
  if drop node then (krgNodeSetRemove s node).2 else s

/-- A call that changes a node set. -/
inductive NodeSetOp where
  | add (n : ℤ)
  | remove (n : ℤ)
  | clear
  deriving DecidableEq, Repr

/-- The call on the node set, with the value it returns. -/
def NodeSetOp.call : NodeSetOp → KrgNodeSet maxNodes → Option ℤ × KrgNodeSet maxNodes
  | .add n, s => (some (krgNodeSetAdd s n).1, (krgNodeSetAdd s n).2)
  | .remove n, s => (some (krgNodeSetRemove s n).1, (krgNodeSetRemove s n).2)
  | .clear, s => (none, krgNodeSetClear s)

/-- The body of a loop that takes out some of the nodes visited so far, the current one
included. The choice may depend on everything visited. -/
def removeVisited (choose : List ℤ → ℤ → Bool) (st : KrgNodeSet maxNodes × List ℤ) (node : ℤ) :
    KrgNodeSet maxNodes × List ℤ :=
  let visited := st.2 ++ [node]
  ((visited.filter (choose visited)).foldl (fun s n => (krgNodeSetRemove s n).2) st.1, visited)

/-- The set of ids that a node set stands for. -/
def KrgNodeSet.members (s : KrgNodeSet maxNodes) : Finset ℤ := indexSet s.flag maxNodes

/-- What the call means for the set of ids: a number out of range is ignored. -/
def NodeSetOp.apply (maxNodes : ℕ) : NodeSetOp → Finset ℤ → Finset ℤ
  | .add n, A => if 0 ≤ n ∧ n < maxNodes then insert n A else A
  | .remove n, A => if 0 ≤ n ∧ n < maxNodes then A.erase n else A
  | .clear, _ => ∅

/-- What the call returns: 0 for a number in range and -1 for any other. -/
def NodeSetOp.result (maxNodes : ℕ) : NodeSetOp → Option ℤ
  | .add n => some (if 0 ≤ n ∧ n < maxNodes then 0 else -1)
  | .remove n => some (if 0 ≤ n ∧ n < maxNodes then 0 else -1)
  | .clear => none

/-- The entries of a node set made by the library are 0 or 1. -/
def KrgNodeSet.Flags (s : KrgNodeSet maxNodes) : Prop := ∀ i, s.byte i = 0 ∨ s.byte i = 1

/-- The entry after an update at one index. -/
theorem byte_set {s : KrgNodeSet maxNodes} {k i : ℕ} {b : Int8} (hk : k < maxNodes) :
    KrgNodeSet.byte { s with v := s.v.setIfInBounds k b } i = if i = k then b else s.byte i := by
  simp only [KrgNodeSet.byte, Vector.getElem?_setIfInBounds, hk, if_true]
  by_cases hik : i = k
  · simp [hik]
  · simp [hik, Ne.symm hik]

/-- Every entry is 0 after a reset. -/
@[simp]
theorem byte_clear (item : KrgNodeSet maxNodes) (i : ℕ) : (krgNodeSetClear item).byte i = 0 := by
  simp only [KrgNodeSet.byte, krgNodeSetClear, Vector.getElem?_replicate]
  split <;> rfl

/-- A node is a member exactly when its id is in range and its entry is set. -/
theorem mem_members {s : KrgNodeSet maxNodes} {n : ℤ} :
    n ∈ s.members ↔ (0 ≤ n ∧ n < maxNodes) ∧ s.byte n.toNat ≠ 0 := by
  simp [KrgNodeSet.members, KrgNodeSet.flag]

/-- A reset set is empty. -/
@[simp]
theorem members_clear (item : KrgNodeSet maxNodes) : (krgNodeSetClear item).members = ∅ := by
  ext n
  simp [mem_members]

/-- The reset set has clean entries. -/
theorem flags_clear (item : KrgNodeSet maxNodes) : (krgNodeSetClear item).Flags :=
  fun i => .inl (byte_clear item i)

/-- Adding a node in range inserts it, and any other number is refused. -/
theorem members_add (s : KrgNodeSet maxNodes) (n : ℤ) :
    (krgNodeSetAdd s n).2.members =
      if 0 ≤ n ∧ n < maxNodes then insert n s.members else s.members := by
  rw [krgNodeSetAdd]
  split
  · rename_i hn
    ext i
    rw [Finset.mem_insert, mem_members, mem_members, byte_set (by omega)]
    by_cases hi : i = n
    · simp [hi, hn]
    · have hne : (0 ≤ i ∧ i < maxNodes) → i.toNat ≠ n.toNat := by omega
      grind
  · rfl

/-- Removing a node erases it. -/
theorem members_remove (s : KrgNodeSet maxNodes) (n : ℤ) :
    (krgNodeSetRemove s n).2.members = s.members.erase n := by
  rw [krgNodeSetRemove]
  split
  · rename_i hn
    ext i
    rw [Finset.mem_erase, mem_members, mem_members, byte_set (by omega)]
    by_cases hi : i = n
    · simp [hi]
    · have hne : (0 ≤ i ∧ i < maxNodes) → i.toNat ≠ n.toNat := by omega
      grind
  · rename_i hn
    exact (Finset.erase_eq_of_notMem fun hmem => hn (mem_members.mp hmem).1).symm

/-- Setting an entry to 0 or 1 keeps the entries clean. -/
theorem flags_set {s : KrgNodeSet maxNodes} (hs : s.Flags) {k : ℕ} {b : Int8}
    (hk : k < maxNodes) (hb : b = 0 ∨ b = 1) :
    KrgNodeSet.Flags { s with v := s.v.setIfInBounds k b } := by
  intro i
  rw [byte_set hk]
  split
  · exact hb
  · exact hs i

/-- Adding keeps the entries clean. -/
theorem flags_add {s : KrgNodeSet maxNodes} (hs : s.Flags) (n : ℤ) :
    (krgNodeSetAdd s n).2.Flags := by
  rw [krgNodeSetAdd]
  split
  · exact flags_set hs (by omega) (.inr rfl)
  · exact hs

/-- Removing keeps the entries clean. -/
theorem flags_remove {s : KrgNodeSet maxNodes} (hs : s.Flags) (n : ℤ) :
    (krgNodeSetRemove s n).2.Flags := by
  rw [krgNodeSetRemove]
  split
  · exact flags_set hs (by omega) (.inl rfl)
  · exact hs

/-- Node sets with the same identifier and entries are the same. -/
theorem KrgNodeSet.eq_of_byte {s t : KrgNodeSet maxNodes} (hid : s.subclusterid = t.subclusterid)
    (hbyte : ∀ i < maxNodes, s.byte i = t.byte i) : s = t := by
  obtain ⟨_, v⟩ := s
  obtain ⟨_, w⟩ := t
  obtain rfl := hid
  congr 1
  ext i hi
  have h := hbyte i hi
  simp only [KrgNodeSet.byte, Vector.getElem?_eq_getElem hi, Option.getD_some] at h
  rw [h]

/-- The adding loop has set the entries that pass among those it has seen, and nothing else. -/
theorem byte_addBelow (test : ℕ → Bool) {k : ℕ} (hk : k ≤ maxNodes) (r : KrgNodeSet maxNodes)
    (i : ℕ) :
    ((List.range k).foldl
        (fun r bcl => if test bcl then (krgNodeSetAdd r bcl).2 else r) r).byte i =
      if i < k ∧ test i = true then 1 else r.byte i := by
  induction k with
  | zero => simp
  | succ k ih =>
    have hrange : (0 : ℤ) ≤ k ∧ (k : ℤ) < maxNodes := by omega
    rw [List.range_succ, List.foldl_append, List.foldl_cons, List.foldl_nil]
    by_cases htest : test k = true
    · rw [if_pos htest, krgNodeSetAdd, if_pos hrange, byte_set (by omega), ih (by omega)]
      by_cases hik : i = k
      · simp [hik, htest]
      · simp only [Int.toNat_natCast, hik, if_false, show (i < k + 1) ↔ i < k by omega]
    · rw [if_neg htest, ih (by omega)]
      by_cases hik : i = k
      · simp [hik, htest]
      · simp only [show (i < k + 1) ↔ i < k by omega]

/-- The adding loop sets exactly the entries that pass. -/
theorem byte_addWhere (test : ℕ → Bool) (r : KrgNodeSet maxNodes) (i : ℕ) :
    (addWhere test r).byte i = if i < maxNodes ∧ test i = true then 1 else r.byte i :=
  byte_addBelow test le_rfl r i

/-- The adding loop adds exactly the ids that pass. -/
theorem members_addWhere (test : ℕ → Bool) (r : KrgNodeSet maxNodes) :
    (addWhere test r).members = r.members ∪ indexSet test maxNodes := by
  ext n
  rw [Finset.mem_union, mem_members, mem_members, mem_indexSet, byte_addWhere, ← and_or_left]
  refine and_congr_right fun hn => ?_
  by_cases htest : test n.toNat = true
  · simp [htest, show n.toNat < maxNodes by omega]
  · simp [htest]

/-- The adding loop leaves the identifier alone. -/
@[simp]
theorem subclusterid_addWhere (test : ℕ → Bool) (r : KrgNodeSet maxNodes) :
    (addWhere test r).subclusterid = r.subclusterid := by
  refine List.foldlRecOn (motive := fun s : KrgNodeSet maxNodes => s.subclusterid = r.subclusterid) _ _ rfl ?_
  intro s hs bcl _
  rw [krgNodeSetAdd]
  split
  · split <;> exact hs
  · exact hs

/-- The loop over a reset set sets the entries that pass and no other. -/
theorem passing_addWhere_clear (test : ℕ → Bool) (item : KrgNodeSet maxNodes) :
    passing (addWhere test (krgNodeSetClear item)).flag maxNodes = passing test maxNodes := by
  rw [passing, passing, passingFrom, passingFrom]
  congr 1
  refine List.filter_congr fun i hi => ?_
  have hlt : i < maxNodes := by
    have hrange := List.mem_range'_1.mp hi
    omega
  rw [KrgNodeSet.flag, byte_addWhere, byte_clear]
  by_cases htest : test i = true
  · simp [hlt, htest]
  · simp [htest]

/-- Two adding loops are one loop over what passes in either. -/
theorem addWhere_addWhere (test test' : ℕ → Bool) (r : KrgNodeSet maxNodes) :
    addWhere test' (addWhere test r) = addWhere (fun bcl => test bcl || test' bcl) r := by
  refine KrgNodeSet.eq_of_byte (by simp) fun i hi => ?_
  simp only [byte_addWhere, hi, true_and, Bool.or_eq_true]
  by_cases htest : test i = true
  · simp [htest]
  · simp [htest]

/-- A single node is added as by a loop in which only that node passes. -/
theorem add_eq_addWhere (r : KrgNodeSet maxNodes) (n : ℤ) :
    (krgNodeSetAdd r n).2 = addWhere (fun bcl => (bcl : ℤ) = n) r := by
  refine KrgNodeSet.eq_of_byte ?_ fun i hi => ?_
  · rw [krgNodeSetAdd]
    split <;> simp
  · rw [byte_addWhere, krgNodeSetAdd]
    split
    · rw [byte_set (by omega)]
      simp only [hi, true_and, decide_eq_true_eq, show i = n.toNat ↔ (i : ℤ) = n by omega]
    · have hne : (i : ℤ) ≠ n := by omega
      simp [hne]

/-- A loop in which nothing passes adds nothing. -/
theorem addWhere_of_forall_not {test : ℕ → Bool} (r : KrgNodeSet maxNodes)
    (htest : ∀ i < maxNodes, test i = false) : addWhere test r = r := by
  refine KrgNodeSet.eq_of_byte (by simp) fun i hi => ?_
  rw [byte_addWhere, htest i hi]
  simp

/-- The adding loop keeps the entries clean. -/
theorem flags_addWhere (test : ℕ → Bool) {r : KrgNodeSet maxNodes} (hr : r.Flags) :
    (addWhere test r).Flags := by
  intro i
  rw [byte_addWhere]
  split
  · exact .inr rfl
  · exact hr i

/-- The members determine which entries are set. -/
theorem flag_of_members {s t : KrgNodeSet maxNodes} (h : s.members = t.members) {i : ℕ}
    (hi : i < maxNodes) : s.flag i = t.flag i := by
  have hmem := congrArg ((i : ℤ) ∈ ·) h
  have hrange : (0 : ℤ) ≤ i ∧ (i : ℤ) < maxNodes := by omega
  simpa [KrgNodeSet.members, mem_indexSet, hrange, ← Bool.eq_iff_iff] using hmem

/-- A clean entry is 1 when it is set and 0 otherwise. -/
theorem byte_of_flags {s : KrgNodeSet maxNodes} (hs : s.Flags) (i : ℕ) :
    s.byte i = if s.flag i then 1 else 0 := by
  rw [KrgNodeSet.flag]
  rcases hs i with h | h <;> simp [h]

/-- Over clean entries the members determine the vector. -/
theorem v_eq_of_members {s t : KrgNodeSet maxNodes} (hs : s.Flags) (ht : t.Flags)
    (h : s.members = t.members) : s.v = t.v := by
  have heq : s = { t with subclusterid := s.subclusterid } := by
    refine KrgNodeSet.eq_of_byte rfl fun i hi => ?_
    change s.byte i = t.byte i
    rw [byte_of_flags hs, byte_of_flags ht, flag_of_members h hi]
  rw [heq]

/-- Over clean entries the membership test answers 1 for the members and 0 for any other
number. -/
theorem contains_eq {s : KrgNodeSet maxNodes} (hs : s.Flags) (n : ℤ) :
    krgNodeSetContains s n = if n ∈ s.members then 1 else 0 := by
  simp only [krgNodeSetContains, mem_members]
  by_cases hn : 0 ≤ n ∧ n < maxNodes
  · rcases hs n.toNat with h | h
    · simp [h]
    · simp [hn, h]
  · simp [hn]

/-- The weight is the number of members. -/
theorem weight_eq (s : KrgNodeSet maxNodes) : krgNodeSetWeight s = s.members.card :=
  congrArg Nat.cast (countP_range s.flag maxNodes)

/-- A call does to the members what it means, and keeps the entries clean. -/
theorem call_spec (op : NodeSetOp) {s : KrgNodeSet maxNodes} (hs : s.Flags) :
    (op.call s).2.members = op.apply maxNodes s.members ∧ (op.call s).2.Flags := by
  cases op with
  | add n =>
    refine ⟨?_, flags_add hs n⟩
    simp only [NodeSetOp.call, NodeSetOp.apply, members_add]
  | remove n =>
    refine ⟨?_, flags_remove hs n⟩
    simp only [NodeSetOp.call, NodeSetOp.apply, members_remove]
    split
    · rfl
    · rename_i hn
      exact Finset.erase_eq_of_notMem fun hmem => hn (mem_members.mp hmem).1
  | clear => exact ⟨members_clear s, flags_clear s⟩

/-- A sequence of calls does to the members what the calls mean one after the other. -/
theorem calls_spec (ops : List NodeSetOp) {s : KrgNodeSet maxNodes} (hs : s.Flags) :
    (ops.foldl (fun s op => (op.call s).2) s).members =
        ops.foldl (fun A op => op.apply maxNodes A) s.members ∧
      (ops.foldl (fun s op => (op.call s).2) s).Flags := by
  induction ops generalizing s with
  | nil => exact ⟨rfl, hs⟩
  | cons op rest ih =>
    obtain ⟨hmembers, hflags⟩ := call_spec op hs
    rw [List.foldl_cons, List.foldl_cons, ← hmembers]
    exact ih hflags

/-- The value a call returns tells whether its number is in range; out of range the call
changes nothing. -/
theorem call_result (op : NodeSetOp) (s : KrgNodeSet maxNodes) :
    (op.call s).1 = op.result maxNodes ∧ (op.result maxNodes = some (-1) → (op.call s).2 = s) := by
  cases op with
  | add n =>
    simp only [NodeSetOp.call, NodeSetOp.result, krgNodeSetAdd]
    split <;> simp
  | remove n =>
    simp only [NodeSetOp.call, NodeSetOp.result, krgNodeSetRemove]
    split <;> simp
  | clear => exact ⟨rfl, by simp [NodeSetOp.result]⟩

/-- Removing a node leaves the entry of any other node alone. -/
theorem flag_remove_of_ne (s : KrgNodeSet maxNodes) {n : ℤ} {j : ℕ} (hj : n ≠ j) :
    (krgNodeSetRemove s n).2.flag j = s.flag j := by
  rw [krgNodeSetRemove]
  split
  · rw [KrgNodeSet.flag, byte_set (by omega), if_neg (by omega), ← KrgNodeSet.flag]
  · rfl

/-- Removing some nodes leaves the entry of any other node alone. -/
theorem flag_removeAll_of_notMem (nodes : List ℤ) (s : KrgNodeSet maxNodes) {j : ℕ}
    (hj : (j : ℤ) ∉ nodes) :
    (nodes.foldl (fun s n => (krgNodeSetRemove s n).2) s).flag j = s.flag j := by
  induction nodes generalizing s with
  | nil => rfl
  | cons n rest ih =>
    rw [List.mem_cons, not_or] at hj
    rw [List.foldl_cons, ih _ hj.2, flag_remove_of_ne s (Ne.symm hj.1)]

/-- Taking out those of some nodes that pass a test. -/
theorem mem_members_dropEach {drop : ℤ → Bool} {nodes : List ℤ} {s : KrgNodeSet maxNodes} {n : ℤ} :
    n ∈ (nodes.foldl (dropWhere drop) s).members ↔
      n ∈ s.members ∧ ¬ (n ∈ nodes ∧ drop n = true) := by
  induction nodes generalizing s with
  | nil => simp
  | cons node rest ih =>
    rw [List.foldl_cons, ih, dropWhere, List.mem_cons]
    by_cases hdrop : drop node = true
    · rw [if_pos hdrop, members_remove, Finset.mem_erase]
      by_cases hn : n = node
      · simp [hn, hdrop]
      · simp [hn]
    · rw [if_neg hdrop]
      by_cases hn : n = node
      · simp [hn, hdrop]
      · simp [hn]

/-- A loop over a node set that takes out the nodes that pass a test ends, and leaves exactly
the members that do not pass. -/
theorem visit_dropWhere (drop : ℤ → Bool) (s : KrgNodeSet maxNodes) {fuel : ℕ}
    (hfuel : maxNodes < fuel) :
    ∃ last, visit krgNodeSetNext (dropWhere drop) fuel s = some (passing s.flag maxNodes, last) ∧
      ∀ n, n ∈ last.members ↔ n ∈ s.members ∧ drop n = false := by
  refine ⟨_, visit_eq_of_forall (fun s i j hij => ?_) hfuel, fun n => ?_⟩
  · rw [dropWhere]
    split
    · exact flag_remove_of_ne s (by omega)
    · rfl
  · rw [mem_members_dropEach, mem_passing, ← KrgNodeSet.members]
    by_cases hn : n ∈ s.members
    · simp [hn]
    · simp [hn]

/-- A body that takes out visited nodes leaves the nodes still to come alone. -/
theorem removeVisited_keeps (choose : List ℤ → ℤ → Bool) :
    BodyKeeps (fun i st => ∀ n ∈ st.2, n < (i : ℤ))
      (fun st : KrgNodeSet maxNodes × List ℤ => st.1.flag) (removeVisited choose) := by
  intro st i hst
  have hvisited : ∀ n ∈ (removeVisited choose st i).2, n < ((i + 1 : ℕ) : ℤ) := by
    intro n hn
    rcases List.mem_append.mp hn with h | h
    · exact lt_trans (hst n h) (by omega)
    · rw [List.mem_singleton.mp h]
      omega
  refine ⟨hvisited, fun j hj => flag_removeAll_of_notMem _ _ fun hmem => ?_⟩
  have hlt := hvisited j (List.mem_of_mem_filter hmem)
  omega

/-- A loop over a node set that takes out visited nodes ends and visits the members of the set
it started with, in increasing order. -/
theorem visit_removeVisited (choose : List ℤ → ℤ → Bool) (s : KrgNodeSet maxNodes) {fuel : ℕ}
    (hfuel : maxNodes < fuel) :
    ∃ last, visit (fun st : KrgNodeSet maxNodes × List ℤ => krgNodeSetNext st.1)
      (removeVisited choose) fuel (s, []) = some (passing s.flag maxNodes, last) := by
  refine ⟨_, visit_eq (fun i st => ∀ n ∈ st.2, n < (i : ℤ)) ?_
    (removeVisited_keeps choose) (by simp) hfuel⟩
  intro st i hst n hn
  exact lt_trans (hst n hn) (by omega)

/-- A node set is a finite set of ids: after any calls the bytes hold the set that the calls
mean, every call returns and ignores what it should, the membership test and the weight are
those of the set, and the loop over it ends with every member visited once in increasing
order, also when it takes out nodes it has visited. -/
theorem krgNodeSet_isFiniteSet (item : KrgNodeSet maxNodes) :
    ∃ s₀, krgNodeSetCreate (some item) = some s₀ ∧ ∀ ops : List NodeSetOp,
      let s := ops.foldl (fun s op => (op.call s).2) s₀
      let A := ops.foldl (fun A op => op.apply maxNodes A) ∅
      s.members = A ∧
      (∀ op : NodeSetOp, (op.call s).1 = op.result maxNodes ∧
        (op.result maxNodes = some (-1) → (op.call s).2 = s)) ∧
      (∀ n, krgNodeSetContains s n = if n ∈ A then 1 else 0) ∧
      krgNodeSetWeight s = A.card ∧
      ∀ choose fuel, maxNodes < fuel → ∃ visited last,
        visit (fun st : KrgNodeSet maxNodes × List ℤ => krgNodeSetNext st.1)
            (removeVisited choose) fuel (s, []) = some (visited, last) ∧
          visited.Pairwise (· < ·) ∧ ∀ n, n ∈ visited ↔ n ∈ A := by
  refine ⟨krgNodeSetClear item, rfl, fun ops => ?_⟩
  obtain ⟨hmembers, hflags⟩ := calls_spec ops (flags_clear item)
  rw [members_clear] at hmembers
  simp only [← hmembers]
  refine ⟨trivial, fun op => call_result op _, contains_eq hflags, weight_eq _, ?_⟩
  intro choose fuel hfuel
  obtain ⟨last, hvisit⟩ := visit_removeVisited choose _ hfuel
  exact ⟨_, last, hvisit, passing_pairwise _ _, fun n => mem_passing⟩

end Kerrighed.Hotplug
