import Kerrighed.Hotplug.NodeSet

/-!
# Cluster status vectors

The status of a cluster is a vector of chars, one for each possible node id. The library
counts the nodes in a status, tests one, walks over them and collects them in a node set,
each with a loop or a range check of its own.

`withStatus` is the set of nodes in a status. Every view of the vector is characterized by it.
-/

namespace Kerrighed.Hotplug

open Kerrighed.Common

/-- `enum krg_status`. -/
inductive KrgStatus where
  | hotplugNodeInvalid
  | hotplugNodePossible
  | hotplugNodePresent
  | hotplugNodeOnline
  deriving DecidableEq, Repr

/-- The value of the enumerator. -/
def KrgStatus.value : KrgStatus → ℕ
  | .hotplugNodeInvalid => 0
  | .hotplugNodePossible => 1
  | .hotplugNodePresent => 2
  | .hotplugNodeOnline => 3

/-- The status of every node of a cluster of `kerrighed_max_nodes` nodes. -/
structure KrgNodes (maxNodes : ℕ) where
  nodes : Vector Int8 maxNodes
  deriving DecidableEq, Repr

variable {maxNodes : ℕ}

/-- The char at an index of the vector. -/
def KrgNodes.char (nodes : KrgNodes maxNodes) (i : ℕ) : Int8 := nodes.nodes[i]?.getD 0

/-- A char converted to `enum krg_status`, an unsigned int. -/
def toKrgStatus (c : Int8) : ℕ := (c.toInt % 4294967296).toNat

/-- The test `nodes->nodes[bcl] == s`. -/
def KrgNodes.has (nodes : KrgNodes maxNodes) (s : KrgStatus) (bcl : ℕ) : Bool :=
  toKrgStatus (nodes.char bcl) = s.value

/-- The test `nodes->nodes[bcl] > HOTPLUG_NODE_INVALID`. -/
def KrgNodes.usable (nodes : KrgNodes maxNodes) (bcl : ℕ) : Bool := 0 < (nodes.char bcl).toInt

/-- Count the nodes in a status. -/
def krgNodesNum (nodes : KrgNodes maxNodes) (s : KrgStatus) : ℤ :=
  (List.range maxNodes).countP (nodes.has s)

/-- The number of possible nodes. -/
def krgNodesNumPossible (nodes : KrgNodes maxNodes) : ℤ := krgNodesNum nodes .hotplugNodePossible

/-- The number of present nodes. -/
def krgNodesNumPresent (nodes : KrgNodes maxNodes) : ℤ := krgNodesNum nodes .hotplugNodePresent

/-- The number of online nodes. -/
def krgNodesNumOnline (nodes : KrgNodes maxNodes) : ℤ := krgNodesNum nodes .hotplugNodeOnline

/-- Test the status of a node in range, with -1 for any other number. -/
def krgNodesIs (nodes : KrgNodes maxNodes) (n : ℤ) (s : KrgStatus) : ℤ :=
  if 0 ≤ n ∧ n < maxNodes then if nodes.has s n.toNat then 1 else 0 else -1

/-- Test whether a node is possible. -/
def krgNodesIsPossible (nodes : KrgNodes maxNodes) (n : ℤ) : ℤ :=
  krgNodesIs nodes n .hotplugNodePossible

/-- Test whether a node is present. -/
def krgNodesIsPresent (nodes : KrgNodes maxNodes) (n : ℤ) : ℤ :=
  krgNodesIs nodes n .hotplugNodePresent

/-- Test whether a node is online. -/
def krgNodesIsOnline (nodes : KrgNodes maxNodes) (n : ℤ) : ℤ :=
  krgNodesIs nodes n .hotplugNodeOnline

/-- The next node in a status behind `node`, or `-1`. -/
def krgNodesNext (nodes : KrgNodes maxNodes) (node : ℤ) (s : KrgStatus) : ℤ :=
  nextIndex (nodes.has s) maxNodes node

/-- The next online node. -/
def krgNodesNextOnline (nodes : KrgNodes maxNodes) (node : ℤ) : ℤ :=
  krgNodesNext nodes node .hotplugNodeOnline

/-- The next possible node. -/
def krgNodesNextPossible (nodes : KrgNodes maxNodes) (node : ℤ) : ℤ :=
  krgNodesNext nodes node .hotplugNodePossible

/-- The next present node. -/
def krgNodesNextPresent (nodes : KrgNodes maxNodes) (node : ℤ) : ℤ :=
  krgNodesNext nodes node .hotplugNodePresent

/-- Collect the nodes in a status in a new node set, if there is memory for one. -/
def krgNodesGet (malloc : Option (KrgNodeSet maxNodes)) (nodes : KrgNodes maxNodes)
    (s : KrgStatus) : Option (KrgNodeSet maxNodes) :=
  (krgNodeSetCreate malloc).map (addWhere (nodes.has s))

/-- Collect the online nodes. -/
def krgNodesGetOnline (malloc : Option (KrgNodeSet maxNodes)) (nodes : KrgNodes maxNodes) :
    Option (KrgNodeSet maxNodes) := krgNodesGet malloc nodes .hotplugNodeOnline

/-- Collect the possible nodes. -/
def krgNodesGetPossible (malloc : Option (KrgNodeSet maxNodes)) (nodes : KrgNodes maxNodes) :
    Option (KrgNodeSet maxNodes) := krgNodesGet malloc nodes .hotplugNodePossible

/-- Collect the present nodes. -/
def krgNodesGetPresent (malloc : Option (KrgNodeSet maxNodes)) (nodes : KrgNodes maxNodes) :
    Option (KrgNodeSet maxNodes) := krgNodesGet malloc nodes .hotplugNodePresent

/-- The status of a node in range, with `HOTPLUG_NODE_INVALID` for any other number. -/
def krgNodesGetnode (nodes : KrgNodes maxNodes) (n : ℤ) : ℕ :=
  if 0 ≤ n ∧ n < maxNodes then toKrgStatus (nodes.char n.toNat)
  else KrgStatus.hotplugNodeInvalid.value

/-- The next node behind `node` that is not invalid, or `-1`. -/
def krgNodesNextnode (nodes : KrgNodes maxNodes) (node : ℤ) : ℤ :=
  nextIndex nodes.usable maxNodes node

/-- The set of nodes in a status. -/
def KrgNodes.withStatus (nodes : KrgNodes maxNodes) (s : KrgStatus) : Finset ℤ :=
  indexSet (nodes.has s) maxNodes

/-- Every entry of the vector is one of the four statuses. -/
def KrgNodes.Valid (nodes : KrgNodes maxNodes) : Prop :=
  ∀ i < maxNodes, ∃ s : KrgStatus, (nodes.char i).toInt = s.value

/-- The conversion of a char tells the statuses apart as the char itself does. -/
theorem toKrgStatus_eq_iff {c : Int8} {s : KrgStatus} :
    toKrgStatus c = s.value ↔ c.toInt = s.value := by
  have hlower := Int8.le_toInt c
  have hupper := Int8.toInt_lt c
  have hs : s.value ≤ 3 := by cases s <;> decide
  rw [toKrgStatus]
  omega

/-- The comparison in terms of the char. -/
theorem has_iff {nodes : KrgNodes maxNodes} {s : KrgStatus} {i : ℕ} :
    nodes.has s i = true ↔ (nodes.char i).toInt = s.value := by
  rw [KrgNodes.has, decide_eq_true_iff, toKrgStatus_eq_iff]

/-- A node is in a status exactly when its id is in range and its char is that status. -/
theorem mem_withStatus {nodes : KrgNodes maxNodes} {s : KrgStatus} {n : ℤ} :
    n ∈ nodes.withStatus s ↔
      (0 ≤ n ∧ n < maxNodes) ∧ (nodes.char n.toNat).toInt = s.value := by
  rw [KrgNodes.withStatus, mem_indexSet, has_iff]

/-- The count is the number of nodes in the status. -/
theorem nodesNum_eq (nodes : KrgNodes maxNodes) (s : KrgStatus) :
    krgNodesNum nodes s = (nodes.withStatus s).card :=
  congrArg Nat.cast (countP_range (nodes.has s) maxNodes)

/-- The count is the length of the walk over the nodes in the status. -/
theorem nodesNum_eq_length (nodes : KrgNodes maxNodes) (s : KrgStatus) :
    krgNodesNum nodes s = (passing (nodes.has s) maxNodes).length := by
  rw [nodesNum_eq, KrgNodes.withStatus, length_passing]

/-- The test answers 1 exactly for the nodes in the status. -/
theorem nodesIs_eq_one {nodes : KrgNodes maxNodes} {s : KrgStatus} {n : ℤ} :
    krgNodesIs nodes n s = 1 ↔ n ∈ nodes.withStatus s := by
  rw [krgNodesIs, KrgNodes.withStatus, mem_indexSet]
  split
  · rename_i hn
    simp [hn]
  · rename_i hn
    simp [hn]

/-- The test of a node in range tells whether it is in the status. -/
theorem nodesIs_of_range {nodes : KrgNodes maxNodes} {s : KrgStatus} {n : ℤ}
    (hn : 0 ≤ n ∧ n < maxNodes) :
    krgNodesIs nodes n s = if n ∈ nodes.withStatus s then 1 else 0 := by
  rw [krgNodesIs, if_pos hn, KrgNodes.withStatus]
  simp [hn]

/-- Reading the status finds it exactly at the nodes in range that are in it. -/
theorem getnode_eq {nodes : KrgNodes maxNodes} {s : KrgStatus} {n : ℤ} :
    ((0 ≤ n ∧ n < maxNodes) ∧ krgNodesGetnode nodes n = s.value) ↔ n ∈ nodes.withStatus s := by
  rw [mem_withStatus, and_congr_right_iff]
  intro hn
  rw [krgNodesGetnode, if_pos hn, toKrgStatus_eq_iff]

/-- The collected set holds exactly the nodes in the status. -/
theorem nodesGet_spec (item : KrgNodeSet maxNodes) (nodes : KrgNodes maxNodes) (s : KrgStatus) :
    ∃ r, krgNodesGet (some item) nodes s = some r ∧ r.members = nodes.withStatus s ∧ r.Flags := by
  refine ⟨_, rfl, ?_, flags_addWhere _ (flags_clear item)⟩
  rw [members_addWhere, members_clear, Finset.empty_union, KrgNodes.withStatus]

/-- A usable node is one that is possible, present or online. -/
theorem usable_iff {nodes : KrgNodes maxNodes} (hvalid : nodes.Valid) {i : ℕ} (hi : i < maxNodes) :
    nodes.usable i = true ↔
      nodes.has .hotplugNodePossible i = true ∨ nodes.has .hotplugNodePresent i = true ∨
        nodes.has .hotplugNodeOnline i = true := by
  obtain ⟨s, hs⟩ := hvalid i hi
  simp only [has_iff, KrgNodes.usable, hs]
  cases s <;> simp [KrgStatus.value]

/-- A node has one status. -/
theorem withStatus_disjoint (nodes : KrgNodes maxNodes) {s t : KrgStatus} (hst : s ≠ t) :
    Disjoint (nodes.withStatus s) (nodes.withStatus t) := by
  rw [Finset.disjoint_left]
  intro n hs ht
  have hvalue : (s.value : ℤ) = t.value := (mem_withStatus.mp hs).2.symm.trans (mem_withStatus.mp ht).2
  revert hvalue hst
  cases s <;> cases t <;> decide

/-- The usable nodes are the possible, the present and the online ones. -/
theorem usable_eq_union {nodes : KrgNodes maxNodes} (hvalid : nodes.Valid) :
    indexSet nodes.usable maxNodes =
      nodes.withStatus .hotplugNodePossible ∪ nodes.withStatus .hotplugNodePresent ∪
        nodes.withStatus .hotplugNodeOnline := by
  ext n
  simp only [Finset.mem_union, KrgNodes.withStatus, mem_indexSet]
  by_cases hn : 0 ≤ n ∧ n < maxNodes
  · rw [usable_iff hvalid (by omega)]
    tauto
  · tauto

/-- All views of a status vector tell of the same set of nodes, in every status: the test, the
status read back, the collected set and the walk, whose length the count and the weight agree
on. Over valid entries the walk over all usable nodes is the disjoint union of three walks. -/
theorem statusViews_agree (nodes : KrgNodes maxNodes) (item : KrgNodeSet maxNodes) :
    (∀ s : KrgStatus, ∃ r visited, krgNodesGet (some item) nodes s = some r ∧
      (∀ fuel, maxNodes < fuel → walk (krgNodesNext nodes · s) fuel = some visited) ∧
      visited.Pairwise (· < ·) ∧
      (∀ n, krgNodesIs nodes n s = 1 ↔
        (0 ≤ n ∧ n < maxNodes) ∧ krgNodesGetnode nodes n = s.value) ∧
      (∀ n, krgNodesIs nodes n s = 1 ↔ krgNodeSetContains r n = 1) ∧
      (∀ n, krgNodesIs nodes n s = 1 ↔ n ∈ visited) ∧
      krgNodesNum nodes s = krgNodeSetWeight r ∧
      krgNodesNum nodes s = (nodes.withStatus s).card ∧
      (∀ n, n ∈ nodes.withStatus s ↔ krgNodesIs nodes n s = 1)) ∧
    (nodes.Valid → ∃ visited,
      (∀ fuel, maxNodes < fuel → walk (krgNodesNextnode nodes) fuel = some visited) ∧
      visited.Pairwise (· < ·) ∧
      (∀ n, n ∈ visited ↔ n ∈ nodes.withStatus .hotplugNodePossible ∨
        n ∈ nodes.withStatus .hotplugNodePresent ∨ n ∈ nodes.withStatus .hotplugNodeOnline) ∧
      (visited.length : ℤ) = krgNodesNumPossible nodes + krgNodesNumPresent nodes +
        krgNodesNumOnline nodes ∧
      ∀ s t : KrgStatus, s ≠ t → Disjoint (nodes.withStatus s) (nodes.withStatus t)) := by
  constructor
  · intro s
    obtain ⟨r, hget, hmembers, hflags⟩ := nodesGet_spec item nodes s
    refine ⟨r, passing (nodes.has s) maxNodes, hget, fun fuel => walk_nextIndex _,
      passing_pairwise _ _, fun n => ?_, fun n => ?_, fun n => ?_, ?_, nodesNum_eq nodes s,
      fun n => nodesIs_eq_one.symm⟩
    · rw [nodesIs_eq_one, getnode_eq]
    · rw [nodesIs_eq_one, contains_eq hflags, hmembers]
      simp
    · rw [nodesIs_eq_one, mem_passing, KrgNodes.withStatus]
    · rw [nodesNum_eq, weight_eq, hmembers]
  · intro hvalid
    refine ⟨passing nodes.usable maxNodes, fun fuel => walk_nextIndex _, passing_pairwise _ _,
      fun n => ?_, ?_, fun s t hst => withStatus_disjoint nodes hst⟩
    · rw [mem_passing, usable_eq_union hvalid, Finset.mem_union, Finset.mem_union, or_assoc]
    · have hpossible := withStatus_disjoint nodes
        (show KrgStatus.hotplugNodePossible ≠ .hotplugNodePresent by decide)
      have honline := Finset.disjoint_union_left.mpr
        ⟨withStatus_disjoint nodes (show KrgStatus.hotplugNodePossible ≠ .hotplugNodeOnline by decide),
          withStatus_disjoint nodes (show KrgStatus.hotplugNodePresent ≠ .hotplugNodeOnline by decide)⟩
      rw [length_passing, usable_eq_union hvalid, Finset.card_union_of_disjoint honline,
        Finset.card_union_of_disjoint hpossible, krgNodesNumPossible, krgNodesNumPresent,
        krgNodesNumOnline, nodesNum_eq, nodesNum_eq, nodesNum_eq]
      push_cast
      rfl

end Kerrighed.Hotplug
