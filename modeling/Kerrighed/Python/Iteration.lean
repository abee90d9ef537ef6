import Kerrighed.Hotplug.Status
import Kerrighed.Python.NodeSet

/-!
# Iterating in Python

The objects of the classes `krg_nodes` and `krg_node_set` are their own iterators. A loop over an
object starts where the cursor of the object stands, and only the end of an iteration moves the
cursor back to the start.

A loop left early, and every loop around another one over the same object, leaves the cursor behind
the nodes it has seen, and the next loop does not see them.
-/

namespace Kerrighed.Python

open Kerrighed.Common Kerrighed.Hotplug

variable {maxNodes : ℕ}

/-- An object of the class `krg_nodes`, with the statuses of a cluster. -/
structure PyNodes (maxNodes : ℕ) where
  cur : ℤ
  c : KrgNodes maxNodes
  valid : c.Valid

namespace PyNodes

/-- The object as an iterator of its own. -/
def iter (s : PyNodes maxNodes) : PyNodes maxNodes := s

/-- The next node of an iteration. -/
def next (s : PyNodes maxNodes) : Except PyError ℤ × PyNodes maxNodes :=
  let cur := krgNodesNextnode s.c s.cur
  yieldCursor cur { s with cur := cur }

/-- A loop over the object that runs to its end: the nodes seen and the object after it. -/
def list (s : PyNodes maxNodes) : Option (List ℤ × PyNodes maxNodes) :=
  drain (fun s => (s.next.1.toOption, s.next.2)) (maxNodes + 1) s.iter

/-- The nodes whose status is not invalid. -/
def nodes (s : PyNodes maxNodes) : Finset ℤ :=
  indexSet (fun i => !s.c.has .hotplugNodeInvalid i) maxNodes

end PyNodes

namespace PyNodeSet

/-- The object as an iterator of its own. -/
def iter (s : PyNodeSet maxNodes) : PyNodeSet maxNodes := s

/-- A loop over the object that runs to its end: the nodes seen and the object after it. -/
def list (s : PyNodeSet maxNodes) : Option (List ℤ × PyNodeSet maxNodes) :=
  drain (fun s => (s.next.1.toOption, s.next.2)) (maxNodes + 1) s.iter

end PyNodeSet

/-- A use of a node set: a call of a method, or a loop that runs to its end, such as in a conversion
to text. A loop left early and nested loops are calls of `next`. -/
inductive SetUse (maxNodes : ℕ) where
  | call (method : Call maxNodes)
  | list
  deriving DecidableEq, Repr

/-- The object after a use. -/
def SetUse.apply (s : PyNodeSet maxNodes) : SetUse maxNodes → PyNodeSet maxNodes
  | .call method => method.apply s
  | .list => s.list.elim s Prod.snd

/-- A use of a `krg_nodes` object, which has no method that changes its statuses. -/
inductive NodesUse where
  | next
  | list
  deriving DecidableEq, Repr

/-- The object after a use. -/
def NodesUse.apply (s : PyNodes maxNodes) : NodesUse → PyNodes maxNodes
  | .next => s.next.2
  | .list => s.list.elim s Prod.snd

/-- A node set is scanned by its calls of `next`. -/
theorem scans_nodeSet :
    Scans (fun s : PyNodeSet maxNodes => (s.next.1.toOption, s.next.2)) PyNodeSet.cur
      (fun s => s.c.flag) maxNodes where
  result s := toOption_yieldCursor _ _
  cursor s := congrArg PyNodeSet.cur (snd_yieldCursor _ _)
  table s := by simp only [PyNodeSet.next, snd_yieldCursor]

/-- The statuses of a cluster are scanned by the calls of `next`. -/
theorem scans_nodes :
    Scans (fun s : PyNodes maxNodes => (s.next.1.toOption, s.next.2)) PyNodes.cur
      (fun s => s.c.usable) maxNodes where
  result s := toOption_yieldCursor _ _
  cursor s := congrArg PyNodes.cur (snd_yieldCursor _ _)
  table s := by simp only [PyNodes.next, snd_yieldCursor]

/-- The nodes that are not invalid are the usable ones. -/
theorem nodes_eq_usable (s : PyNodes maxNodes) : s.nodes = indexSet s.c.usable maxNodes := by
  ext n
  rw [PyNodes.nodes, mem_indexSet, mem_indexSet]
  refine and_congr_right fun hn => ?_
  obtain ⟨status, hstatus⟩ := s.valid n.toNat (by omega)
  have hinvalid : s.c.has .hotplugNodeInvalid n.toNat = true ↔
      (s.c.char n.toNat).toInt = KrgStatus.hotplugNodeInvalid.value := has_iff
  rw [Bool.not_eq_true', ← Bool.not_eq_true, hinvalid, KrgNodes.usable, hstatus, decide_eq_true_iff]
  cases status <;> decide

/-- A loop over a node set ends. It sees the members in order exactly when none lies at or before
the cursor. -/
theorem list_nodeSet_iff (s : PyNodeSet maxNodes) :
    ∃ seen t, s.list = some (seen, t) ∧ t.cur = -1 ∧
      (ListsInOrder seen s.members ↔ ∀ n ∈ s.members, s.cur < n) :=
  scans_nodeSet.drain_complete_iff s

/-- A loop over the statuses of a cluster ends. It sees the nodes in order exactly when none lies at
or before the cursor. -/
theorem list_nodes_iff (s : PyNodes maxNodes) :
    ∃ seen t, s.list = some (seen, t) ∧ t.cur = -1 ∧
      (ListsInOrder seen s.nodes ↔ ∀ n ∈ s.nodes, s.cur < n) := by
  rw [nodes_eq_usable]
  exact scans_nodes.drain_complete_iff s

/-- The cursor of an iteration is moved by iterating alone: to the node seen last, and to -1 by the
end of an iteration. -/
theorem cur_apply (s : PyNodeSet maxNodes) (use : SetUse maxNodes) :
    (use.apply s).cur =
      match use with
      | .call .next => s.next.1.toOption.getD (-1)
      | .call _ => s.cur
      | .list => -1 := by
  cases use with
  | list =>
    obtain ⟨seen, t, hlist, hend, -⟩ := list_nodeSet_iff s
    rw [SetUse.apply, hlist]
    exact hend
  | call method =>
    cases method with
    | next =>
      simp only [SetUse.apply, Call.apply, PyNodeSet.next, snd_yieldCursor, toOption_yieldCursor]
      rcases nextIndex_cases s.c.flag maxNodes s.cur with ⟨hnone, -⟩ | ⟨hmem, -⟩
      · rw [krgNodeSetNext, hnone]
        rfl
      · rw [krgNodeSetNext, if_pos (mem_indexSet.mp hmem).1.1]
        rfl
    | pop =>
      rcases pop_cases s with ⟨hpop, -⟩ | ⟨n, -, -, hpop⟩
      · simp only [SetUse.apply, Call.apply, hpop]
      · simp only [SetUse.apply, Call.apply, hpop]
        rfl
    | remove n =>
      simp only [SetUse.apply, Call.apply, PyNodeSet.remove]
      split <;> rfl
    | add n | discard n | clear => rfl

/-- After every history of uses, a loop over a node set or over the statuses of a cluster ends and
leaves the cursor at the start, and it sees exactly the nodes of the object, once each and in
increasing order, if and only if none of them lies at or before the cursor it starts from. -/
theorem iteration_complete_iff (s : PyNodeSet maxNodes) (uses : List (SetUse maxNodes))
    (statuses : PyNodes maxNodes) (statusUses : List NodesUse) :
    (∃ seen t, (uses.foldl SetUse.apply s).list = some (seen, t) ∧ t.cur = -1 ∧
      (ListsInOrder seen (uses.foldl SetUse.apply s).members ↔
        ∀ n ∈ (uses.foldl SetUse.apply s).members, (uses.foldl SetUse.apply s).cur < n)) ∧
    ∃ seen t, (statusUses.foldl NodesUse.apply statuses).list = some (seen, t) ∧ t.cur = -1 ∧
      (ListsInOrder seen (statusUses.foldl NodesUse.apply statuses).nodes ↔
        ∀ n ∈ (statusUses.foldl NodesUse.apply statuses).nodes,
          (statusUses.foldl NodesUse.apply statuses).cur < n) :=
  ⟨list_nodeSet_iff _, list_nodes_iff _⟩

/-- A set of which a loop has seen the first node and was left: the next loop misses this node. -/
theorem loop_after_break_incomplete :
    (([.call (.add 1), .call (.add 2), .call .next] : List (SetUse 8)).foldl SetUse.apply
        newSet).members = {1, 2} ∧
      ∀ seen t, (([.call (.add 1), .call (.add 2), .call .next] : List (SetUse 8)).foldl
          SetUse.apply newSet).list = some (seen, t) →
        seen = [2] ∧ ¬ ListsInOrder seen {1, 2} := by
  refine ⟨by decide, fun seen t h => ?_⟩
  have hseen : (([.call (.add 1), .call (.add 2), .call .next] : List (SetUse 8)).foldl
      SetUse.apply newSet).list.map Prod.fst = some [2] := by
    decide
  rw [h] at hseen
  obtain rfl : seen = [2] := Option.some.inj hseen
  refine ⟨rfl, fun hlists => ?_⟩
  have hmissed := (hlists.2 1).mpr (by decide)
  revert hmissed
  decide

end Kerrighed.Python
