import Kerrighed.Common.Iterators
import Kerrighed.Common.Runs
import Kerrighed.Hotplug.NodeSet

/-!
# Node sets in Python

The class `krg_node_set` wraps a node set of the library and offers the methods of a Python set. An
object has two cursors of its own: one for iterating over it, and one for `pop`.

The second cursor makes `pop` depend on the history of the object. A search for the next member
starts behind the member popped last, and neither `add` nor `clear` moves it back.
-/

namespace Kerrighed.Python

open Kerrighed.Common Kerrighed.Hotplug

variable {maxNodes : ℕ}

/-- An object of the class, with a node set made by the library. -/
structure PyNodeSet (maxNodes : ℕ) where
  cur : ℤ
  popCur : ℤ
  c : KrgNodeSet maxNodes
  flags : c.Flags

/-- The exceptions raised. -/
inductive PyError where
  | keyError
  | stopIteration
  deriving DecidableEq, Repr

/-- The end of a method `next` that has moved the cursor of its object. -/
def yieldCursor {σ : Type*} (cur : ℤ) (s : σ) : Except PyError ℤ × σ :=
  if cur ≥ 0 then (.ok cur, s) else (.error .stopIteration, s)

/-- A cursor that is a node is what the method returns. -/
theorem toOption_yieldCursor {σ : Type*} (cur : ℤ) (s : σ) :
    (yieldCursor cur s).1.toOption = if 0 ≤ cur then some cur else none := by
  unfold yieldCursor
  split <;> rfl

/-- The object keeps the moved cursor in any case. -/
@[simp]
theorem snd_yieldCursor {σ : Type*} (cur : ℤ) (s : σ) : (yieldCursor cur s).2 = s := by
  unfold yieldCursor
  split <;> rfl

namespace PyNodeSet

/-- A new object around a node set. -/
def init (c : KrgNodeSet maxNodes) (flags : c.Flags) : PyNodeSet maxNodes := ⟨-1, -1, c, flags⟩

/-- Add an id; the value compares the answer of the library with 1. -/
def add (s : PyNodeSet maxNodes) (n : ℤ) : Bool × PyNodeSet maxNodes :=
  ((krgNodeSetAdd s.c n).1 = 1,
    { s with c := (krgNodeSetAdd s.c n).2, flags := flags_add s.flags n })

/-- Discard an id; the value compares the answer of the library with 1. -/
def discard (s : PyNodeSet maxNodes) (n : ℤ) : Bool × PyNodeSet maxNodes :=
  ((krgNodeSetRemove s.c n).1 = 1,
    { s with c := (krgNodeSetRemove s.c n).2, flags := flags_remove s.flags n })

/-- Whether an id is in the set. -/
def contains (s : PyNodeSet maxNodes) (n : ℤ) : Bool := krgNodeSetContains s.c n = 1

/-- The next member of an iteration. -/
def next (s : PyNodeSet maxNodes) : Except PyError ℤ × PyNodeSet maxNodes :=
  let cur := krgNodeSetNext s.c s.cur
  yieldCursor cur { s with cur := cur }

/-- Discard an id that has to be in the set. -/
def remove (s : PyNodeSet maxNodes) (n : ℤ) : Except PyError Unit × PyNodeSet maxNodes :=
  if s.contains n then (.ok (), (s.discard n).2) else (.error .keyError, s)

/-- Remove a member and return it. -/
def pop (s : PyNodeSet maxNodes) : Except PyError ℤ × PyNodeSet maxNodes :=
  let popCur := krgNodeSetNext s.c s.popCur
  if popCur ≥ 0 then (.ok popCur, (discard { s with popCur := popCur } popCur).2)
  else (.error .keyError, { s with popCur := popCur })

/-- Remove all members. -/
def clear (s : PyNodeSet maxNodes) : PyNodeSet maxNodes :=
  { s with c := krgNodeSetClear s.c, flags := flags_clear s.c }

/-- The ids in the set. -/
def members (s : PyNodeSet maxNodes) : Finset ℤ := s.c.members

end PyNodeSet

/-- A call of a method, with an id in range. -/
inductive Call (maxNodes : ℕ) where
  | add (n : Fin maxNodes)
  | discard (n : Fin maxNodes)
  | remove (n : Fin maxNodes)
  | clear
  | pop
  | next
  deriving DecidableEq, Repr

/-- The object after a call. -/
def Call.apply (s : PyNodeSet maxNodes) : Call maxNodes → PyNodeSet maxNodes
  | .add n => (s.add n).2
  | .discard n => (s.discard n).2
  | .remove n => (s.remove n).2
  | .clear => s.clear
  | .pop => s.pop.2
  | .next => s.next.2

/-- A call as a step of a run. -/
def callStep (s : PyNodeSet maxNodes) (call : Call maxNodes) : Option (PyNodeSet maxNodes) :=
  some (call.apply s)

/-- A call of `pop` returns a member of a nonempty set and removes exactly it, and it raises
`KeyError` if and only if the set is empty. -/
def PopsMember (s : PyNodeSet maxNodes) : Prop :=
  (s.members.Nonempty → ∃ n ∈ s.members, s.pop.1 = .ok n ∧ s.pop.2.members = s.members.erase n) ∧
    (s.pop.1 = .error .keyError ↔ s.members = ∅)

/-- The set is empty or has a member behind the cursor of `pop`. -/
def PopReaches (s : PyNodeSet maxNodes) : Prop := s.members = ∅ ∨ ∃ n ∈ s.members, s.popCur < n

/-- Discarding an id erases it. -/
@[simp]
theorem members_discard (s : PyNodeSet maxNodes) (n : ℤ) :
    (s.discard n).2.members = s.members.erase n := members_remove s.c n

/-- A call of `pop` finds the first member behind its cursor, or there is none. -/
theorem pop_cases (s : PyNodeSet maxNodes) :
    (s.pop = (.error .keyError, { s with popCur := -1 }) ∧ ∀ n ∈ s.members, ¬ s.popCur < n) ∨
      ∃ n ∈ s.members, s.popCur < n ∧
        s.pop = (.ok n, (PyNodeSet.discard { s with popCur := n } n).2) := by
  have hcases : (krgNodeSetNext s.c s.popCur = -1 ∧ ∀ n ∈ s.members, ¬ s.popCur < n) ∨
      (krgNodeSetNext s.c s.popCur ∈ s.members ∧ s.popCur < krgNodeSetNext s.c s.popCur) :=
    nextIndex_cases s.c.flag maxNodes s.popCur
  simp only [PyNodeSet.pop]
  rcases hcases with ⟨hnone, hbehind⟩ | ⟨hmem, hbehind⟩
  · left
    rw [hnone]
    exact ⟨rfl, hbehind⟩
  · right
    have hpos : krgNodeSetNext s.c s.popCur ≥ 0 := (mem_members.mp hmem).1.1
    rw [if_pos hpos]
    exact ⟨_, hmem, hbehind, rfl⟩

/-- The cursor of `pop` is moved by `pop` alone: to the id popped, and to -1 by an error. -/
theorem popCur_apply (s : PyNodeSet maxNodes) (call : Call maxNodes) :
    (call.apply s).popCur = if call = .pop then s.pop.1.toOption.getD (-1) else s.popCur := by
  cases call with
  | pop =>
    rw [if_pos rfl, Call.apply]
    rcases pop_cases s with ⟨hpop, -⟩ | ⟨n, -, -, hpop⟩
    · rw [hpop]
      rfl
    · rw [hpop]
      rfl
  | next => simp [Call.apply, PyNodeSet.next]
  | remove n =>
    simp only [Call.apply, PyNodeSet.remove]
    split <;> rfl
  | add n | discard n | clear => rfl

/-- A call of `pop` is right exactly when the set is empty or has a member behind the cursor. -/
theorem popsMember_iff (s : PyNodeSet maxNodes) : PopsMember s ↔ PopReaches s := by
  unfold PopsMember PopReaches
  rcases pop_cases s with ⟨hpop, hbehind⟩ | ⟨n, hn, hbehind, hpop⟩
  · have hnone : ¬ ∃ n ∈ s.members, s.popCur < n := fun ⟨n, hn, hlt⟩ => hbehind n hn hlt
    rw [or_iff_left hnone, hpop]
    constructor
    · intro h
      exact h.2.mp rfl
    · intro hempty
      refine ⟨fun hmembers => ?_, iff_of_true rfl hempty⟩
      exact absurd hempty (Finset.nonempty_iff_ne_empty.mp hmembers)
  · have hne : s.members ≠ ∅ := Finset.ne_empty_of_mem hn
    refine iff_of_true ⟨fun _ => ⟨n, hn, ?_, ?_⟩, ?_⟩ (.inr ⟨n, hn, hbehind⟩)
    · rw [hpop]
    · rw [hpop]
      exact members_discard _ n
    · rw [hpop]
      exact iff_of_false (by simp) hne

/-- In a run of calls every `pop` is right exactly when each of them is made on an empty set or
reaches a member. -/
theorem pops_right_iff (s : PyNodeSet maxNodes) (calls : List (Call maxNodes)) :
    Along callStep (fun s call => call = .pop → PopsMember s) s calls ↔
      Along callStep (fun s call => call = .pop → PopReaches s) s calls := by
  simp only [popsMember_iff]

/-- A new object around an empty set for eight nodes. -/
def newSet : PyNodeSet 8 := .init (krgNodeSetClear ⟨0, Vector.replicate 8 0⟩) (flags_clear _)

/-- Of a set into which 3 is added after 5 was popped, the next `pop` raises an error. -/
theorem pop_misses_smaller_member :
    (([.add 5, .pop, .add 3] : List (Call 8)).foldl Call.apply newSet).members = {3} ∧
      (([.add 5, .pop, .add 3] : List (Call 8)).foldl Call.apply newSet).pop.1 =
        .error .keyError ∧
      ¬ Along callStep (fun s call => call = .pop → PopsMember s) newSet
        [.add 5, .pop, .add 3, .pop] := by
  have hmembers : (([.add 5, .pop, .add 3] : List (Call 8)).foldl Call.apply newSet).members = {3} := by
    decide
  have herror : (([.add 5, .pop, .add 3] : List (Call 8)).foldl Call.apply newSet).pop.1 =
      .error .keyError := by
    decide
  refine ⟨hmembers, herror, fun h => ?_⟩
  have hlast : PopsMember (([.add 5, .pop, .add 3] : List (Call 8)).foldl Call.apply newSet) :=
    h.2.2.2.1 rfl
  have hempty := hlast.2.mp herror
  rw [hmembers] at hempty
  exact Finset.singleton_ne_empty 3 hempty

end Kerrighed.Python
