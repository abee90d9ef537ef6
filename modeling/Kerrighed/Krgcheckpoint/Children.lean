import Kerrighed.Common.Chain
import Kerrighed.Common.Runs
import Mathlib.Data.Multiset.AddSub

/-!
# The list of child processes

The checkpoint library keeps the pids of the forked children in a singly linked list and
walks it to forward the checkpoint and restart signals. The functions below are those of
the library on an explicit heap, next to the multiset of pids the list stands for.

`add_child` links the new cell to the successor of the current head, not to the head, so
it drops the head. The list is exact in every state of a run exactly when no child is
ever added to a nonempty list.
-/

namespace Kerrighed.Krgcheckpoint

open Kerrighed.Common

/-- One cell of the list of children. -/
structure ChildProcess where
  pid : ℤ
  next : Option ℕ
  deriving DecidableEq, Repr

/-- The `next` field links the cells; the pid is what a cell holds. -/
def childLink : LinkField ℕ ChildProcess ℤ where
  next := ChildProcess.next
  setNext q c := { c with next := q }
  payload := ChildProcess.pid
  next_setNext _ _ := rfl
  payload_setNext _ _ := rfl

/-- `first_child` and the cells allocated for the list. -/
structure Children where
  firstChild : Option ℕ
  heap : Heap ℕ ChildProcess

/-- The list before the first fork. -/
def Children.empty : Children := ⟨none, ∅⟩

/-- The pids that a `while (child)` loop from `first_child` visits, in order. -/
def childPids (s : Children) : Option (List ℤ) := contents childLink s.heap s.firstChild

/-- Insert a pid, given the result of `cr_mm_exclusion_init` and the address `malloc` returns. -/
def addChild (initResult : ℤ) (malloc : Option ℕ) (pid : ℤ) (s : Children) : Option Children :=
  if initResult ≠ 0 then some s
  else
    match malloc with
    | none => some s
    | some child =>
      match s.firstChild with
      | some first => do
        let head ← s.heap.lookup first
        some ⟨some child, s.heap.insert child ⟨pid, head.next⟩⟩
      | none => some ⟨some child, s.heap.insert child ⟨pid, none⟩⟩

/-- Free all the cells and clear `first_child`. -/
def removeAllChildren (s : Children) : Option Children := do
  let heap ← freeAll childLink (walkSteps s.heap) s.heap s.firstChild
  some ⟨none, heap⟩

/-- Unlink and free the first cell that holds the pid, if there is one. -/
def removeChild (pid : ℤ) (s : Children) : Option Children := do
  let (_, first, heap) ← removeFirst childLink (· == pid) s.heap s.firstChild
  some ⟨first, heap⟩

/-- A call on the list; an insertion carries the address of its new cell. -/
inductive ChildOp where
  | add (child : ℕ) (pid : ℤ)
  | remove (pid : ℤ)
  | removeAll
  deriving DecidableEq, Repr

/-- The list together with the pids added since it was last cleared and not removed since. -/
structure ChildRun where
  code : Children
  added : Multiset ℤ

/-- No child yet. -/
def ChildRun.start : ChildRun := ⟨.empty, 0⟩

/-- The call, with initialization and allocation succeeding, on the list and on the multiset.
`malloc` only returns addresses that hold no live cell. -/
def childStep (r : ChildRun) : ChildOp → Option ChildRun
  | .add child pid =>
    if child ∈ r.code.heap then none
    else (addChild 0 (some child) pid r.code).map (⟨·, pid ::ₘ r.added⟩)
  | .remove pid => (removeChild pid r.code).map (⟨·, r.added.erase pid⟩)
  | .removeAll => (removeAllChildren r.code).map (⟨·, 0⟩)

/-- The loops over the list visit exactly the pids added and not removed. -/
def ChildrenExact (r : ChildRun) : Prop :=
  (childPids r.code).map Multiset.ofList = some r.added

instance : DecidablePred ChildrenExact := fun r =>
  inferInstanceAs (Decidable ((childPids r.code).map Multiset.ofList = some r.added))

/-- A child is only added while the list is empty. -/
def AddsToEmpty (r : ChildRun) : ChildOp → Prop
  | .add _ _ => r.code.firstChild = none
  | .remove _ => True
  | .removeAll => True

instance : ∀ r op, Decidable (AddsToEmpty r op)
  | r, .add _ _ => inferInstanceAs (Decidable (r.code.firstChild = none))
  | _, .remove _ => inferInstanceAs (Decidable True)
  | _, .removeAll => inferInstanceAs (Decidable True)

/-- Exactness in terms of the list in the heap. -/
theorem childrenExact_iff {r : ChildRun} :
    ChildrenExact r ↔ ∃ l, IsSeg childLink r.code.heap r.code.firstChild l none ∧
      (l.map Prod.snd : Multiset ℤ) = r.added := by
  simp only [ChildrenExact, childPids, Option.map_eq_some_iff, contents_eq_some]
  constructor
  · rintro ⟨_, ⟨l, hl, rfl⟩, hadded⟩
    exact ⟨l, hl, hadded⟩
  · rintro ⟨l, hl, hadded⟩
    exact ⟨_, ⟨l, hl, rfl⟩, hadded⟩

/-- A new cell without a successor is the whole list that starts at it. -/
theorem isSeg_insert (h : Heap ℕ ChildProcess) (child : ℕ) (pid : ℤ) :
    IsSeg childLink (h.insert child ⟨pid, none⟩) (some child) [(child, pid)] none :=
  ⟨rfl, ⟨pid, none⟩, AList.lookup_insert _, rfl, rfl⟩

/-- Adding to an empty list makes it the list of that one child. -/
theorem addChild_of_empty {s : Children} {l : List (ℕ × ℤ)}
    (hl : IsSeg childLink s.heap s.firstChild l none) (hempty : s.firstChild = none)
    (child : ℕ) (pid : ℤ) :
    l = [] ∧ ∃ t, addChild 0 (some child) pid s = some t ∧
      IsSeg childLink t.heap t.firstChild [(child, pid)] none := by
  rw [hempty] at hl
  refine ⟨hl.unique rfl, ⟨some child, s.heap.insert child ⟨pid, none⟩⟩, ?_, ?_⟩
  · simp [addChild, hempty]
  · exact isSeg_insert s.heap child pid

/-- Adding to a nonempty list puts the new child in the place of the head. -/
theorem addChild_of_cons {s : Children} {x : ℕ × ℤ} {l : List (ℕ × ℤ)}
    (hl : IsSeg childLink s.heap s.firstChild (x :: l) none)
    {child : ℕ} (hfresh : child ∉ s.heap) (pid : ℤ) :
    ∃ t, addChild 0 (some child) pid s = some t ∧
      IsSeg childLink t.heap t.firstChild ((child, pid) :: l) none := by
  obtain ⟨hfirst, c, hc, -, hrest⟩ := hl
  refine ⟨⟨some child, s.heap.insert child ⟨pid, c.next⟩⟩, ?_, ?_⟩
  · simp [addChild, hfirst, hc]
  · refine ⟨rfl, ⟨pid, c.next⟩, AList.lookup_insert _, rfl, hrest.frame fun y hy => ?_⟩
    exact AList.lookup_insert_ne fun heq => hfresh (heq ▸ hrest.mem_heap hy)

/-- Removing a pid removes one occurrence of it from the list and nothing else. -/
theorem removeChild_spec {s : Children} {l : List (ℕ × ℤ)}
    (hl : IsSeg childLink s.heap s.firstChild l none) (pid : ℤ) :
    ∃ t l', removeChild pid s = some t ∧ IsSeg childLink t.heap t.firstChild l' none ∧
      l'.map Prod.snd = (l.map Prod.snd).erase pid := by
  obtain ⟨first', h', heq, hseg, -⟩ := removeFirst_eq (· == pid) hl
  refine ⟨⟨first', h'⟩, _, by simp [removeChild, heq], hseg, ?_⟩
  rw [List.erase_eq_eraseP', List.eraseP_map]
  rfl

/-- Clearing a list that ends succeeds. -/
theorem removeAllChildren_spec {s : Children} {l : List (ℕ × ℤ)}
    (hl : IsSeg childLink s.heap s.firstChild l none) :
    ∃ t, removeAllChildren s = some t ∧ t.firstChild = none := by
  obtain ⟨h', hfree⟩ := freeAll_eq hl hl.length_lt
  exact ⟨⟨none, h'⟩, by simp [removeAllChildren, hfree], rfl⟩

/-- A call that does not add to a nonempty list keeps the list exact. -/
theorem childStep_exact {r t : ChildRun} {op : ChildOp} (hr : ChildrenExact r)
    (hcond : AddsToEmpty r op) (hstep : childStep r op = some t) : ChildrenExact t := by
  obtain ⟨l, hl, hadded⟩ := childrenExact_iff.mp hr
  rw [childrenExact_iff]
  cases op with
  | add child pid =>
    obtain ⟨rfl, t', hadd, hseg⟩ := addChild_of_empty hl hcond child pid
    simp only [childStep, hadd] at hstep
    split at hstep
    · contradiction
    · obtain rfl := Option.some.inj hstep
      exact ⟨_, hseg, by simp [← hadded]⟩
  | remove pid =>
    obtain ⟨t', l', hremove, hseg, hmap⟩ := removeChild_spec hl pid
    simp only [childStep, hremove] at hstep
    obtain rfl := Option.some.inj hstep
    exact ⟨l', hseg, by rw [hmap, ← hadded, Multiset.coe_erase]⟩
  | removeAll =>
    obtain ⟨t', hclear, hnone⟩ := removeAllChildren_spec hl
    simp only [childStep, hclear] at hstep
    obtain rfl := Option.some.inj hstep
    exact ⟨[], hnone, rfl⟩

/-- Adding to a nonempty list loses its head. -/
theorem childStep_not_exact {r t : ChildRun} {op : ChildOp} (hr : ChildrenExact r)
    (hcond : ¬ AddsToEmpty r op) (hstep : childStep r op = some t) : ¬ ChildrenExact t := by
  obtain ⟨l, hl, hadded⟩ := childrenExact_iff.mp hr
  cases op with
  | add child pid =>
    cases l with
    | nil => exact absurd hl hcond
    | cons x rest =>
      simp only [childStep] at hstep
      split at hstep
      · contradiction
      · rename_i hfresh
        obtain ⟨t', hadd, hseg⟩ := addChild_of_cons hl hfresh pid
        rw [hadd] at hstep
        obtain rfl := Option.some.inj hstep
        intro hexact
        obtain ⟨l', hl', hadded'⟩ := childrenExact_iff.mp hexact
        obtain rfl := hl'.unique hseg
        have hcard := congrArg Multiset.card hadded'
        simp [← hadded] at hcard
  | remove pid => exact absurd trivial hcond
  | removeAll => exact absurd trivial hcond

/-- The list of children is exact in every state of a run exactly when every child is added
to an empty list. -/
theorem childrenExact_throughout_iff (ops : List ChildOp) :
    Throughout childStep ChildrenExact .start ops ↔ Along childStep AddsToEmpty .start ops :=
  throughout_iff_along _ (fun _ h => h) (fun _ _ _ => childStep_exact)
    (fun _ _ _ => childStep_not_exact) (by decide) ops

/-- After two forks the list holds the second child only. -/
theorem second_child_drops_first :
    (run childStep .start [.add 1 100, .add 2 101]).map (fun r => (childPids r.code, r.added)) =
        some (some [101], {101, 100}) ∧
      ¬ Throughout childStep ChildrenExact .start [.add 1 100, .add 2 101] := by
  decide

end Kerrighed.Krgcheckpoint
