import Kerrighed.Krgcheckpoint.Children
import Mathlib.Logic.Function.Basic
import Mathlib.Logic.Relation

/-!
# Forks and the handler of SIGCHLD, step by step

A fork makes the parent read the pid of its child from a pipe and add it to the list of
children, while the handler of SIGCHLD removes pids from that list. Any thread of the parent
can fork and any thread can get the signal, at every point of what it does, so both are split
into the steps that touch what the threads share: `pipefd`, the pipes and the list.

`pipefd` is one global for all forks. It refers to the last pipe that could be created, which
may be closed by then; a read that fails, or that does not read from a pipe of the library,
leaves its uninitialized variable as it is. The handler is installed without `SA_RESTART`: a
read from an empty pipe fails when its own thread gets the signal.

SIGCHLD is not queued, so a child that terminates while one is pending sends no other. A pid
can be used again once its child has terminated.
-/

namespace Kerrighed.Krgcheckpoint

open Kerrighed.Common

variable {ι : Type} [DecidableEq ι]

/-- The last child with its pid: the pipe it will write its pid to, whether it has terminated,
whether `parent_after_fork` has finished for it, and whether a SIGCHLD with its pid has been
handled since it terminated. -/
structure ForkedChild where
  pid : ℤ
  out : Option ℕ
  terminated : Bool
  registered : Bool
  noticed : Bool
  deriving DecidableEq, Repr

/-- A pipe of the library: the ends that the parent has open, and what is still to be read. -/
structure Pipe where
  readOpen : Bool
  writeOpen : Bool
  content : List ℤ
  deriving DecidableEq, Repr

/-- Where a thread is: outside of a fork, behind `parent_before_fork`, behind the fork, in the
read, behind a read that was interrupted, before and between the two closes, and at the four
points of `add_child` where the list may have changed. The child is `none` if the fork has
failed, and the source of a read if it is no pipe of the library. -/
inductive ForkPhase where
  | outside
  | prepared
  | forked (child : Option ℤ)
  | reading (child : Option ℤ) (source : Option ℕ)
  | interrupted (child : Option ℤ)
  | read (child : Option ℤ) (value : ℤ)
  | closing (child : Option ℤ) (value : ℤ)
  | adding (child : Option ℤ) (value : ℤ)
  | allocated (child : Option ℤ) (value : ℤ) (cell : ℕ)
  | tested (child : Option ℤ) (value : ℤ) (cell : ℕ) (nonempty : Bool)
  | linked (child : Option ℤ) (value : ℤ) (cell : ℕ) (next : Option ℕ)
  deriving DecidableEq, Repr

/-- The child of the fork. -/
def ForkPhase.child : ForkPhase → Option ℤ
  | .outside | .prepared => none
  | .forked child | .reading child _ | .interrupted child | .read child _ | .closing child _
  | .adding child _ | .allocated child _ _ | .tested child _ _ _ | .linked child _ _ _ => child

/-- The value that the variable holds after the read. -/
def ForkPhase.value : ForkPhase → Option ℤ
  | .read _ value | .closing _ value | .adding _ value | .allocated _ value _
  | .tested _ value _ _ | .linked _ value _ _ => some value
  | _ => none

/-- The thread is between `pipe` and the last `close`. -/
def ForkPhase.usesPipe : ForkPhase → Bool
  | .prepared | .forked _ | .reading _ _ | .interrupted _ | .read _ _ | .closing _ _ => true
  | _ => false

/-- The thread has looked at `first_child` in `add_child` and will write it. -/
def ForkPhase.inList : ForkPhase → Bool
  | .tested _ _ _ _ | .linked _ _ _ _ => true
  | _ => false

/-- Where `remove_child` is: before the loop, at its condition, behind the test that found the pid,
and before `free`. -/
inductive RemovePlace where
  | start
  | loop (prev child : Option ℕ)
  | found (prev : Option ℕ) (child : ℕ)
  | freeing (child : ℕ)
  deriving DecidableEq, Repr

/-- A handler that runs: the pid its signal carries, whether the child with that pid had terminated
when the signal came, and its place in `remove_child`. -/
structure Sigchld where
  pid : ℤ
  dead : Bool
  place : RemovePlace
  deriving DecidableEq, Repr

/-- The parent with the places of its threads, its list, its pipes and the pid of its pending
SIGCHLD, the children it has forked, and what was handed to `add_child` for each of them. -/
structure Parent (ι : Type) where
  phases : ι → ForkPhase
  handlers : ι → Option Sigchld
  pipefd : Option ℕ
  pipes : ℕ → Pipe
  created : ℕ
  pending : Option ℤ
  code : Children
  children : List ForkedChild
  handed : List (Option ℤ × ℤ)

/-- No fork yet. -/
def Parent.start : Parent ι where
  phases := fun _ => .outside
  handlers := fun _ => none
  pipefd := none
  pipes := fun _ => ⟨false, false, []⟩
  created := 0
  pending := none
  code := .empty
  children := []
  handed := []

/-- A step of a thread in the handlers of `fork`. `fork` may fail, and so may `pipe` and `malloc`;
the value is what a read that fails leaves in the variable. -/
inductive ForkCall where
  | parentBeforeFork (pipe : Bool)
  | fork (pid : Option ℤ)
  | startRead
  | finishRead
  | failRead (value : ℤ)
  | closeRead
  | closeWrite
  | allocate (malloc : Option ℕ)
  | test
  | link
  | publish
  deriving DecidableEq, Repr

/-- A step of a thread, of a child, of the kernel or of the handler in a thread. A SIGCHLD may also
come for another reason than the end of a child, and a thread may get another signal. -/
inductive ForkEvent (ι : Type) where
  | call (t : ι) (c : ForkCall)
  | childAfterFork (pid : ℤ)
  | terminate (pid : ℤ)
  | sigchld (pid : ℤ)
  | otherSignal (t : ι)
  | beginHandler (t : ι)
  | handler (t : ι)
  deriving DecidableEq, Repr

/-- The child has terminated. -/
def ForkedChild.terminate (c : ForkedChild) : ForkedChild := { c with terminated := true }

/-- The child has written its pid. -/
def ForkedChild.write (c : ForkedChild) : ForkedChild := { c with out := none }

/-- `parent_after_fork` has finished for the child. -/
def ForkedChild.register (c : ForkedChild) : ForkedChild := { c with registered := true }

/-- A SIGCHLD with the pid of the child has been handled. -/
def ForkedChild.notice (c : ForkedChild) : ForkedChild :=
  { c with noticed := c.noticed || c.terminated }

/-- Change what is known about a child. -/
def setChild (pid : ℤ) (f : ForkedChild → ForkedChild) (children : List ForkedChild) :
    List ForkedChild :=
  children.map fun c => if c.pid = pid then f c else c

/-- The members of a list of children after a change to one of them. -/
theorem mem_setChild {pid : ℤ} {f : ForkedChild → ForkedChild} {children : List ForkedChild}
    {c' : ForkedChild} (h : c' ∈ setChild pid f children) :
    ∃ c ∈ children, c' = if c.pid = pid then f c else c := by
  obtain ⟨c, hc, rfl⟩ := List.mem_map.mp h
  exact ⟨c, hc, rfl⟩

/-- The child runs. -/
def Parent.alive (s : Parent ι) (pid : ℤ) : Bool :=
  s.children.any fun c => c.pid = pid ∧ c.terminated = false

/-- A thread goes on to another place. -/
def Parent.goTo (s : Parent ι) (t : ι) (phase : ForkPhase) : Parent ι :=
  { s with phases := Function.update s.phases t phase }

/-- The thread is at its new place. -/
@[simp] theorem Parent.phases_goTo_self (s : Parent ι) (t : ι) (phase : ForkPhase) :
    (s.goTo t phase).phases t = phase := Function.update_self ..

/-- The other threads stay where they are. -/
theorem Parent.phases_goTo_of_ne (s : Parent ι) {t u : ι} (hne : u ≠ t) (phase : ForkPhase) :
    (s.goTo t phase).phases u = s.phases u := Function.update_of_ne hne ..

/-- The handler of a thread goes on to another place, or returns. -/
def Parent.handlerTo (s : Parent ι) (t : ι) (h : Option Sigchld) : Parent ι :=
  { s with handlers := Function.update s.handlers t h }

/-- The library is at work on the list in the thread: in the handler, or behind the test of
`add_child`. -/
def Parent.touchesList (s : Parent ι) (t : ι) : Bool :=
  (s.handlers t).isSome || (s.phases t).inList

/-- `pipe` succeeds. -/
def Parent.openPipe (s : Parent ι) : Parent ι :=
  { s with
    pipefd := some s.created
    pipes := Function.update s.pipes s.created ⟨true, true, []⟩
    created := s.created + 1 }

/-- The pipe that a read from `pipefd[0]` reads from. -/
def Parent.source (s : Parent ι) : Option ℕ := s.pipefd.filter fun p => (s.pipes p).readOpen

/-- The pipe that a write to `pipefd[1]` writes to. -/
def Parent.sink (s : Parent ι) : Option ℕ := s.pipefd.filter fun p => (s.pipes p).writeOpen

/-- Change a pipe. -/
def Parent.setPipe (s : Parent ι) (p : ℕ) (pipe : Pipe) : Parent ι :=
  { s with pipes := Function.update s.pipes p pipe }

/-- A child with the pid is forked, with a copy of `pipefd`. -/
def Parent.addForked (s : Parent ι) (pid : ℤ) : Parent ι :=
  { s with children := ⟨pid, s.sink, false, false, false⟩ :: s.children.filter (·.pid ≠ pid) }

/-- `close(pipefd[0])`. -/
def Parent.closeRead (s : Parent ι) : Parent ι :=
  match s.pipefd with
  | none => s
  | some p => s.setPipe p { s.pipes p with readOpen := false }

/-- `close(pipefd[1])`. -/
def Parent.closeWrite (s : Parent ι) : Parent ι :=
  match s.pipefd with
  | none => s
  | some p => s.setPipe p { s.pipes p with writeOpen := false }

/-- Change what is known about the child of a fork, if there is one. -/
def Parent.setForked (s : Parent ι) (child : Option ℤ) (f : ForkedChild → ForkedChild) :
    Parent ι :=
  { s with children := child.elim s.children fun pid => setChild pid f s.children }

/-- `add_child` and `parent_after_fork` return. -/
def Parent.finishFork (s : Parent ι) (t : ι) (child : Option ℤ) : Parent ι :=
  (s.setForked child .register).goTo t .outside

/-- A read from a pipe that can end without a pid: there is nothing in it, and the parent has
closed its end to write. -/
def Pipe.atEnd (p : Pipe) : Bool := p.content.isEmpty && !p.writeOpen

/-- A step of a thread whose handler does not run. `malloc` only returns addresses that hold no live
cell, the pid of a new child belongs to no child that runs, and a parent that reads through a null
pointer does not go on. -/
def forkCall (s : Parent ι) (t : ι) : ForkCall → Option (Parent ι)
  | .parentBeforeFork pipe =>
    match s.phases t with
    | .outside => some ((if pipe then s.openPipe else s).goTo t .prepared)
    | _ => none
  | .fork none =>
    match s.phases t with
    | .prepared => some (s.goTo t (.forked none))
    | _ => none
  | .fork (some pid) =>
    match s.phases t with
    | .prepared => if s.alive pid then none else some ((s.addForked pid).goTo t (.forked (some pid)))
    | _ => none
  | .startRead =>
    match s.phases t with
    | .forked child => some (s.goTo t (.reading child s.source))
    | _ => none
  | .finishRead =>
    match s.phases t with
    | .reading child (some p) =>
      match (s.pipes p).content with
      | [] => none
      | value :: rest =>
        some ((s.setPipe p { s.pipes p with content := rest }).goTo t (.read child value))
    | _ => none
  | .failRead value =>
    match s.phases t with
    | .reading child none => some (s.goTo t (.read child value))
    | .reading child (some p) =>
      if (s.pipes p).atEnd then some (s.goTo t (.read child value)) else none
    | .interrupted child => some (s.goTo t (.read child value))
    | _ => none
  | .closeRead =>
    match s.phases t with
    | .read child value => some (s.closeRead.goTo t (.closing child value))
    | _ => none
  | .closeWrite =>
    match s.phases t with
    | .closing child value =>
      some ({ s.closeWrite with handed := s.handed ++ [(child, value)] }.goTo t (.adding child value))
    | _ => none
  | .allocate none =>
    match s.phases t with
    | .adding child _ => some (s.finishFork t child)
    | _ => none
  | .allocate (some cell) =>
    match s.phases t with
    | .adding child value =>
      if cell ∈ s.code.heap then none
      else some ({ s with
        code := ⟨s.code.firstChild, s.code.heap.insert cell ⟨value, none⟩⟩ }.goTo t
          (.allocated child value cell))
    | _ => none
  | .test =>
    match s.phases t with
    | .allocated child value cell =>
      some (s.goTo t (.tested child value cell s.code.firstChild.isSome))
    | _ => none
  | .link =>
    match s.phases t with
    | .tested child value cell true => do
      let first ← s.code.firstChild
      let head ← s.code.heap.lookup first
      some (s.goTo t (.linked child value cell head.next))
    | .tested child value cell false => some (s.goTo t (.linked child value cell none))
    | _ => none
  | .publish =>
    match s.phases t with
    | .linked child value cell next =>
      some ({ s with
        code := ⟨some cell, s.code.heap.insert cell ⟨value, next⟩⟩ }.finishFork t child)
    | _ => none

/-- A step of `remove_child`: the list and the next place, `none` when it returns. -/
def removeChildStep (pid : ℤ) (code : Children) : RemovePlace → Option (Children × Option RemovePlace)
  | .start => some (code, some (.loop none code.firstChild))
  | .loop _ none => some (code, none)
  | .loop prev (some child) => do
    let c ← code.heap.lookup child
    some (code, some (if c.pid = pid then .found prev child else .loop (some child) c.next))
  | .found none child => do
    let c ← code.heap.lookup child
    some (⟨c.next, code.heap⟩, some (.freeing child))
  | .found (some prev) child => do
    let c ← code.heap.lookup child
    let heap ← relink childLink code.heap prev c.next
    some (⟨code.firstChild, heap⟩, some (.freeing child))
  | .freeing child => some (⟨code.firstChild, code.heap.erase child⟩, none)

/-- A step of the handler in a thread. -/
def handlerStep (s : Parent ι) (t : ι) : Option (Parent ι) := do
  let h ← s.handlers t
  let (code, place) ← removeChildStep h.pid s.code h.place
  match place with
  | some place => some ({ s with code := code }.handlerTo t (some { h with place := place }))
  | none =>
    some (({ s with code := code }.setForked (if h.dead then some h.pid else none) .notice).handlerTo
      t none)

/-- A thread that gets a signal in the read: the read fails if there is nothing to read. -/
def Parent.interrupt (s : Parent ι) : ForkPhase → ForkPhase
  | .reading child none => .interrupted child
  | .reading child (some p) =>
    if (s.pipes p).content = [] then .interrupted child else .reading child (some p)
  | phase => phase

/-- The state after an event. -/
def forkStep (s : Parent ι) : ForkEvent ι → Option (Parent ι)
  | .call t c => if s.handlers t = none then forkCall s t c else none
  | .childAfterFork pid =>
    match s.children.find? fun c => c.pid = pid ∧ c.terminated = false with
    | none => none
    | some c =>
      match c.out with
      | none => none
      | some p =>
        some ((s.setPipe p { s.pipes p with content := (s.pipes p).content ++ [pid] }).setForked
          (some pid) .write)
  | .terminate pid =>
    if s.alive pid then
      some ({ s with pending := s.pending.or (some pid) }.setForked (some pid) .terminate)
    else none
  | .sigchld pid => some { s with pending := s.pending.or (some pid) }
  | .otherSignal t => some (s.goTo t (s.interrupt (s.phases t)))
  | .beginHandler t =>
    match s.pending, s.handlers t with
    | some pid, none =>
      let dead := s.children.any fun c => c.pid = pid ∧ c.terminated = true
      some (({ s with pending := none }.goTo t (s.interrupt (s.phases t))).handlerTo t
        (some ⟨pid, dead, .start⟩))
    | _, _ => none
  | .handler t => handlerStep s t

/-- The steps of `add_child`. -/
def addChildCalls : Option ℕ → List ForkCall
  | none => [.allocate none]
  | some cell => [.allocate (some cell), .test, .link, .publish]

/-- The state after calls of one thread. -/
def forkCalls (s : Parent ι) (t : ι) : List ForkCall → Option (Parent ι) :=
  run (forkCall · t) s

/-- With nothing between them, the steps of `add_child` do what the call does. -/
theorem forkCalls_addChild {s : Parent ι} {t : ι} {child : Option ℤ} {value : ℤ}
    (hphase : s.phases t = .adding child value)
    (hfirst : ∀ first ∈ s.code.firstChild, first ∈ s.code.heap) {malloc : Option ℕ}
    (hmalloc : ∀ cell ∈ malloc, cell ∉ s.code.heap) :
    (forkCalls s t (addChildCalls malloc)).map Parent.code = addChild 0 malloc value s.code := by
  have hcode (a : Parent ι) (child : Option ℤ) : (a.finishFork t child).code = a.code := rfl
  cases malloc with
  | none => simp [addChildCalls, forkCalls, run, forkCall, hphase, hcode, addChild]
  | some cell =>
    have hfresh := hmalloc cell rfl
    cases hhead : s.code.firstChild with
    | none =>
      simp [addChildCalls, forkCalls, run, forkCall, hphase, hfresh, hhead, hcode, addChild,
        Parent.goTo]
    | some first =>
      have hmem : first ∈ s.code.heap := hfirst first hhead
      have hne : first ≠ cell := fun heq => hfresh (heq ▸ hmem)
      obtain ⟨head, hlookup⟩ := AList.lookup_isSome.mpr hmem |> Option.isSome_iff_exists.mp
      simp [addChildCalls, forkCalls, run, forkCall, hphase, hfresh, hhead, hlookup, hcode,
        addChild, Parent.goTo, AList.lookup_insert_ne hne]

/-- A place of `remove_child` with the list, and the next one. -/
def RemoveNext (pid : ℤ) (x y : Children × Option RemovePlace) : Prop :=
  x.2.bind (removeChildStep pid x.1) = some y

/-- The place behind the loop. -/
def RemovePlace.located (prev : Option ℕ) : Option ℕ → RemovePlace
  | none => .loop prev none
  | some child => .found prev child

/-- The loop of `remove_child` ends where `locate` does. -/
theorem removeNext_locate {pid : ℤ} {code : Children} {n : ℕ} {prev child prev' child' : Option ℕ}
    (h : locate childLink (· == pid) code.heap n prev child = some (prev', child')) :
    Relation.ReflTransGen (RemoveNext pid) (code, some (.loop prev child))
      (code, some (.located prev' child')) := by
  induction n generalizing prev child with
  | zero => cases h
  | succ n ih =>
    cases child with
    | none =>
      cases h
      exact .refl
    | some cell =>
      obtain ⟨c, hc, h⟩ := Option.bind_eq_some_iff.mp h
      split at h
      · rename_i hfound
        cases h
        have hpid : c.pid = pid := by simpa [childLink] using hfound
        exact .single (by simp [RemoveNext, removeChildStep, hc, hpid, RemovePlace.located])
      · rename_i hother
        have hpid : c.pid ≠ pid := by simpa [childLink] using hother
        have hstep : RemoveNext pid (code, some (.loop prev (some cell)))
            (code, some (.loop (some cell) c.next)) := by
          simp [RemoveNext, removeChildStep, hc, hpid]
        exact .head hstep (ih h)

/-- With nothing between them, the steps of `remove_child` do what the call does. -/
theorem removeNext_removeChild {pid : ℤ} {code code' : Children}
    (h : removeChild pid code = some code') :
    Relation.ReflTransGen (RemoveNext pid) (code, some .start) (code', none) := by
  obtain ⟨⟨removed, first, heap⟩, hremove, hcode⟩ := Option.bind_eq_some_iff.mp h
  cases hcode
  obtain ⟨⟨prev, child⟩, hlocate, hremove⟩ := Option.bind_eq_some_iff.mp hremove
  have hstart : RemoveNext pid (code, some .start) (code, some (.loop none code.firstChild)) := rfl
  refine .head hstart ((removeNext_locate hlocate).trans ?_)
  cases child with
  | none =>
    have hend : RemoveNext pid (code, some (.located prev none)) (code, none) := rfl
    cases prev <;> cases hremove <;> exact .single hend
  | some cell =>
    have hfree (code : Children) : RemoveNext pid (code, some (.freeing cell))
        (⟨code.firstChild, code.heap.erase cell⟩, none) := rfl
    cases prev with
    | none =>
      obtain ⟨c, hc, hremove⟩ := Option.bind_eq_some_iff.mp hremove
      cases hremove
      have hunlink : RemoveNext pid (code, some (.located none (some cell)))
          (⟨c.next, code.heap⟩, some (.freeing cell)) := by
        simp [RemoveNext, removeChildStep, RemovePlace.located, hc]
      exact .head hunlink (.single (hfree _))
    | some before =>
      obtain ⟨c, hc, hremove⟩ := Option.bind_eq_some_iff.mp hremove
      obtain ⟨heap', hrelink, hremove⟩ := Option.bind_eq_some_iff.mp hremove
      cases hremove
      have hunlink : RemoveNext pid (code, some (.located (some before) (some cell)))
          (⟨code.firstChild, heap'⟩, some (.freeing cell)) := by
        have hlink : relink childLink code.heap before c.next = some heap' := hrelink
        simp [RemoveNext, removeChildStep, RemovePlace.located, hc, hlink]
      exact .head hunlink (.single (hfree _))

/-- What a call does, by the place of its thread. -/
inductive ForkMoves (s : Parent ι) (t : ι) : ForkCall → Parent ι → Prop
  | before (pipe : Bool) (hphase : s.phases t = .outside) :
      ForkMoves s t (.parentBeforeFork pipe) ((if pipe then s.openPipe else s).goTo t .prepared)
  | forkFailed (hphase : s.phases t = .prepared) :
      ForkMoves s t (.fork none) (s.goTo t (.forked none))
  | forked {pid : ℤ} (hphase : s.phases t = .prepared) (hfree : s.alive pid = false) :
      ForkMoves s t (.fork (some pid)) ((s.addForked pid).goTo t (.forked (some pid)))
  | startRead {child : Option ℤ} (hphase : s.phases t = .forked child) :
      ForkMoves s t .startRead (s.goTo t (.reading child s.source))
  | finishRead {child : Option ℤ} {p : ℕ} {value : ℤ} {rest : List ℤ}
      (hphase : s.phases t = .reading child (some p))
      (hcontent : (s.pipes p).content = value :: rest) :
      ForkMoves s t .finishRead
        ((s.setPipe p { s.pipes p with content := rest }).goTo t (.read child value))
  | failRead {child : Option ℤ} {value : ℤ}
      (hphase : (∃ source, s.phases t = .reading child source) ∨ s.phases t = .interrupted child) :
      ForkMoves s t (.failRead value) (s.goTo t (.read child value))
  | closeRead {child : Option ℤ} {value : ℤ} (hphase : s.phases t = .read child value) :
      ForkMoves s t .closeRead (s.closeRead.goTo t (.closing child value))
  | closeWrite {child : Option ℤ} {value : ℤ} (hphase : s.phases t = .closing child value) :
      ForkMoves s t .closeWrite
        ({ s.closeWrite with handed := s.handed ++ [(child, value)] }.goTo t (.adding child value))
  | noMemory {child : Option ℤ} {value : ℤ} (hphase : s.phases t = .adding child value) :
      ForkMoves s t (.allocate none) (s.finishFork t child)
  | allocate {child : Option ℤ} {value : ℤ} {cell : ℕ} (hphase : s.phases t = .adding child value)
      (hfresh : cell ∉ s.code.heap) :
      ForkMoves s t (.allocate (some cell))
        ({ s with code := ⟨s.code.firstChild, s.code.heap.insert cell ⟨value, none⟩⟩ }.goTo t
          (.allocated child value cell))
  | test {child : Option ℤ} {value : ℤ} {cell : ℕ} (hphase : s.phases t = .allocated child value cell) :
      ForkMoves s t .test (s.goTo t (.tested child value cell s.code.firstChild.isSome))
  | linkHead {child : Option ℤ} {value : ℤ} {cell first : ℕ} {head : ChildProcess}
      (hphase : s.phases t = .tested child value cell true)
      (hfirst : s.code.firstChild = some first) (hhead : s.code.heap.lookup first = some head) :
      ForkMoves s t .link (s.goTo t (.linked child value cell head.next))
  | linkNull {child : Option ℤ} {value : ℤ} {cell : ℕ}
      (hphase : s.phases t = .tested child value cell false) :
      ForkMoves s t .link (s.goTo t (.linked child value cell none))
  | publish {child : Option ℤ} {value : ℤ} {cell : ℕ} {next : Option ℕ}
      (hphase : s.phases t = .linked child value cell next) :
      ForkMoves s t .publish
        ({ s with code := ⟨some cell, s.code.heap.insert cell ⟨value, next⟩⟩ }.finishFork t child)

/-- Every call is of one of these kinds. -/
theorem forkMoves_of_call {s s' : Parent ι} {t : ι} {c : ForkCall} (h : forkCall s t c = some s') :
    ForkMoves s t c s' := by
  cases c with
  | parentBeforeFork pipe =>
    simp only [forkCall] at h
    split at h <;> cases h
    exact .before pipe ‹_›
  | fork pid =>
    cases pid with
    | none =>
      simp only [forkCall] at h
      split at h <;> cases h
      exact .forkFailed ‹_›
    | some pid =>
      simp only [forkCall] at h
      split at h
      · rename_i hphase
        split at h <;> cases h
        exact .forked hphase (eq_false_of_ne_true ‹_›)
      · cases h
  | startRead =>
    simp only [forkCall] at h
    split at h <;> cases h
    exact .startRead ‹_›
  | finishRead =>
    simp only [forkCall] at h
    split at h
    · rename_i hphase
      split at h <;> cases h
      exact .finishRead hphase ‹_›
    · cases h
  | failRead value =>
    simp only [forkCall] at h
    split at h
    · rename_i hphase
      cases h
      exact .failRead (Or.inl ⟨_, hphase⟩)
    · rename_i hphase
      split at h <;> cases h
      exact .failRead (Or.inl ⟨_, hphase⟩)
    · rename_i hphase
      cases h
      exact .failRead (Or.inr hphase)
    · cases h
  | closeRead =>
    simp only [forkCall] at h
    split at h <;> cases h
    exact .closeRead ‹_›
  | closeWrite =>
    simp only [forkCall] at h
    split at h <;> cases h
    exact .closeWrite ‹_›
  | allocate malloc =>
    cases malloc with
    | none =>
      simp only [forkCall] at h
      split at h <;> cases h
      exact .noMemory ‹_›
    | some cell =>
      simp only [forkCall] at h
      split at h
      · rename_i hphase
        split at h <;> cases h
        exact .allocate hphase ‹_›
      · cases h
  | test =>
    simp only [forkCall] at h
    split at h <;> cases h
    exact .test ‹_›
  | link =>
    simp only [forkCall] at h
    split at h
    · rename_i hphase
      obtain ⟨first, hfirst, h⟩ := Option.bind_eq_some_iff.mp h
      obtain ⟨head, hhead, h⟩ := Option.bind_eq_some_iff.mp h
      cases h
      exact .linkHead hphase hfirst hhead
    · cases h
      exact .linkNull ‹_›
    · cases h
  | publish =>
    simp only [forkCall] at h
    split at h <;> cases h
    exact .publish ‹_›

/-- What a step of the handler does. -/
theorem handlerStep_cases {s s' : Parent ι} {t : ι} (h : handlerStep s t = some s') :
    ∃ sig code place child, s.handlers t = some sig ∧
      removeChildStep sig.pid s.code sig.place = some (code, place) ∧
      (∀ pid ∈ child, pid = sig.pid ∧ place = none) ∧
      s' = ({ s with code := code }.setForked child .notice).handlerTo t
        (place.map fun p => { sig with place := p }) := by
  obtain ⟨sig, hsig, h⟩ := Option.bind_eq_some_iff.mp h
  obtain ⟨⟨code, place⟩, hstep, h⟩ := Option.bind_eq_some_iff.mp h
  cases place with
  | some place =>
    cases h
    exact ⟨sig, code, some place, none, hsig, hstep, by simp, rfl⟩
  | none =>
    cases h
    refine ⟨sig, code, none, if sig.dead then some sig.pid else none, hsig, hstep, ?_, rfl⟩
    intro pid hpid
    split at hpid
    · exact ⟨(Option.some.inj hpid).symm, rfl⟩
    · cases hpid

end Kerrighed.Krgcheckpoint
