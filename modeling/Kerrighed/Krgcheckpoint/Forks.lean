import Kerrighed.Krgcheckpoint.ForkList
import Kerrighed.Krgcheckpoint.ForkPipes
import Mathlib.Data.Fintype.Basic

/-!
# Forks and the death of children

A child whose death is handled before its parent has read its pid is added all the same, and a
read that is interrupted makes the parent add whatever its uninitialized variable holds. Two
forks at once share `pipefd`, and two threads at work on the list do not wait for one another.

Where none of this happens, every pid handed to `add_child` is that of the child just forked, and
the list holds at most one pid, which is that of a child whose death has not been handled yet.
-/

namespace Kerrighed.Krgcheckpoint

open Kerrighed.Common

variable {ι : Type}

/-- Every pid handed to `add_child` is that of the child just forked, and no child that has been
registered and whose death has been handled is in the list. -/
def NoStaleChild (s : Parent ι) : Prop :=
  (∀ h ∈ s.handed, h.1 = some h.2) ∧
    ∃ pids ∈ childPids s.code, ∀ c ∈ s.children, c.registered → c.noticed → c.pid ∉ pids

instance NoStaleChild.decidable : DecidablePred (NoStaleChild (ι := ι)) := fun s =>
  inferInstanceAs (Decidable ((∀ h ∈ s.handed, h.1 = some h.2) ∧
    ∃ pids ∈ childPids s.code, ∀ c ∈ s.children, c.registered → c.noticed → c.pid ∉ pids))

/-- No other thread is at work on the list. -/
def Parent.Alone (s : Parent ι) (t : ι) : Prop := ∀ u, u ≠ t → s.touchesList u = false

/-- What a call has to meet: a fork begins while no other uses the pipe, a read that does not
return a pid from the pipe finds that of the child in the uninitialized variable, `add_child`
begins on the list while no other thread is at work on it, and a child whose death has been
handled is not added. -/
def CallInTime (s : Parent ι) (t : ι) : ForkCall → Prop
  | .parentBeforeFork _ => ∀ u, (s.phases u).usesPipe = false
  | .failRead value => (s.phases t).child = some value
  | .test => s.Alone t
  | .publish => ∀ c ∈ s.children, some c.pid = (s.phases t).child → c.noticed = false
  | _ => True

/-- The calls meet their conditions, and a handler begins while no other thread is at work on the
list. -/
def RegistersInTime (s : Parent ι) : ForkEvent ι → Prop
  | .call t c => CallInTime s t c
  | .beginHandler t => s.Alone t
  | _ => True

instance CallInTime.decidable [DecidableEq ι] [Fintype ι] (s : Parent ι) (t : ι) :
    ∀ c, Decidable (CallInTime s t c)
  | .parentBeforeFork _ => inferInstanceAs (Decidable (∀ u, (s.phases u).usesPipe = false))
  | .failRead value => inferInstanceAs (Decidable ((s.phases t).child = some value))
  | .test => inferInstanceAs (Decidable (∀ u, u ≠ t → s.touchesList u = false))
  | .publish => inferInstanceAs (Decidable (∀ c ∈ s.children,
      some c.pid = (s.phases t).child → c.noticed = false))
  | .fork _ | .startRead | .finishRead | .closeRead | .closeWrite | .allocate _ | .link =>
    inferInstanceAs (Decidable True)

instance RegistersInTime.decidable [DecidableEq ι] [Fintype ι] (s : Parent ι) :
    ∀ e, Decidable (RegistersInTime s e)
  | .call t c => inferInstanceAs (Decidable (CallInTime s t c))
  | .beginHandler t => inferInstanceAs (Decidable (∀ u, u ≠ t → s.touchesList u = false))
  | .childAfterFork _ | .terminate _ | .sigchld _ | .otherSignal _ | .handler _ =>
    inferInstanceAs (Decidable True)

/-- The value that was read is the pid of the child, and the new cell has no successor. -/
structure PlaceOk (phase : ForkPhase) : Prop where
  value : ∀ v ∈ phase.value, phase.child = some v
  next : ∀ child v cell next, phase = .linked child v cell next → next = none

/-- What holds in every state of a run whose children are registered in time. -/
structure ForkInv (s : Parent ι) : Prop where
  handed : ∀ h ∈ s.handed, h.1 = some h.2
  places : ∀ t, PlaceOk (s.phases t)
  pipe : PipeInv s
  list : ∃ l, ListInv s l

/-- The invariant gives the property. -/
theorem ForkInv.noStaleChild {s : Parent ι} (hs : ForkInv s) : NoStaleChild s := by
  obtain ⟨l, hl⟩ := hs.list
  exact ⟨hs.handed, _, contents_eq_some.mpr ⟨l, hl.seg, rfl⟩, fun c hc _ => hl.noticed c hc⟩

/-- A thread that gets a signal in a read uses the pipe as before, and has read nothing. -/
theorem interrupt_frame (s : Parent ι) (phase : ForkPhase) :
    (s.interrupt phase).usesPipe = phase.usesPipe ∧ (s.interrupt phase).inList = phase.inList ∧
      (PipeOk s phase → PipeOk s (s.interrupt phase)) ∧
      (PlaceOk phase → PlaceOk (s.interrupt phase)) := by
  have hplace (child : Option ℤ) : PlaceOk (.interrupted child) := ⟨by simp [ForkPhase.value], by simp⟩
  cases phase with
  | reading child source =>
    cases source with
    | none => exact ⟨rfl, rfl, fun _ => trivial, fun _ => hplace child⟩
    | some p =>
      simp only [Parent.interrupt]
      split
      · exact ⟨rfl, rfl, fun _ => trivial, fun _ => hplace child⟩
      · exact ⟨rfl, rfl, fun h => h, fun h => h⟩
  | _ => exact ⟨rfl, rfl, fun h => h, fun h => h⟩

/-- Another pending signal keeps the invariant. -/
theorem ForkInv.setPending {s : Parent ι} (hs : ForkInv s) (pending : Option ℤ) :
    ForkInv { s with pending := pending } := by
  obtain ⟨l, hl⟩ := hs.list
  exact ⟨hs.handed, hs.places,
    hs.pipe.frame rfl (fun _ _ h => h) hs.pipe.known hs.pipe.fresh (fun _ => rfl) fun _ h => h,
    l, hl.frame rfl (fun c hc h => ⟨c, hc, h, rfl⟩) rfl fun _ h => h⟩

/-- The end of a child keeps the invariant. -/
theorem ForkInv.terminate {s : Parent ι} (hs : ForkInv s) (pid : ℤ) :
    ForkInv (s.setForked (some pid) .terminate) := by
  obtain ⟨l, hl⟩ := hs.list
  exact ⟨hs.handed, hs.places, hs.pipe.setForked (some pid) fun _ => ⟨rfl, rfl⟩, l,
    hl.setForked (some pid) fun _ => ⟨rfl, rfl⟩⟩

/-- A child that writes its pid keeps the invariant. -/
theorem ForkInv.write {s : Parent ι} {c : ForkedChild} {p : ℕ} (hs : ForkInv s)
    (hc : c ∈ s.children) (hout : c.out = some p) :
    ForkInv ((s.setPipe p { s.pipes p with content := (s.pipes p).content ++ [c.pid] }).setForked
      (some c.pid) .write) := by
  obtain ⟨l, hl⟩ := hs.list
  have hold {c' : ForkedChild} (hc' : c' ∈ setChild c.pid ForkedChild.write s.children) {q : ℕ}
      (hq : c'.out = some q) : ∃ c₀ ∈ s.children, c₀.out = some q ∧ c₀.pid = c'.pid := by
    obtain ⟨c₀, hc₀, rfl⟩ := mem_setChild hc'
    refine ⟨c₀, hc₀, ?_⟩
    split at hq
    · cases hq
    · rename_i hpid
      rw [if_neg hpid]
      exact ⟨hq, rfl⟩
  refine ⟨hs.handed, hs.places, ?_, l, ?_⟩
  · refine hs.pipe.frame ?_ (fun child q hfrom => ⟨fun v hv => ?_, fun c' hc' hq => ?_⟩) hs.pipe.known
      (fun c' hc' q hq => ?_) (fun _ => rfl) fun _ hok => hok
    · simp only [Parent.source, Parent.setForked, Parent.setPipe, Function.update_apply]
      congr 1
      funext q
      split
      · rename_i hq
        rw [hq]
      · rfl
    · by_cases hq : q = p
      · subst hq
        simp only [Parent.setForked, Parent.setPipe, Function.update_self, List.mem_append,
          List.mem_singleton] at hv
        rcases hv with hv | rfl
        · exact hfrom.1 v hv
        · exact hfrom.2 c hc hout
      · simp only [Parent.setForked, Parent.setPipe, Function.update_of_ne hq] at hv
        exact hfrom.1 v hv
    · obtain ⟨c₀, hc₀, hsame, hpid⟩ := hold hc' hq
      exact hpid ▸ hfrom.2 c₀ hc₀ hsame
    · obtain ⟨c₀, hc₀, hsame, -⟩ := hold hc' hq
      exact hs.pipe.fresh c₀ hc₀ q hsame
  · have hpipe : ListInv (s.setPipe p
        { s.pipes p with content := (s.pipes p).content ++ [c.pid] }) l :=
      hl.frame rfl (fun c hc h => ⟨c, hc, h, rfl⟩) rfl fun _ h => h
    exact hpipe.setForked (some c.pid) fun _ => ⟨rfl, rfl⟩

/-- Before the first fork the invariant holds. -/
theorem forkInv_start : ForkInv (.start : Parent ι) where
  handed := by simp [Parent.start]
  places t := ⟨by simp [Parent.start, ForkPhase.value], by simp [Parent.start]⟩
  pipe := ⟨by simp [Parent.start, ForkPhase.usesPipe], by simp [Parent.start],
    by simp [Parent.start], fun _ => rfl, fun _ => trivial⟩
  list := ⟨[], rfl, Nat.zero_le _, by simp [Parent.start],
    by simp [Parent.start, Parent.touchesList, ForkPhase.inList], by simp [Parent.start]⟩

/-- A thread that is alone may begin its work on the list. -/
theorem users_of_alone {s s' : Parent ι} {t : ι} (halone : s.Alone t)
    (hsame : ∀ u, u ≠ t → s'.touchesList u = s.touchesList u) :
    {u | s'.touchesList u = true}.Subsingleton := by
  refine Set.subsingleton_of_subset_singleton (a := t) fun u hu => ?_
  by_contra hne
  have hbusy : s'.touchesList u = true := hu
  rw [hsame u hne, halone u hne] at hbusy
  cases hbusy

variable [DecidableEq ι]

/-- A call that meets its condition keeps the invariant of the list. -/
theorem ListInv.call {s s' : Parent ι} {t : ι} {c : ForkCall} {l : List (ℕ × ℤ)}
    (hs : ListInv s l) (hplace : PlaceOk (s.phases t)) (hidle : s.handlers t = none)
    (hcond : CallInTime s t c) (hm : ForkMoves s t c s') : ∃ l', ListInv s' l' := by
  have hsame : ∀ c ∈ s.children, c.noticed = true →
      ∃ c₀ ∈ s.children, c₀.noticed = true ∧ c₀.pid = c.pid := fun c hc h => ⟨c, hc, h, rfl⟩
  cases hm with
  | before pipe hphase =>
    cases pipe with
    | false => exact ⟨l, hs.leave t rfl⟩
    | true =>
      have hopen : ListInv s.openPipe l := hs.frame rfl hsame rfl fun _ h => h
      exact ⟨l, hopen.leave t rfl⟩
  | @forked pid hphase hfree =>
    have hadd : ListInv (s.addForked pid) l := hs.frame rfl (fun c hc hnotice => by
      rcases List.mem_cons.mp hc with rfl | hold
      · cases hnotice
      · exact hsame c (List.mem_of_mem_filter hold) hnotice) rfl fun _ h => h
    exact ⟨l, hadd.leave t rfl⟩
  | forkFailed | startRead | failRead => exact ⟨l, hs.leave t rfl⟩
  | @finishRead child p value rest hphase hcontent =>
    have hread : ListInv (s.setPipe p { s.pipes p with content := rest }) l :=
      hs.frame rfl hsame rfl fun _ h => h
    exact ⟨l, hread.leave t rfl⟩
  | closeRead =>
    obtain ⟨pipes, hclose⟩ := closeRead_eq s
    have hclosed : ListInv s.closeRead l := by
      rw [hclose]
      exact hs.frame rfl hsame rfl fun _ h => h
    exact ⟨l, hclosed.leave t rfl⟩
  | @closeWrite child value hphase =>
    obtain ⟨pipes, hclose⟩ := closeWrite_eq s
    have hclosed : ListInv { s.closeWrite with handed := s.handed ++ [(child, value)] } l := by
      rw [hclose]
      exact hs.frame rfl hsame rfl fun _ h => h
    exact ⟨l, hclosed.leave t rfl⟩
  | noMemory => exact ⟨l, hs.finishFork t _⟩
  | allocate hphase hfresh => exact ⟨l, (hs.allocate hfresh _).leave t rfl⟩
  | @test child value cell hphase =>
    refine ⟨l, hs.seg, hs.short, hs.noticed, users_of_alone hcond fun u hne => ?_, hs.handlers⟩
    simp only [Parent.touchesList, s.phases_goTo_of_ne hne]
    rfl
  | linkHead hphase | linkNull hphase =>
    exact ⟨l, hs.goOn (by simp [hphase, ForkPhase.inList]) _⟩
  | @publish child value cell next hphase =>
    obtain rfl := hplace.next child value cell next hphase
    have hchild : (s.phases t).child = some value := hplace.value value (by rw [hphase]; rfl)
    have halive : ∀ c ∈ s.children, c.pid = value → c.noticed = false := fun c hc hpid =>
      hcond c hc (by rw [hpid, hchild])
    exact ⟨_, (hs.publish hidle (by simp [hphase, ForkPhase.inList]) cell halive).finishFork t child⟩

/-- What a call that meets its condition reads and links is right. -/
theorem placeOk_call {s s' : Parent ι} {t : ι} {c : ForkCall} (hs : ForkInv s)
    (hcond : CallInTime s t c) (hm : ForkMoves s t c s') : ∀ u, PlaceOk (s'.phases u) := by
  have hgo {s₀ : Parent ι} (hsame : s₀.phases = s.phases) {phase : ForkPhase} (hphase : PlaceOk phase)
      (u : ι) : PlaceOk ((s₀.goTo t phase).phases u) := by
    by_cases hu : u = t
    · rwa [hu, s₀.phases_goTo_self]
    · rw [s₀.phases_goTo_of_ne hu, hsame]
      exact hs.places u
  have hnone {phase : ForkPhase} (hvalue : phase.value = none) : PlaceOk phase := by
    refine ⟨by simp [hvalue], fun child v cell next hphase => ?_⟩
    rw [hphase] at hvalue
    cases hvalue
  have hplace := hs.places t
  have hkeep {old phase : ForkPhase} (hold : s.phases t = old) (hvalue : phase.value = old.value)
      (hchild : phase.child = old.child)
      (hnext : ∀ child v cell next, phase = .linked child v cell next → next = none) :
      PlaceOk phase := by
    rw [hold] at hplace
    exact ⟨fun v hv => hchild.trans (hplace.value v (hvalue ▸ hv)), hnext⟩
  cases hm with
  | before pipe => cases pipe <;> exact hgo rfl (hnone rfl)
  | forkFailed | forked | startRead => exact hgo rfl (hnone rfl)
  | @finishRead child p value rest hphase hcontent =>
    have hok := hs.pipe.ok t
    rw [hphase] at hok
    have hchild : child = some value := (hok p rfl).1 value (by simp [hcontent])
    exact hgo rfl ⟨by simp [ForkPhase.value, ForkPhase.child, hchild], by simp⟩
  | @failRead child value hphase =>
    have hchild : child = some value := by
      have hvalue : (s.phases t).child = some value := hcond
      rcases hphase with ⟨source, hphase⟩ | hphase <;> rw [hphase] at hvalue <;> exact hvalue
    exact hgo rfl ⟨by simp [ForkPhase.value, ForkPhase.child, hchild], by simp⟩
  | closeRead hphase =>
    obtain ⟨pipes, hclose⟩ := closeRead_eq s
    exact hgo (by rw [hclose]) (hkeep hphase rfl rfl (by simp))
  | closeWrite hphase =>
    obtain ⟨pipes, hclose⟩ := closeWrite_eq s
    exact hgo (by rw [hclose]) (hkeep hphase rfl rfl (by simp))
  | noMemory => exact hgo rfl (hnone rfl)
  | allocate hphase hfresh => exact hgo rfl (hkeep hphase rfl rfl (by simp))
  | test hphase => exact hgo rfl (hkeep hphase rfl rfl (by simp))
  | linkNull hphase =>
    refine hgo rfl (hkeep hphase rfl rfl fun _ _ _ next hlinked => ?_)
    cases hlinked
    rfl
  | linkHead hphase hfirst hhead =>
    obtain ⟨l, hl⟩ := hs.list
    refine hgo rfl (hkeep hphase rfl rfl fun _ _ _ next hlinked => ?_)
    cases hlinked
    exact hl.head_next hfirst hhead
  | publish => exact hgo rfl (hnone rfl)

/-- A call that meets its condition keeps the invariant. -/
theorem ForkInv.call {s s' : Parent ι} {t : ι} {c : ForkCall} (hs : ForkInv s)
    (hidle : s.handlers t = none) (hcond : CallInTime s t c) (hm : ForkMoves s t c s') :
    ForkInv s' := by
  obtain ⟨l, hl⟩ := hs.list
  have hfree : ∀ pipe, c = .parentBeforeFork pipe → ∀ u, (s.phases u).usesPipe = false := by
    rintro pipe rfl
    exact hcond
  refine ⟨?_, placeOk_call hs hcond hm, hs.pipe.call hfree hm, hl.call (hs.places t) hidle hcond hm⟩
  cases hm with
  | before pipe => cases pipe <;> exact hs.handed
  | closeRead =>
    obtain ⟨pipes, hclose⟩ := closeRead_eq s
    rw [hclose]
    exact hs.handed
  | @closeWrite child value hphase =>
    intro h hmem
    rcases List.mem_append.mp hmem with hold | hnew
    · exact hs.handed h hold
    · have hvalue := (hs.places t).value value (by rw [hphase]; rfl)
      rw [hphase] at hvalue
      exact List.mem_singleton.mp hnew ▸ hvalue
  | _ => exact hs.handed

/-- A step of the handler keeps the invariant. -/
theorem ForkInv.handler {s s' : Parent ι} {t : ι} (hs : ForkInv s)
    (hstep : handlerStep s t = some s') : ForkInv s' := by
  obtain ⟨l, hl⟩ := hs.list
  have hlist := hl.handlerStep hstep
  obtain ⟨sig, code, place, child, -, -, -, rfl⟩ := handlerStep_cases hstep
  have hpipe := (hs.pipe.setCode code).setForked child (f := ForkedChild.notice) fun _ => ⟨rfl, rfl⟩
  exact ⟨hs.handed, hs.places, ⟨hpipe.users, hpipe.known, hpipe.fresh, hpipe.closed, hpipe.ok⟩, hlist⟩

/-- A signal that interrupts a read keeps the invariant. -/
theorem ForkInv.interrupt {s : Parent ι} (hs : ForkInv s) (t : ι) :
    ForkInv (s.goTo t (s.interrupt (s.phases t))) := by
  obtain ⟨l, hl⟩ := hs.list
  obtain ⟨huses, hlist, hpipe, hplace⟩ := interrupt_frame s (s.phases t)
  refine ⟨hs.handed, fun u => ?_, ?_, l, ?_⟩
  · by_cases hu : u = t
    · rw [hu, s.phases_goTo_self]
      exact hplace (hs.places t)
    · rw [s.phases_goTo_of_ne hu]
      exact hs.places u
  · refine hs.pipe.frame rfl (fun _ _ h => h) hs.pipe.known hs.pipe.fresh (fun u => ?_) fun u hok => ?_
    · by_cases hu : u = t
      · rw [hu, s.phases_goTo_self, huses]
      · rw [s.phases_goTo_of_ne hu]
    · by_cases hu : u = t
      · rw [hu, s.phases_goTo_self]
        exact hpipe (hu ▸ hok)
      · rwa [s.phases_goTo_of_ne hu]
  · exact hl.frame rfl (fun c hc h => ⟨c, hc, h, rfl⟩) rfl (inList_goTo (by simp [hlist]))

/-- A signal that interrupts a read leaves the other threads alone. -/
theorem Parent.Alone.interrupt {s : Parent ι} {t : ι} (h : s.Alone t) :
    (s.goTo t (s.interrupt (s.phases t))).Alone t := by
  intro u hne
  have hu := h u hne
  simp only [Parent.touchesList, s.phases_goTo_of_ne hne] at hu ⊢
  exact hu

/-- A handler that begins while no other thread is at work on the list keeps the invariant. -/
theorem ForkInv.beginHandler {s : Parent ι} {t : ι} (hs : ForkInv s) (halone : s.Alone t) (pid : ℤ)
    (dead : Bool) : ForkInv ({ s with pending := none }.handlerTo t (some ⟨pid, dead, .start⟩)) := by
  obtain ⟨l, hl⟩ := hs.list
  have hpipe : PipeInv { s with pending := none } := (hs.setPending none).pipe
  refine ⟨hs.handed, hs.places,
    ⟨hpipe.users, hpipe.known, hpipe.fresh, hpipe.closed, hpipe.ok⟩, l, hl.seg, hl.short, hl.noticed,
    users_of_alone halone fun u hne => ?_, fun u h hh => ?_⟩
  · simp only [Parent.touchesList, Parent.handlerTo, Function.update_of_ne hne]
  · have hbusy : Function.update s.handlers t (some ⟨pid, dead, .start⟩) u = some h := hh
    by_cases hu : u = t
    · rw [hu, Function.update_self] at hbusy
      cases hbusy
      trivial
    · rw [Function.update_of_ne hu] at hbusy
      exact hl.handlers u h hbusy

/-- An event that meets its condition keeps the invariant. -/
theorem forkStep_inv {s s' : Parent ι} {e : ForkEvent ι} (hs : ForkInv s)
    (hcond : RegistersInTime s e) (hstep : forkStep s e = some s') : ForkInv s' := by
  cases e with
  | call t c =>
    simp only [forkStep] at hstep
    split at hstep
    · exact hs.call ‹_› hcond (forkMoves_of_call hstep)
    · cases hstep
  | childAfterFork pid =>
    simp only [forkStep] at hstep
    split at hstep
    · cases hstep
    · rename_i c hfind
      split at hstep <;> cases hstep
      have hpid : c.pid = pid ∧ c.terminated = false := by simpa using List.find?_some hfind
      exact hpid.1 ▸ hs.write (List.mem_of_find?_eq_some hfind) ‹_›
  | terminate pid =>
    simp only [forkStep] at hstep
    split at hstep <;> cases hstep
    exact (hs.setPending _).terminate pid
  | sigchld pid =>
    cases hstep
    exact hs.setPending _
  | otherSignal t =>
    cases hstep
    exact hs.interrupt t
  | beginHandler t =>
    simp only [forkStep] at hstep
    split at hstep <;> cases hstep
    exact (hs.interrupt t).beginHandler (Parent.Alone.interrupt hcond) _ _
  | handler t => exact hs.handler hstep

/-- In a run all of whose steps meet their conditions, every pid handed to `add_child` is that of the
child just forked, and the list has no pid of a child that has been registered and whose death has
been handled. -/
theorem noStaleChild_throughout (events : List (ForkEvent ι))
    (h : Along forkStep RegistersInTime .start events) :
    Throughout forkStep NoStaleChild .start events :=
  (throughout_of_along (fun _ _ _ => forkStep_inv) forkInv_start events h).mono
    fun _ => ForkInv.noStaleChild

/-- `parent_after_fork` of a thread that reads the pid of its child and gets a cell for it. -/
def parentAfterFork (t : ι) (cell : ℕ) : List (ForkEvent ι) :=
  ([ForkCall.startRead, .finishRead, .closeRead, .closeWrite] ++ addChildCalls (some cell)).map
    (.call t)

/-- A child is forked and added, and its death is handled in the one thread while the other reads
the pid of the next child. -/
theorem second_fork_registers :
    Throughout forkStep NoStaleChild (.start : Parent Bool)
      ([.call true (.parentBeforeFork true), .call true (.fork (some 100)), .childAfterFork 100] ++
        parentAfterFork true 1 ++
        [.call false (.parentBeforeFork true), .call false (.fork (some 101)), .terminate 100,
          .beginHandler true, .handler true, .handler true, .childAfterFork 101] ++
        [.handler true, .handler true] ++ parentAfterFork false 2) :=
  noStaleChild_throughout _ (by decide)

/-- A child whose death is handled before the parent reads its pid stays in the list. When the death
of a child interrupts the read for the next one, or no pipe could be created, the parent adds an
arbitrary value, and of two threads that fork at once the one adds the child of the other. -/
theorem dead_child_stays_listed :
    ¬ Throughout forkStep NoStaleChild (.start : Parent Bool)
        ([.call true (.parentBeforeFork true), .call true (.fork (some 100)), .childAfterFork 100,
          .terminate 100, .beginHandler true, .handler true, .handler true] ++
          parentAfterFork true 1) ∧
      ¬ Throughout forkStep NoStaleChild (.start : Parent Bool)
        ([.call true (.parentBeforeFork true), .call true (.fork (some 100)), .childAfterFork 100] ++
          parentAfterFork true 1 ++
          [.call true (.parentBeforeFork true), .call true (.fork (some 101)), .call true .startRead,
            .terminate 100, .beginHandler true, .handler true, .handler true, .handler true,
            .handler true, .call true (.failRead 0), .call true .closeRead,
            .call true .closeWrite]) ∧
      ¬ Throughout forkStep NoStaleChild (.start : Parent Bool)
        [.call true (.parentBeforeFork false), .call true (.fork (some 100)), .call true .startRead,
          .call true (.failRead 0), .call true .closeRead, .call true .closeWrite] ∧
      ¬ Throughout forkStep NoStaleChild (.start : Parent Bool)
        ([.call true (.parentBeforeFork true), .call false (.parentBeforeFork true),
          .call true (.fork (some 100)), .call false (.fork (some 101)), .childAfterFork 101] ++
          parentAfterFork true 1) := by
  decide

end Kerrighed.Krgcheckpoint
