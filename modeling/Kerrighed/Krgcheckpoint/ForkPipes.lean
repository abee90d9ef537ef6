import Kerrighed.Krgcheckpoint.ForkSteps
import Mathlib.Data.Set.Subsingleton

/-!
# The pipe of a fork

All forks of the parent use one `pipefd`. While one thread at a time uses it, the pipe it refers to
is that of this thread's own fork: only the child writes to it, and what is read from it is the
child's pid. Behind the fork the pipe is closed, so a `pipe` that fails leaves nothing to read from.
-/

namespace Kerrighed.Krgcheckpoint

open Kerrighed.Common

variable {ι : Type}

/-- Only the child of a fork writes to the pipe, and only its pid is in there. -/
def Parent.OnlyFrom (s : Parent ι) (child : Option ℤ) (p : ℕ) : Prop :=
  (∀ v ∈ (s.pipes p).content, child = some v) ∧
    ∀ c ∈ s.children, c.out = some p → child = some c.pid

/-- The pipe that a thread reads from is that of its own fork, and it is closed in the end. -/
def PipeOk (s : Parent ι) : ForkPhase → Prop
  | .prepared => ∀ p ∈ s.source, s.OnlyFrom none p
  | .forked child => ∀ p ∈ s.source, s.OnlyFrom child p
  | .reading child source => ∀ p ∈ source, s.OnlyFrom child p
  | .closing _ _ => s.source = none
  | _ => True

/-- One thread at most uses the pipe, and while none does, `pipefd` refers to no open pipe. -/
structure PipeInv (s : Parent ι) : Prop where
  users : {t | (s.phases t).usesPipe = true}.Subsingleton
  known : ∀ p ∈ s.pipefd, p < s.created
  fresh : ∀ c ∈ s.children, ∀ p ∈ c.out, p < s.created
  closed : (∀ t, (s.phases t).usesPipe = false) → s.source = none
  ok : ∀ t, PipeOk s (s.phases t)

/-- A place where the pipe is not used says nothing about it. -/
theorem pipeOk_of_not_uses {s : Parent ι} {phase : ForkPhase} (h : phase.usesPipe = false) :
    PipeOk s phase := by
  cases phase with
  | prepared | forked | reading | interrupted | read | closing => cases h
  | _ => trivial

/-- What a place says about the pipe stays true while the pipe stays with its writers. -/
theorem PipeOk.mono {s s' : Parent ι} (hsource : s'.source = s.source)
    (hfrom : ∀ child p, s.OnlyFrom child p → s'.OnlyFrom child p) {phase : ForkPhase}
    (h : PipeOk s phase) : PipeOk s' phase := by
  cases phase with
  | prepared => exact fun p hp => hfrom none p (h p (hsource ▸ hp))
  | forked child => exact fun p hp => hfrom child p (h p (hsource ▸ hp))
  | reading child source => exact fun p hp => hfrom child p (h p hp)
  | closing => exact hsource.trans h
  | _ => trivial

/-- While a thread uses the pipe, no other does. -/
theorem PipeInv.others {s : Parent ι} (hs : PipeInv s) {t : ι}
    (ht : (s.phases t).usesPipe = true) : ∀ u, u ≠ t → (s.phases u).usesPipe = false :=
  fun _ hne => eq_false_of_ne_true fun hu => hne (hs.users hu ht)

/-- A step that leaves the pipe with its users and its writers keeps the invariant. -/
theorem PipeInv.frame {s s' : Parent ι} (hs : PipeInv s) (hsource : s'.source = s.source)
    (hfrom : ∀ child p, s.OnlyFrom child p → s'.OnlyFrom child p)
    (hknown : ∀ p ∈ s'.pipefd, p < s'.created)
    (hfresh : ∀ c ∈ s'.children, ∀ p ∈ c.out, p < s'.created)
    (huses : ∀ u, (s'.phases u).usesPipe = (s.phases u).usesPipe)
    (hok : ∀ u, PipeOk s (s.phases u) → PipeOk s (s'.phases u)) : PipeInv s' where
  users := by simpa only [huses] using hs.users
  known := hknown
  fresh := hfresh
  closed hnone := hsource.trans (hs.closed fun t => (huses t).symm.trans (hnone t))
  ok t := (hok t (hs.ok t)).mono hsource hfrom

/-- The list does not matter for the pipe. -/
theorem PipeInv.setCode {s : Parent ι} (hs : PipeInv s) (code : Children) :
    PipeInv { s with code := code } :=
  ⟨hs.users, hs.known, hs.fresh, hs.closed, hs.ok⟩

/-- A change of a child that keeps its pid and its pipe keeps them for all. -/
theorem mem_setForked {s : Parent ι} {child : Option ℤ} {f : ForkedChild → ForkedChild}
    {c' : ForkedChild} (hmem : c' ∈ (s.setForked child f).children)
    (hf : ∀ c, (f c).pid = c.pid ∧ (f c).out = c.out) :
    ∃ c ∈ s.children, c.pid = c'.pid ∧ c.out = c'.out := by
  cases child with
  | none => exact ⟨c', hmem, rfl, rfl⟩
  | some pid =>
    obtain ⟨c, hc, rfl⟩ := mem_setChild hmem
    refine ⟨c, hc, ?_⟩
    split
    · exact ⟨(hf c).1.symm, (hf c).2.symm⟩
    · exact ⟨rfl, rfl⟩

/-- A change of a child that keeps its pid and its pipe keeps the invariant of the pipe. -/
theorem PipeInv.setForked {s : Parent ι} (hs : PipeInv s) (child : Option ℤ)
    {f : ForkedChild → ForkedChild} (hf : ∀ c, (f c).pid = c.pid ∧ (f c).out = c.out) :
    PipeInv (s.setForked child f) := by
  cases child with
  | none => exact hs
  | some pid =>
    refine hs.frame rfl (fun _ p hfrom => ⟨hfrom.1, fun c' hc' hout => ?_⟩) hs.known
      (fun c' hc' p hp => ?_) (fun _ => rfl) fun _ hok => hok
    · obtain ⟨c, hc, hpid, hsame⟩ := mem_setForked hc' hf
      exact hpid ▸ hfrom.2 c hc (hsame.trans hout)
    · obtain ⟨c, hc, -, hsame⟩ := mem_setForked hc' hf
      exact hs.fresh c hc p (hsame.trans hp)

/-- A new pipe is the source of the next read. -/
theorem source_openPipe (s : Parent ι) : s.openPipe.source = some s.created := by
  simp [Parent.source, Parent.openPipe]

/-- Behind `close(pipefd[0])` there is nothing to read from. -/
theorem source_closeRead (s : Parent ι) : s.closeRead.source = none := by
  unfold Parent.closeRead
  split
  · rename_i hnone
    simp [Parent.source, hnone]
  · rename_i p hp
    simp [Parent.source, Parent.setPipe, hp]

/-- `close(pipefd[1])` leaves the other end. -/
theorem source_closeWrite (s : Parent ι) : s.closeWrite.source = s.source := by
  unfold Parent.closeWrite
  split
  · rfl
  · rename_i p hp
    simp [Parent.source, Parent.setPipe, hp, Option.filter]

/-- Closing one end changes nothing but the pipes. -/
theorem closeRead_eq (s : Parent ι) : ∃ pipes, s.closeRead = { s with pipes := pipes } := by
  unfold Parent.closeRead
  split <;> exact ⟨_, rfl⟩

/-- Closing the other end changes nothing but the pipes either. -/
theorem closeWrite_eq (s : Parent ι) : ∃ pipes, s.closeWrite = { s with pipes := pipes } := by
  unfold Parent.closeWrite
  split <;> exact ⟨_, rfl⟩

variable [DecidableEq ι]

/-- A thread that goes on alone is all that matters for the pipe. -/
theorem pipeInv_goTo {s : Parent ι} {t : ι} {phase : ForkPhase}
    (hothers : ∀ u, u ≠ t → (s.phases u).usesPipe = false)
    (hknown : ∀ p ∈ s.pipefd, p < s.created)
    (hfresh : ∀ c ∈ s.children, ∀ p ∈ c.out, p < s.created) (hok : PipeOk s phase)
    (hclosed : phase.usesPipe = false → s.source = none) : PipeInv (s.goTo t phase) := by
  have hothers' : ∀ u, u ≠ t → ((s.goTo t phase).phases u).usesPipe = false := fun u hne => by
    rw [s.phases_goTo_of_ne hne]
    exact hothers u hne
  refine ⟨?_, hknown, hfresh, fun hnone => hclosed ?_, fun u => ?_⟩
  · refine Set.subsingleton_of_subset_singleton (a := t) fun u hu => ?_
    by_contra hne
    exact Bool.false_ne_true ((hothers' u hne).symm.trans hu)
  · simpa using hnone t
  · by_cases hu : u = t
    · rw [hu, s.phases_goTo_self]
      exact hok
    · exact pipeOk_of_not_uses (hothers' u hu)

/-- The thread that uses the pipe goes on, and may change pipes. -/
theorem PipeInv.goOn {s : Parent ι} (hs : PipeInv s) {t : ι} {phase : ForkPhase}
    (hold : (s.phases t).usesPipe = true) (pipes : ℕ → Pipe)
    (hok : PipeOk { s with pipes := pipes } phase)
    (hclosed : phase.usesPipe = false → Parent.source { s with pipes := pipes } = none) :
    PipeInv (Parent.goTo { s with pipes := pipes } t phase) :=
  pipeInv_goTo (hs.others hold) hs.known hs.fresh hok hclosed

/-- A thread that does not use the pipe may go on to a place where it does not either. -/
theorem PipeInv.goTo {s : Parent ι} (hs : PipeInv s) {t : ι} {phase : ForkPhase}
    (hold : (s.phases t).usesPipe = false) (hnew : phase.usesPipe = false) :
    PipeInv (s.goTo t phase) := by
  refine hs.frame rfl (fun _ _ h => h) hs.known hs.fresh (fun u => ?_) fun u hok => ?_
  · by_cases hu : u = t
    · rw [hu, s.phases_goTo_self, hold, hnew]
    · rw [s.phases_goTo_of_ne hu]
  · by_cases hu : u = t
    · rw [hu, s.phases_goTo_self]
      exact pipeOk_of_not_uses hnew
    · rwa [s.phases_goTo_of_ne hu]

/-- A thread that does not use the pipe may end its fork. -/
theorem PipeInv.finishFork {s : Parent ι} (hs : PipeInv s) {t : ι} {child : Option ℤ}
    (hold : (s.phases t).usesPipe = false) : PipeInv (s.finishFork t child) := by
  have hregistered : PipeInv (s.setForked child .register) := hs.setForked child fun _ => ⟨rfl, rfl⟩
  exact hregistered.goTo hold rfl

/-- A call keeps the invariant of the pipe if a fork only begins while no other uses it. -/
theorem PipeInv.call {s s' : Parent ι} {t : ι} {c : ForkCall} (hs : PipeInv s)
    (hfree : ∀ pipe, c = .parentBeforeFork pipe → ∀ u, (s.phases u).usesPipe = false)
    (hm : ForkMoves s t c s') : PipeInv s' := by
  have hok := hs.ok t
  cases hm with
  | before pipe hphase =>
    have hnone := hfree pipe rfl
    cases pipe with
    | false =>
      change PipeInv (s.goTo t .prepared)
      refine pipeInv_goTo (fun u _ => hnone u) hs.known hs.fresh (fun p hp => ?_)
        (by simp [ForkPhase.usesPipe])
      rw [hs.closed hnone] at hp
      cases hp
    | true =>
      change PipeInv (s.openPipe.goTo t .prepared)
      refine pipeInv_goTo (fun u _ => hnone u) (fun p hp => ?_) (fun c hc p hp => ?_)
        (fun p hp => ?_) (by simp [ForkPhase.usesPipe])
      · obtain rfl := Option.some.inj hp
        exact Nat.lt_succ_self _
      · exact Nat.lt_succ_of_lt (hs.fresh c hc p hp)
      · obtain rfl : s.created = p := Option.some.inj ((source_openPipe s).symm.trans hp)
        refine ⟨by simp [Parent.openPipe], fun c hc hout => ?_⟩
        exact absurd (hs.fresh c hc s.created hout) (lt_irrefl _)
  | forkFailed hphase =>
    rw [hphase] at hok
    exact hs.goOn (by rw [hphase]; rfl) s.pipes hok (by simp [ForkPhase.usesPipe])
  | @forked pid hphase hfree =>
    rw [hphase] at hok
    refine pipeInv_goTo (hs.others (by simp [hphase, ForkPhase.usesPipe])) hs.known
      (fun c hc p hp => ?_) (fun p hp => ⟨fun v hv => ?_, fun c hc hout => ?_⟩)
      (by simp [ForkPhase.usesPipe])
    · rcases List.mem_cons.mp hc with rfl | hold
      · exact hs.known p (Option.mem_filter_iff.mp hp).1
      · exact hs.fresh c (List.mem_of_mem_filter hold) p hp
    · cases (hok p hp).1 v hv
    · rcases List.mem_cons.mp hc with rfl | hold
      · rfl
      · cases (hok p hp).2 c (List.mem_of_mem_filter hold) hout
  | startRead hphase =>
    rw [hphase] at hok
    exact hs.goOn (by rw [hphase]; rfl) s.pipes hok (by simp [ForkPhase.usesPipe])
  | finishRead hphase hcontent =>
    exact hs.goOn (by rw [hphase]; rfl) _ trivial (by simp [ForkPhase.usesPipe])
  | failRead hphase =>
    have huses : (s.phases t).usesPipe = true := by
      rcases hphase with ⟨source, hphase⟩ | hphase <;> rw [hphase] <;> rfl
    exact hs.goOn huses s.pipes trivial (by simp [ForkPhase.usesPipe])
  | closeRead hphase =>
    obtain ⟨pipes, hclose⟩ := closeRead_eq s
    have hsource := source_closeRead s
    rw [hclose] at hsource ⊢
    exact hs.goOn (by rw [hphase]; rfl) pipes hsource (by simp [ForkPhase.usesPipe])
  | closeWrite hphase =>
    rw [hphase] at hok
    obtain ⟨pipes, hclose⟩ := closeWrite_eq s
    have hsource := (source_closeWrite s).trans hok
    rw [hclose] at hsource ⊢
    exact pipeInv_goTo (hs.others (by simp [hphase, ForkPhase.usesPipe])) hs.known hs.fresh trivial
      fun _ => hsource
  | noMemory hphase => exact hs.finishFork (by simp [hphase, ForkPhase.usesPipe])
  | allocate hphase hfresh =>
    exact (hs.setCode _).goTo (by simp [hphase, ForkPhase.usesPipe]) rfl
  | test hphase => exact hs.goTo (by simp [hphase, ForkPhase.usesPipe]) rfl
  | linkHead hphase hfirst hhead => exact hs.goTo (by simp [hphase, ForkPhase.usesPipe]) rfl
  | linkNull hphase => exact hs.goTo (by simp [hphase, ForkPhase.usesPipe]) rfl
  | publish hphase =>
    exact (hs.setCode _).finishFork (by simp [hphase, ForkPhase.usesPipe])

end Kerrighed.Krgcheckpoint
