import Kerrighed.Krgcheckpoint.Library

/-!
# Callbacks that stay registered

A registration that returns zero should last until `cr_callback_exit`. The registry is shared
by the application and the exclusion library, and each initialization of it, by whichever of
the two, starts with empty tables; a failed start of the worker thread drops the tables too.

The callbacks are all kept, and run on the next signal, in every state of a run exactly when
the tables are empty whenever a call initializes the registry or fails to start the thread.
-/

namespace Kerrighed.Krgcheckpoint

open Kerrighed.Common Kerrighed.Krgcb

variable {F : Type}

/-- The callbacks in the table of a hook. -/
def entries (p : Process F) (hook : CrCbHook) : List (CrCbCallback F) :=
  match p.info with
  | none => []
  | some info => info.registered hook

/-- The signal of the hook has a handler, and makes each callback in the table run when those
before it return zero. -/
def RunByNextSignal (p : Process F) (hook : CrCbHook) : Prop :=
  ∀ before cb after, entries p hook = before ++ cb :: after → cb.func ≠ none →
    p.handlers hook = true ∧ ∀ ret : ℕ → ℤ, (∀ i < before.length, ret i = 0) →
      ∃ round, signalRound hook.signum ret p = some round ∧ before.length ∈ round.calls

/-- Every callback whose registration returned zero since the last exit is in its table, and is run
by the next signal. -/
def AllKept (s : Library F) : Prop :=
  ∀ hook, (s.kept hook).Sublist (entries s.process hook) ∧ RunByNextSignal s.process hook

/-- No callback is in any table. -/
def NoCallbacks (p : Process F) : Prop := ∀ hook, entries p hook = []

/-- The tables are empty if the call initializes the registry or fails to start the worker. -/
def KeepsCallbacks (s : Library F) (op : ApiOp F) : Prop :=
  (∀ hook func arg create, op = .register hook func arg .thread create →
    s.process.threadRunning = false → create = 0 ∨ NoCallbacks s.process) ∧
    (s.initializes op ≠ none → NoCallbacks s.process)

/-- The invariant of the runs that lose no callback. -/
structure KeptInv (p : Process F) (kept : CrCbHook → List (CrCbCallback F)) : Prop where
  same : ∀ hook, kept hook = entries p hook
  handled : p.info ≠ none → ∀ hook, p.handlers hook = true
  waiting : p.threadRunning = true → p.workers ≠ 0
  started : ∀ hook, ∀ cb ∈ entries p hook, cb.threadCb = true → p.threadRunning = true

/-- While the worker is there for every thread-context callback, the next signal runs every
callback. -/
theorem KeptInv.runByNextSignal {p : Process F} {kept : CrCbHook → List (CrCbCallback F)}
    (h : KeptInv p kept) (hook : CrCbHook) : RunByNextSignal p hook := by
  intro before cb after hentries hfunc
  cases hinfo : p.info with
  | none => simp [entries, hinfo] at hentries
  | some info =>
    refine ⟨h.handled (by simp [hinfo]) hook, fun ret hzero => ?_⟩
    have hregistered : info.registered hook = before ++ cb :: after := by
      simpa [entries, hinfo] using hentries
    have hsome : cb.func.isSome = true := Option.isSome_iff_ne_none.mpr hfunc
    obtain ⟨round, hround, hsignal, hthread⟩ := signalRound_calls hinfo hook ret
    refine ⟨round, hround, ?_⟩
    rw [hregistered] at hsignal hthread
    cases hcontext : cb.threadCb with
    | false =>
      apply hsignal
      simpa using mem_runEntries .signal ret 0 (by simp [CrCbCallback.runsIn, hsome, hcontext])
        (by simpa using hzero)
    | true =>
      have hrunning := h.started hook cb (by simp [hentries]) hcontext
      apply hthread (h.waiting hrunning) hrunning
      simpa using mem_runEntries .thread ret 0 (by simp [CrCbCallback.runsIn, hsome, hcontext])
        (by simpa using hzero)

/-- Without a registry the invariant asks for no kept callback and no running worker. -/
theorem keptInv_of_none {p : Process F} {kept : CrCbHook → List (CrCbCallback F)}
    (hinfo : p.info = none) (hkept : ∀ hook, kept hook = []) (hrunning : p.threadRunning = false) :
    KeptInv p kept := by
  refine ⟨fun hook => ?_, fun h => absurd hinfo h, fun h => ?_, fun hook cb hcb => ?_⟩
  · simp [hkept, entries, hinfo]
  · simp [hrunning] at h
  · simp [entries, hinfo] at hcb

/-- Having the worker for a context keeps the invariant. -/
theorem KeptInv.workerStarted {p q : Process F} {kept : CrCbHook → List (CrCbCallback F)}
    (h : KeptInv p kept) {context : CrCbContext} {create : ℤ}
    (hstarted : WorkerStarted context create p q) :
    KeptInv q kept ∧ (context = .thread → q.threadRunning = true) := by
  rcases hstarted with ⟨rfl, hneeded⟩ | ⟨-, -, -, -, rfl⟩
  · exact ⟨h, hneeded⟩
  · exact ⟨⟨h.same, h.handled, by simp, fun _ _ _ _ => rfl⟩, fun _ => rfl⟩

/-- A call that meets the condition keeps the invariant. -/
theorem keptInv_of_effect {s : Library F} {op : ApiOp F} {q : Process (CallbackFunc F)}
    {kept : CrCbHook → List (CrCbCallback (CallbackFunc F))} (heffect : ApiEffect s op q kept)
    (hs : KeptInv s.process s.kept) (hcond : KeepsCallbacks s op) : KeptInv q kept := by
  obtain ⟨hstart, hempty⟩ := hcond
  cases heffect with
  | excluded => exact hs
  | failed hinit =>
    have hnone := hempty (by simp [hinit])
    exact keptInv_of_none rfl (fun hook => (hs.same hook).trans (hnone hook)) rfl
  | initialized hinit _ info hsignal =>
    have hnone := hempty (by simp [hinit])
    refine ⟨fun hook => ?_, fun _ _ => rfl, hs.waiting, fun hook cb hcb hcontext => ?_⟩
    · rw [hs.same, hnone, List.nil_append]
      rfl
    · exact absurd hcontext (by simp [hsignal hook cb hcb])
  | exited => exact keptInv_of_none rfl (fun _ => rfl) rfl
  | unstarted _ hrunning hcreate =>
    have hnone := (hstart _ _ _ _ rfl hrunning).resolve_left hcreate
    exact keptInv_of_none rfl (fun hook => (hs.same hook).trans (hnone hook)) hrunning
  | @registered hook func arg context create info info' p hinfo hstarted happend =>
    obtain ⟨hp, hthread⟩ := hs.workerStarted hstarted
    have hentries (h : CrCbHook) : entries p h = info.registered h := by
      rw [entries, hstarted.frame.1, hinfo]
    have hregistered (h : CrCbHook) : entries { p with info := some info' } h =
        if h = hook then entries p h ++ [⟨func.map .user, arg, context ≠ .signal⟩]
        else entries p h := by
      rw [hentries]
      exact happend h
    refine ⟨fun h => ?_, fun _ => hp.handled ?_, hp.waiting, fun h cb hcb hcontext => ?_⟩
    · rw [hregistered, hp.same]
    · rw [hstarted.frame.1, hinfo]
      simp
    · rw [hregistered] at hcb
      split at hcb
      · rcases List.mem_append.mp hcb with hcb | hcb
        · exact hp.started h cb hcb hcontext
        · rw [List.mem_singleton.mp hcb] at hcontext
          apply hthread
          cases context <;> simp at hcontext ⊢
      · exact hp.started h cb hcb hcontext
  | full _ hstarted => exact (hs.workerStarted hstarted).1

/-- A registration whose worker is there meets the condition. -/
theorem keepsCallbacks_of_started {s : Library F} {p : Process (CallbackFunc F)} {hook : CrCbHook}
    {func : Option F} {arg : ℕ} {context : CrCbContext} {create : ℤ}
    (h : WorkerStarted context create s.process p) :
    KeepsCallbacks s (.register hook func arg context create) := by
  refine ⟨?_, fun hinit => absurd rfl hinit⟩
  intro _ _ _ _ heq hrunning
  obtain ⟨-, -, -, rfl, rfl⟩ := ApiOp.register.inj heq
  exact Or.inl (h.create_eq_zero hrunning)

/-- Losing the entries of a process with callbacks loses a kept one. -/
theorem KeptInv.lost {p q : Process F} {kept : CrCbHook → List (CrCbCallback F)}
    (h : KeptInv p kept) (hsome : ¬ NoCallbacks p) (added : CrCbHook → List (CrCbCallback F))
    (hentries : ∀ hook, entries q hook = added hook) :
    ∃ hook, ¬ (kept hook ++ added hook).Sublist (entries q hook) := by
  obtain ⟨hook, hook_ne⟩ := not_forall.mp hsome
  refine ⟨hook, fun hsub => hook_ne ?_⟩
  have hlen := hsub.length_le
  rw [hentries, List.length_append] at hlen
  rw [← h.same]
  exact List.eq_nil_of_length_eq_zero (by omega)

/-- Any other call leaves a kept callback without its entry. -/
theorem not_kept_of_effect {s : Library F} {op : ApiOp F} {q : Process (CallbackFunc F)}
    {kept : CrCbHook → List (CrCbCallback (CallbackFunc F))} (heffect : ApiEffect s op q kept)
    (hs : KeptInv s.process s.kept) (hcond : ¬ KeepsCallbacks s op) :
    ∃ hook, ¬ (kept hook).Sublist (entries q hook) := by
  by_cases hempty : NoCallbacks s.process
  · exact absurd ⟨fun _ _ _ _ _ _ => Or.inr hempty, fun _ => hempty⟩ hcond
  · cases heffect with
    | excluded hinit hop =>
      refine absurd ⟨?_, fun h => absurd hinit h⟩ hcond
      exact fun hook func arg create heq => absurd heq (hop hook func arg .thread create)
    | failed => simpa using hs.lost hempty (fun _ => []) fun _ => rfl
    | initialized => exact hs.lost hempty _ fun _ => rfl
    | exited => exact absurd ⟨by simp, fun h => absurd rfl h⟩ hcond
    | unstarted => simpa using hs.lost hempty (fun _ => []) fun _ => rfl
    | registered _ hstarted => exact absurd (keepsCallbacks_of_started hstarted) hcond
    | full _ hstarted => exact absurd (keepsCallbacks_of_started hstarted) hcond

/-- No callback is lost in any state of a run exactly when the tables are empty at every call of
the run that initializes the registry or fails to start the worker. -/
theorem allKept_throughout_iff (ops : List (ApiOp F)) :
    Throughout apiStep AllKept .start ops ↔ Along apiStep KeepsCallbacks .start ops := by
  refine throughout_iff_along (fun s => KeptInv s.process s.kept) ?_ ?_ ?_ ?_ ops
  · exact fun s hs hook => ⟨by rw [hs.same], hs.runByNextSignal hook⟩
  · exact fun s op t hs hcond hstep => keptInv_of_effect (apiEffect_of_step hstep) hs hcond
  · intro s op t hs hcond hstep hall
    obtain ⟨hook, hlost⟩ := not_kept_of_effect (apiEffect_of_step hstep) hs hcond
    exact hlost (hall hook).1
  · exact ⟨fun _ => rfl, by simp [Library.start, Process.fresh],
      by simp [Library.start, Process.fresh], by simp [Library.start, Process.fresh, entries]⟩

/-- An exclusion after a registration of the application empties the tables. -/
theorem exclusion_drops_callback :
    ¬ Throughout apiStep AllKept (.start : Library Unit)
      [.callbackInit .success, .register .chkpt (some ()) 7 .signal 0,
        .excludeOn 4096 8 none 0 (some (1, ⟨⟨0, 0, 0, none⟩, none, 0⟩)) .success] := by
  intro h
  obtain ⟨-, hafterInit⟩ := (throughout_cons rfl).mp h
  obtain ⟨-, hafterRegister⟩ := (throughout_cons rfl).mp hafterInit
  obtain ⟨-, hafterExclude⟩ := (throughout_cons rfl).mp hafterRegister
  exact absurd (hafterExclude.start .chkpt).1 (by decide)

end Kerrighed.Krgcheckpoint
