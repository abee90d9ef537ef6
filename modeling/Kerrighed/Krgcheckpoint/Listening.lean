import Kerrighed.Krgcheckpoint.Library

/-!
# When a request aborts the application

A process listens once a handler is installed or the bit that requesters look at is set, and
the handler aborts it if the registry is missing. Installing the handlers and setting the bit
is never undone, whereas the registry is dropped by `cr_callback_exit`, by a failed
initialization and by a failed start of the worker thread.

A listening process therefore has its registry in every state of a run exactly when no call
of the run drops the registry of a listening process.
-/

namespace Kerrighed.Krgcheckpoint

open Kerrighed.Common Kerrighed.Krgcb

variable {F : Type}

/-- A handler is installed or the process is declared to have callbacks. -/
def Listening (p : Process F) : Prop := (∃ hook, p.handlers hook = true) ∨ p.activCb = true

/-- A listening process has its registry, so that no signal aborts it. -/
def NeverAborts (s : Library F) : Prop :=
  Listening s.process → s.process.info ≠ none ∧
    ∀ hook ret, handleSignal (CrCbHook.signum hook) ret s.process.toGlobals ≠ none

/-- An initialization succeeds, or it stops before the first handler in a process that does not
listen. -/
def SafeInit (p : Process F) (o : InitOutcome) : Prop :=
  o.Succeeds ∨ (o.installs .chkpt = false ∧ ¬ Listening p)

/-- The call is not `cr_callback_exit`, starts the worker thread successfully if it has to, and its
initialization, if it makes one, is safe. -/
def KeepsRegistry (s : Library F) (op : ApiOp F) : Prop :=
  op ≠ .callbackExit ∧
    (∀ hook func arg create, op = .register hook func arg .thread create →
      s.process.threadRunning = false → create = 0) ∧
    ∀ o, s.initializes op = some o → SafeInit s.process o

/-- The registry is there exactly while the process listens. -/
def RegistryIffListening (p : Process F) : Prop := p.info ≠ none ↔ Listening p

/-- The signal handler only aborts without a registry. -/
theorem handleSignal_ne_none {g : Globals F} (h : g.info ≠ none) (signum : ℕ) (ret : ℕ → ℤ) :
    handleSignal signum ret g ≠ none := by
  obtain ⟨info, hinfo⟩ := Option.ne_none_iff_exists'.mp h
  cases hhook : hookOfSignal signum <;> simp [handleSignal, runCallbacks, hinfo, hhook]

/-- Processes with the same handlers and the same bit listen alike. -/
theorem listening_congr {p q : Process F} (hhandlers : q.handlers = p.handlers)
    (hactiv : q.activCb = p.activCb) : Listening q ↔ Listening p := by
  unfold Listening
  rw [hhandlers, hactiv]

/-- A failed initialization leaves a process that listens if it did before or got a handler. -/
theorem listening_failed_iff (p : Process F) (o : InitOutcome) :
    Listening { p with
        toGlobals := freeInfoMemory p.toGlobals
        handlers := fun hook => o.installs hook || p.handlers hook } ↔
      o.installs .chkpt = true ∨ Listening p := by
  simp only [Listening, Bool.or_eq_true]
  constructor
  · rintro (⟨hook, hinstall | hhandler⟩ | hactiv)
    · exact Or.inl (InitOutcome.installs_chkpt hinstall)
    · exact Or.inr (Or.inl ⟨hook, hhandler⟩)
    · exact Or.inr (Or.inr hactiv)
  · rintro (hinstall | ⟨hook, hhandler⟩ | hactiv)
    · exact Or.inl ⟨.chkpt, Or.inl hinstall⟩
    · exact Or.inl ⟨hook, Or.inr hhandler⟩
    · exact Or.inr hactiv

/-- A call that keeps the registry of a listening process keeps the two in step. -/
theorem registryIffListening_of_effect {s : Library F} {op : ApiOp F}
    {q : Process (CallbackFunc F)} {kept : CrCbHook → List (CrCbCallback (CallbackFunc F))}
    (heffect : ApiEffect s op q kept) (hs : RegistryIffListening s.process)
    (hcond : KeepsRegistry s op) : RegistryIffListening q := by
  obtain ⟨hexit, hstart, hsafe⟩ := hcond
  cases heffect with
  | excluded => exact hs
  | failed hinit hfail =>
    obtain ⟨hinstall, hquiet⟩ := (hsafe _ hinit).resolve_left hfail
    rw [RegistryIffListening, listening_failed_iff]
    simp [freeInfoMemory, hinstall, hquiet]
  | initialized => exact ⟨fun _ => Or.inr rfl, fun _ => by simp⟩
  | exited => exact absurd rfl hexit
  | unstarted _ hrunning hcreate => exact absurd (hstart _ _ _ _ rfl hrunning) hcreate
  | registered hinfo hstarted =>
    obtain ⟨-, hhandlers, hactiv⟩ := hstarted.frame
    have hlistening : Listening s.process := hs.mp (by simp [hinfo])
    exact ⟨fun _ => (listening_congr hhandlers hactiv).mpr hlistening, fun _ => by simp⟩
  | full _ hstarted =>
    obtain ⟨hinfo, hhandlers, hactiv⟩ := hstarted.frame
    rw [RegistryIffListening, hinfo, listening_congr hhandlers hactiv]
    exact hs

/-- A call that initializes the callback library keeps the registry if that initialization is
safe. -/
theorem keepsRegistry_of_initializes {s : Library F} {op : ApiOp F} {o : InitOutcome}
    (h : s.initializes op = some o) (hsafe : SafeInit s.process o) : KeepsRegistry s op := by
  refine ⟨?_, ?_, fun o' ho' => Option.some.inj (h.symm.trans ho') ▸ hsafe⟩
  · rintro rfl
    cases h
  · rintro hook func arg create rfl
    cases h

/-- A registration whose worker is there keeps the registry. -/
theorem keepsRegistry_of_started {s : Library F} {p : Process (CallbackFunc F)} {hook : CrCbHook}
    {func : Option F} {arg : ℕ} {context : CrCbContext} {create : ℤ}
    (h : WorkerStarted context create s.process p) :
    KeepsRegistry s (.register hook func arg context create) := by
  refine ⟨by simp, ?_, by simp [Library.initializes]⟩
  intro _ _ _ _ heq hrunning
  obtain ⟨-, -, -, rfl, rfl⟩ := ApiOp.register.inj heq
  exact h.create_eq_zero hrunning

/-- Any other call leaves a listening process without its registry. -/
theorem not_registry_of_effect {s : Library F} {op : ApiOp F}
    {q : Process (CallbackFunc F)} {kept : CrCbHook → List (CrCbCallback (CallbackFunc F))}
    (heffect : ApiEffect s op q kept) (hs : RegistryIffListening s.process)
    (hcond : ¬ KeepsRegistry s op) : Listening q ∧ q.info = none := by
  cases heffect with
  | excluded hinit hop hexit =>
    refine absurd ⟨hexit, ?_, ?_⟩ hcond
    · exact fun hook func arg create heq => absurd heq (hop hook func arg .thread create)
    · exact fun o ho => absurd (hinit.symm.trans ho) (by simp)
  | @failed _ o hinit hfail =>
    refine ⟨(listening_failed_iff _ _).mpr ?_, rfl⟩
    have hunsafe : ¬ SafeInit s.process o := fun h => hcond (keepsRegistry_of_initializes hinit h)
    by_cases hinstall : o.installs .chkpt = true
    · exact Or.inl hinstall
    · have hquiet : ¬ ¬ Listening s.process := fun hquiet =>
        hunsafe (Or.inr ⟨by simpa using hinstall, hquiet⟩)
      exact Or.inr (not_not.mp hquiet)
  | initialized hinit hsucceed =>
    exact absurd (keepsRegistry_of_initializes hinit (Or.inl hsucceed)) hcond
  | exited hinfo => exact ⟨hs.mp hinfo, rfl⟩
  | unstarted hinfo => exact ⟨hs.mp hinfo, rfl⟩
  | registered _ hstarted => exact absurd (keepsRegistry_of_started hstarted) hcond
  | full _ hstarted => exact absurd (keepsRegistry_of_started hstarted) hcond

/-- No signal aborts the application in any state of a run exactly when every call of the run keeps
the registry. -/
theorem neverAborts_throughout_iff (ops : List (ApiOp F)) :
    Throughout apiStep NeverAborts .start ops ↔ Along apiStep KeepsRegistry .start ops := by
  refine throughout_iff_along (fun s => RegistryIffListening s.process) ?_ ?_ ?_ ?_ ops
  · exact fun s hs hlistening =>
      ⟨hs.mpr hlistening, fun _ ret => handleSignal_ne_none (hs.mpr hlistening) _ ret⟩
  · exact fun s op t hs hcond hstep =>
      registryIffListening_of_effect (apiEffect_of_step hstep) hs hcond
  · intro s op t hs hcond hstep hnever
    obtain ⟨hlistening, hnone⟩ := not_registry_of_effect (apiEffect_of_step hstep) hs hcond
    exact (hnever hlistening).1 hnone
  · simp [RegistryIffListening, Listening, Library.start, Process.fresh]

/-- After `cr_callback_exit` the handlers are still installed and the bit is still set. -/
theorem exit_leaves_handlers :
    ¬ Throughout apiStep NeverAborts (.start : Library Unit)
      [.callbackInit .success, .callbackExit] := by
  intro h
  obtain ⟨-, hafterInit⟩ := (throughout_cons rfl).mp h
  obtain ⟨-, hafterExit⟩ := (throughout_cons rfl).mp hafterInit
  exact (hafterExit.start (Or.inr rfl)).1 rfl

end Kerrighed.Krgcheckpoint
