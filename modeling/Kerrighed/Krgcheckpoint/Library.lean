import Kerrighed.Krgcb.Signals
import Kerrighed.Krgcheckpoint.Exclusions

/-!
# The two libraries in one process

The exclusion library sits on the callback library: its first exclusion initializes the
callback registry and registers two callbacks of its own, whether or not the application
uses the registry already. The state below joins the two, and a step is one public call of
either library with the outcomes of the system calls it makes.

A call that aborts the process or waits forever leads to no further state. The list of kept
callbacks records which registrations have returned zero since the registry was last given up.
-/

namespace Kerrighed.Krgcheckpoint

open Kerrighed.Common Kerrighed.Krgcb

variable {F : Type}

/-- The functions registered as callbacks: the two of this library and those of the application. -/
inductive CallbackFunc (F : Type) where
  | crMmExclusionCheckpointCb
  | crMmExclusionRestartCb
  | user (f : F)
  deriving DecidableEq, Repr

/-- The state of both libraries in one process. -/
structure Library (F : Type) where
  process : Process (CallbackFunc F)
  regions : Regions F
  initialized : Bool
  kept : CrCbHook → List (CrCbCallback (CallbackFunc F))

/-- No call yet. -/
def Library.start : Library F := ⟨.fresh, .empty, false, fun _ => []⟩

/-- Register a callback and record it if that returns zero. -/
def recordCallback (hook : CrCbHook) (cb : CrCbCallback (CallbackFunc F))
    (call : Process (CallbackFunc F) → Call (CallbackFunc F)) (s : Library F) :
    Except Halt (ℤ × Library F) := do
  let (r, p) ← call s.process
  .ok (r, { s with
    process := p
    kept := fun h => if h = hook ∧ r = 0 then s.kept h ++ [cb] else s.kept h })

/-- The outcomes of the calls that `cr_mm_exclusion_init` makes. -/
structure ExclusionInitOutcome where
  callback : InitOutcome
  sigchild : ℤ
  atfork : ℤ

/-- Every step succeeds. -/
def ExclusionInitOutcome.success : ExclusionInitOutcome := ⟨.success, 0, 0⟩

/-- The first call initializes the callback library and registers the two callbacks. -/
def crMmExclusionInit (o : ExclusionInitOutcome) (s : Library F) : Except Halt (ℤ × Library F) :=
  if s.initialized then .ok (0, s)
  else
    let (r, p) := crCallbackInit o.callback s.process
    let s := { s with process := p }
    if r ≠ 0 then .ok (r, s)
    else do
      let (r, s) ← recordCallback .chkpt ⟨some .crMmExclusionCheckpointCb, 0, false⟩
        (crRegisterChkptCallback (some .crMmExclusionCheckpointCb) 0 0) s
      if r ≠ 0 then .ok (r, s)
      else do
        let (r, s) ← recordCallback .rst ⟨some .crMmExclusionRestartCb, 0, false⟩
          (crRegisterRestartCallback (some .crMmExclusionRestartCb) 0 0) s
        if r ≠ 0 then .ok (r, s)
        else if o.sigchild ≠ 0 then .ok (o.sigchild, s)
        else if o.atfork ≠ 0 then .ok (o.atfork, s)
        else .ok (0, { s with initialized := true })

/-- Exclude a region: link its cell, then initialize the library; the cell is freed again if that
fails. -/
def Library.crExcludeOn (data size : ℕ) (func : Option F) (arg : ℕ)
    (malloc : Option (ℕ × CrMmRegionExcluded F)) (o : ExclusionInitOutcome) (s : Library F) :
    Option (Except Halt (Result × Library F)) := do
  match ← linkRegion data size func arg malloc s.regions with
  | .returned result regions => some (.ok (result, { s with regions := regions }))
  | .linked mmRegion regions =>
    match crMmExclusionInit o { s with regions := regions } with
    | .error halt => some (.error halt)
    | .ok (r, s) =>
      if r ≠ 0 then
        some (.ok ((r, none),
          { s with regions := { s.regions with heap := s.regions.heap.erase mmRegion } }))
      else some (.ok ((r, none), s))

/-- The public calls of the two libraries, with the outcomes of the system calls they make. -/
inductive ApiOp (F : Type) where
  | callbackInit (o : InitOutcome)
  | callbackExit
  | register (hook : CrCbHook) (func : Option F) (arg : ℕ) (context : CrCbContext) (create : ℤ)
  | excludeOn (data size : ℕ) (func : Option F) (arg : ℕ)
      (malloc : Option (ℕ × CrMmRegionExcluded F)) (o : ExclusionInitOutcome)
  | excludeOff (data : ℕ)

/-- The state after a call that returns. `malloc` only returns addresses that hold no live cell. -/
def apiStep (s : Library F) : ApiOp F → Option (Library F)
  | .callbackInit o => some { s with process := (crCallbackInit o s.process).2 }
  | .callbackExit =>
    match crCallbackExit s.process with
    | .error _ => none
    | .ok p => some { s with process := p, kept := fun _ => [] }
  | .register hook func arg context create =>
    (recordCallback hook ⟨func.map .user, arg, context ≠ .signal⟩
      (registerCallback hook (func.map .user) arg context create) s).toOption.map Prod.snd
  | .excludeOn data size func arg malloc o =>
    if malloc.any (·.1 ∈ s.regions.heap) then none
    else ((s.crExcludeOn data size func arg malloc o).bind Except.toOption).map Prod.snd
  | .excludeOff data =>
    (crExcludeOff data s.regions).map fun result => { s with regions := result.2 }

/-- The outcome of the call of `cr_callback_init` that a public call makes, if it makes one. -/
def Library.initializes (s : Library F) : ApiOp F → Option InitOutcome
  | .callbackInit o => some o
  | .excludeOn data size func arg malloc o =>
    if s.initialized then none
    else
      match linkRegion data size func arg malloc s.regions with
      | some (.linked _ _) => some o.callback
      | _ => none
  | _ => none

/-- The callbacks that this library registers for itself. -/
def exclusionCallbacks : CrCbHook → List (CrCbCallback (CallbackFunc F))
  | .chkpt => [⟨some .crMmExclusionCheckpointCb, 0, false⟩]
  | .rst => [⟨some .crMmExclusionRestartCb, 0, false⟩]
  | .cnt => []

/-- What a public call does to the process and to the kept callbacks. -/
inductive ApiEffect (s : Library F) :
    ApiOp F → Process (CallbackFunc F) → (CrCbHook → List (CrCbCallback (CallbackFunc F))) → Prop
  | excluded {op : ApiOp F} (hinit : s.initializes op = none)
      (hop : ∀ hook func arg context create, op ≠ .register hook func arg context create)
      (hexit : op ≠ .callbackExit) : ApiEffect s op s.process s.kept
  | failed {op : ApiOp F} {o : InitOutcome} (hinit : s.initializes op = some o)
      (hfail : ¬ o.Succeeds) :
      ApiEffect s op
        { s.process with
          toGlobals := freeInfoMemory s.process.toGlobals
          handlers := fun hook => o.installs hook || s.process.handlers hook } s.kept
  | initialized {op : ApiOp F} {o : InitOutcome} (hinit : s.initializes op = some o)
      (hsucceed : o.Succeeds) (info : CrCbInfo (CallbackFunc F))
      (hsignal : ∀ hook, ∀ cb ∈ info.registered hook, cb.threadCb = false) :
      ApiEffect s op
        { s.process with info := some info, handlers := fun _ => true, activCb := true }
        fun hook => s.kept hook ++ info.registered hook
  | exited (hinfo : s.process.info ≠ none) :
      ApiEffect s .callbackExit { s.process with toGlobals := freeInfoMemory s.process.toGlobals }
        fun _ => []
  | unstarted {hook : CrCbHook} {func : Option F} {arg : ℕ} {create : ℤ}
      (hinfo : s.process.info ≠ none) (hrunning : s.process.threadRunning = false)
      (hcreate : create ≠ 0) :
      ApiEffect s (.register hook func arg .thread create)
        { s.process with info := none, mutexLocked := true } s.kept
  | registered {hook : CrCbHook} {func : Option F} {arg : ℕ} {context : CrCbContext} {create : ℤ}
      {info info' : CrCbInfo (CallbackFunc F)} {p : Process (CallbackFunc F)}
      (hinfo : s.process.info = some info) (hstarted : WorkerStarted context create s.process p)
      (happend : ∀ h, info'.registered h =
        if h = hook then info.registered h ++ [⟨func.map .user, arg, context ≠ .signal⟩]
        else info.registered h) :
      ApiEffect s (.register hook func arg context create) { p with info := some info' } fun h =>
        if h = hook then s.kept h ++ [⟨func.map .user, arg, context ≠ .signal⟩] else s.kept h
  | full {hook : CrCbHook} {func : Option F} {arg : ℕ} {context : CrCbContext} {create : ℤ}
      {p : Process (CallbackFunc F)} (hinfo : s.process.info ≠ none)
      (hstarted : WorkerStarted context create s.process p) :
      ApiEffect s (.register hook func arg context create) p s.kept

/-- The registry after the initialization of this library. -/
def exclusionInfo : CrCbInfo (CallbackFunc F) :=
  (CrCbInfo.zero.append .chkpt ⟨some .crMmExclusionCheckpointCb, 0, false⟩).append .rst
    ⟨some .crMmExclusionRestartCb, 0, false⟩

/-- It holds the two callbacks of the library. -/
theorem registered_exclusionInfo (hook : CrCbHook) :
    (exclusionInfo : CrCbInfo (CallbackFunc F)).registered hook = exclusionCallbacks hook := by
  rw [exclusionInfo, CrCbInfo.registered_append _ _ (by simp [CrCbInfo.append, CrCbInfo.zero,
      cbCountRead, cbCountWrite, crCbMaxCallbacks]),
    CrCbInfo.registered_append _ _ (by simp [CrCbInfo.zero, cbCountRead, crCbMaxCallbacks])]
  cases hook <;> simp [exclusionCallbacks]

/-- A registration in signal context is recorded if there is room in the table. -/
theorem recordCallback_signal {hook : CrCbHook} {s : Library F} (info : CrCbInfo (CallbackFunc F))
    (call : Process (CallbackFunc F) → Call (CallbackFunc F)) {func : CallbackFunc F}
    (hinfo : s.process.info = some info)
    (hroom : cbCountRead hook info.crCbCount < crCbMaxCallbacks)
    (hcall : call = registerCallback hook (some func) 0 .signal 0) :
    recordCallback hook ⟨some func, 0, false⟩ call s =
      .ok (0, { s with
        process := { s.process with info := some (info.append hook ⟨some func, 0, false⟩) }
        kept := fun h => if h = hook then s.kept h ++ [⟨some func, 0, false⟩] else s.kept h }) := by
  simp [recordCallback, hcall, registerCallback_signal hinfo hroom, bind, Except.bind]

/-- A second initialization does nothing. -/
theorem crMmExclusionInit_of_initialized {s : Library F} (h : s.initialized = true)
    (o : ExclusionInitOutcome) : crMmExclusionInit o s = .ok (0, s) := by
  rw [crMmExclusionInit, if_pos h]

/-- If the callback library cannot be initialized, nothing else is attempted. -/
theorem crMmExclusionInit_of_not_succeeds {s : Library F} (h : s.initialized = false)
    {o : ExclusionInitOutcome} (hfail : ¬ o.callback.Succeeds) :
    ∃ r, r ≠ 0 ∧ crMmExclusionInit o s = .ok (r, { s with process :=
      { s.process with
        toGlobals := freeInfoMemory s.process.toGlobals
        handlers := fun hook => o.callback.installs hook || s.process.handlers hook } }) := by
  obtain ⟨r, hr, heq⟩ := crCallbackInit_of_not_succeeds hfail s.process
  exact ⟨r, hr, by simp [crMmExclusionInit, h, heq, hr]⟩

/-- Otherwise both registrations succeed, and the two steps behind them decide. -/
theorem crMmExclusionInit_of_succeeds {s : Library F} (h : s.initialized = false)
    {o : ExclusionInitOutcome} (hsucceed : o.callback.Succeeds) :
    ∃ r b, (r = 0 ↔ o.sigchild = 0 ∧ o.atfork = 0) ∧ crMmExclusionInit o s = .ok (r, { s with
      process :=
        { s.process with info := some exclusionInfo, handlers := fun _ => true, activCb := true }
      initialized := b
      kept := fun hook => s.kept hook ++ exclusionCallbacks hook }) := by
  have hkept : (fun hook => s.kept hook ++ exclusionCallbacks hook) = fun h =>
      if h = .rst then
        (if h = .chkpt then s.kept h ++ [⟨some .crMmExclusionCheckpointCb, 0, false⟩]
          else s.kept h) ++ [⟨some .crMmExclusionRestartCb, 0, false⟩]
      else if h = .chkpt then s.kept h ++ [⟨some .crMmExclusionCheckpointCb, 0, false⟩]
      else s.kept h := by
    funext hook
    cases hook <;> simp [exclusionCallbacks]
  rw [hkept]
  have hroom : cbCountRead .rst ((CrCbInfo.zero : CrCbInfo (CallbackFunc F)).append .chkpt
      ⟨some .crMmExclusionCheckpointCb, 0, false⟩).crCbCount < crCbMaxCallbacks := by
    simp [CrCbInfo.append, CrCbInfo.zero, cbCountRead, cbCountWrite, crCbMaxCallbacks]
  simp only [crMmExclusionInit, h, crCallbackInit_of_succeeds hsucceed, ne_eq, not_true_eq_false,
    Bool.false_eq_true, if_false]
  rw [recordCallback_signal .zero (crRegisterChkptCallback _ 0 0) rfl
    (by simp [CrCbInfo.zero, cbCountRead, crCbMaxCallbacks]) rfl]
  simp only [bind, Except.bind, not_true_eq_false, if_false]
  rw [recordCallback_signal _ (crRegisterRestartCallback _ 0 0) rfl hroom rfl]
  by_cases hsigchild : o.sigchild = 0
  · by_cases hatfork : o.atfork = 0
    · exact ⟨0, true, by simp [hsigchild, hatfork], by simp [hsigchild, hatfork, exclusionInfo]⟩
    · exact ⟨o.atfork, s.initialized, by simp [hatfork], by
        simp [hsigchild, hatfork, h, exclusionInfo]⟩
  · exact ⟨o.sigchild, s.initialized, by simp [hsigchild], by simp [hsigchild, h, exclusionInfo]⟩

/-- Whether it gets through or not, the initialization does not touch the regions. -/
theorem crMmExclusionInit_regions {o : ExclusionInitOutcome} {s t : Library F} {r : ℤ}
    (h : crMmExclusionInit o s = .ok (r, t)) : t.regions = s.regions := by
  cases hinit : s.initialized with
  | true =>
    rw [crMmExclusionInit_of_initialized hinit] at h
    cases h
    rfl
  | false =>
    by_cases hsucceed : o.callback.Succeeds
    · obtain ⟨r', b, -, heq⟩ := crMmExclusionInit_of_succeeds hinit hsucceed
      rw [heq] at h
      cases h
      rfl
    · obtain ⟨r', -, heq⟩ := crMmExclusionInit_of_not_succeeds hinit hsucceed
      rw [heq] at h
      cases h
      rfl

/-- An exclusion that returns has either returned before the initialization, or returned what this
has, and then freed its cell unless it is zero. -/
theorem Library.crExcludeOn_ok {data size : ℕ} {func : Option F} {arg : ℕ}
    {malloc : Option (ℕ × CrMmRegionExcluded F)} {o : ExclusionInitOutcome} {s t : Library F}
    {result : Result} (h : s.crExcludeOn data size func arg malloc o = some (.ok (result, t))) :
    (∃ regions, linkRegion data size func arg malloc s.regions = some (.returned result regions) ∧
      t = { s with regions := regions }) ∨
    ∃ mmRegion regions r u,
      linkRegion data size func arg malloc s.regions = some (.linked mmRegion regions) ∧
      crMmExclusionInit o { s with regions := regions } = .ok (r, u) ∧ result = (r, none) ∧
      t = if r ≠ 0 then
          { u with regions := { u.regions with heap := u.regions.heap.erase mmRegion } }
        else u := by
  cases hlink : linkRegion data size func arg malloc s.regions with
  | none => simp [Library.crExcludeOn, hlink] at h
  | some linking =>
    cases linking with
    | returned result' regions =>
      simp only [Library.crExcludeOn, hlink, Option.bind_eq_bind, Option.bind_some,
        Option.some.injEq, Except.ok.injEq] at h
      cases h
      exact .inl ⟨regions, rfl, rfl⟩
    | linked mmRegion regions =>
      simp only [Library.crExcludeOn, hlink, Option.bind_eq_bind, Option.bind_some] at h
      split at h
      · cases h
      · rename_i r u hinit
        refine .inr ⟨mmRegion, regions, r, u, rfl, hinit, ?_⟩
        split at h
        · rename_i hr
          cases h
          exact ⟨rfl, (if_pos hr).symm⟩
        · rename_i hr
          cases h
          exact ⟨rfl, (if_neg hr).symm⟩

/-- An exclusion that returns has either initialized nothing, or failed to initialize the callback
library, or initialized it. -/
theorem apiEffect_of_excludeOn {data size : ℕ} {func : Option F} {arg : ℕ}
    {malloc : Option (ℕ × CrMmRegionExcluded F)} {o : ExclusionInitOutcome} {s t : Library F}
    {result : Result} (h : s.crExcludeOn data size func arg malloc o = some (.ok (result, t))) :
    ApiEffect s (.excludeOn data size func arg malloc o) t.process t.kept := by
  rcases Library.crExcludeOn_ok h with
    ⟨regions, hlink, rfl⟩ | ⟨mmRegion, regions, r, u, hlink, hcall, rfl, rfl⟩
  · exact .excluded (by simp [Library.initializes, hlink]) (by simp) (by simp)
  · rw [apply_ite Library.process, apply_ite Library.kept, ite_self, ite_self]
    cases hinit : s.initialized with
    | true =>
      rw [crMmExclusionInit_of_initialized (s := { s with regions := regions }) hinit] at hcall
      cases hcall
      exact .excluded (by simp [Library.initializes, hinit]) (by simp) (by simp)
    | false =>
      have hinits : s.initializes (.excludeOn data size func arg malloc o) = some o.callback := by
        simp [Library.initializes, hinit, hlink]
      by_cases hsucceed : o.callback.Succeeds
      · obtain ⟨r', b, -, heq⟩ :=
          crMmExclusionInit_of_succeeds (s := { s with regions := regions }) hinit hsucceed
        rw [heq] at hcall
        cases hcall
        simp only [← registered_exclusionInfo]
        refine .initialized hinits hsucceed exclusionInfo fun hook cb hcb => ?_
        rw [registered_exclusionInfo] at hcb
        cases hook <;> simp_all [exclusionCallbacks]
      · obtain ⟨r', -, heq⟩ :=
          crMmExclusionInit_of_not_succeeds (s := { s with regions := regions }) hinit hsucceed
        rw [heq] at hcall
        cases hcall
        exact .failed hinits hsucceed

/-- Every public call that returns has one of these effects. -/
theorem apiEffect_of_step {s t : Library F} {op : ApiOp F} (h : apiStep s op = some t) :
    ApiEffect s op t.process t.kept := by
  cases op with
  | callbackInit o =>
    obtain rfl := Option.some.inj h
    by_cases hsucceed : o.Succeeds
    · have hinits : s.initializes (.callbackInit o) = some o := rfl
      have heffect := ApiEffect.initialized hinits hsucceed .zero (by simp)
      simpa [crCallbackInit_of_succeeds hsucceed] using heffect
    · obtain ⟨r, -, heq⟩ := crCallbackInit_of_not_succeeds hsucceed s.process
      simp only [heq]
      exact .failed rfl hsucceed
  | callbackExit =>
    cases hinfo : s.process.info with
    | none => simp [apiStep, crCallbackExit, hinfo] at h
    | some info =>
      simp only [apiStep, crCallbackExit, hinfo, Option.some.injEq] at h
      subst t
      exact .exited (by simp [hinfo])
  | register hook func arg context create =>
    cases hcall : registerCallback hook (func.map .user) arg context create s.process with
    | error halt => simp [apiStep, recordCallback, hcall, bind, Except.bind, Except.toOption] at h
    | ok result =>
      obtain ⟨r, q⟩ := result
      simp only [apiStep, recordCallback, hcall, bind, Except.bind, Except.toOption,
        Option.map_some, Option.some.injEq] at h
      subst t
      obtain ⟨info, hinfo, ⟨rfl, hrunning, hcreate, rfl, rfl⟩ | ⟨p, hstarted, hq⟩⟩ :=
        registerCallback_cases hcall
      · simpa [hcreate] using ApiEffect.unstarted (by simp [hinfo]) hrunning hcreate
      · rcases hq with ⟨rfl, info', rfl, happend⟩ | ⟨rfl, rfl⟩
        · simpa using ApiEffect.registered hinfo hstarted happend
        · simpa using ApiEffect.full (by simp [hinfo]) hstarted
  | excludeOn data size func arg malloc o =>
    simp only [apiStep] at h
    split at h
    · cases h
    · obtain ⟨⟨result, t'⟩, hcall, rfl⟩ := Option.map_eq_some_iff.mp h
      obtain ⟨call, hsome, hok⟩ := Option.bind_eq_some_iff.mp hcall
      cases call with
      | error halt => cases hok
      | ok value =>
        cases hok
        exact apiEffect_of_excludeOn hsome
  | excludeOff data =>
    obtain ⟨result, -, rfl⟩ := Option.map_eq_some_iff.mp h
    exact .excluded rfl (by simp) (by simp)

end Kerrighed.Krgcheckpoint
