import Kerrighed.Krgcb.Threads

/-!
# The pass of the handler and the pass of the worker

The callbacks of a hook stand in one table, those for the signal handler and those for the worker
in the order of their registration. Each pass picks its own callbacks by the flag that was set at
the registration, and stops at the first that fails.

After any registrations the two passes split the callbacks of the hook between them.
-/

namespace Kerrighed.Krgcb

open Kerrighed.Common

variable {F : Type}

/-- A registration in either context, with what `pthread_create` returns should it have to start the
worker. -/
structure ContextRegistration (F : Type) where
  hook : CrCbHook
  func : Option F
  arg : ℕ
  context : CrCbContext
  create : ℤ
  deriving DecidableEq, Repr

/-- The entry of a registration. -/
def ContextRegistration.entry (x : ContextRegistration F) : CrCbCallback F :=
  ⟨x.func, x.arg, x.context ≠ .signal⟩

/-- A registration that returns zero. -/
def registerSucceeds (p : Process F) (x : ContextRegistration F) : Option (Process F) :=
  match registerCallback x.hook x.func x.arg x.context x.create p with
  | .ok (r, q) => if r = 0 then some q else none
  | .error _ => none

/-- The registrations for a hook. -/
def ofHook (hook : CrCbHook) (registrations : List (ContextRegistration F)) :
    List (ContextRegistration F) := registrations.filter (·.hook = hook)

/-- The places of the callbacks of a context, in the order of the list. A null pointer is no
callback. -/
def placesIn (context : CrCbContext) (registrations : List (ContextRegistration F)) : List ℕ :=
  (registrations.zipIdx.filter fun x => x.1.func.isSome && x.1.context = context).map Prod.snd

/-- The places of all callbacks. -/
def places (registrations : List (ContextRegistration F)) : List ℕ :=
  (registrations.zipIdx.filter fun x => x.1.func.isSome).map Prod.snd

/-- A pass over some places: those up to and including the first that fails, and what that one
returns, or zero if none does. -/
def passOf (ret : ℕ → ℤ) (indices : List ℕ) : List ℕ × ℤ :=
  (indices.takeWhile (ret · = 0) ++ (indices.dropWhile (ret · = 0)).take 1,
    ((indices.dropWhile (ret · = 0)).head?.map ret).getD 0)

/-- A pass goes on behind a callback that returns zero. -/
theorem passOf_cons_zero {ret : ℕ → ℤ} {idx : ℕ} (hret : ret idx = 0) (rest : List ℕ) :
    passOf ret (idx :: rest) = (idx :: (passOf ret rest).1, (passOf ret rest).2) := by
  simp [passOf, hret]

/-- A pass ends with a callback that fails. -/
theorem passOf_cons_ne {ret : ℕ → ℤ} {idx : ℕ} (hret : ret idx ≠ 0) (rest : List ℕ) :
    passOf ret (idx :: rest) = ([idx], ret idx) := by
  simp [passOf, hret]

/-- A pass in which nothing fails goes over all places. -/
theorem passOf_of_forall {ret : ℕ → ℤ} {indices : List ℕ} (h : ∀ i ∈ indices, ret i = 0) :
    passOf ret indices = (indices, 0) := by
  induction indices with
  | nil => rfl
  | cons idx rest ih =>
    obtain ⟨hidx, hrest⟩ := List.forall_mem_cons.mp h
    rw [passOf_cons_zero hidx, ih hrest]

/-- The loop over a table is a pass over the places of the entries of its context. -/
theorem runEntries_eq_passOf (context : CrCbContext) (ret : ℕ → ℤ) (idx : ℕ)
    (entries : List (CrCbCallback F)) :
    runEntries context ret idx entries =
      passOf ret (((entries.zipIdx idx).filter fun x => x.1.runsIn context).map Prod.snd) := by
  induction entries generalizing idx with
  | nil => rfl
  | cons cb rest ih =>
    rw [runEntries, ih (idx + 1), List.zipIdx_cons]
    by_cases hrun : cb.runsIn context = true
    · rw [if_pos hrun, List.filter_cons_of_pos (by simpa using hrun), List.map_cons]
      by_cases hret : ret idx = 0
      · rw [if_neg (not_not.mpr hret), passOf_cons_zero hret]
      · rw [if_pos hret, passOf_cons_ne hret]
    · rw [if_neg hrun, List.filter_cons_of_neg (by simpa using hrun)]

/-- The entry of a registration is run in the context it was made for. -/
theorem ContextRegistration.runsIn_entry (x : ContextRegistration F) (context : CrCbContext) :
    x.entry.runsIn context = (x.func.isSome && decide (x.context = context)) := by
  obtain ⟨hook, func, arg, own, create⟩ := x
  cases own <;> cases context <;> simp [ContextRegistration.entry, CrCbCallback.runsIn]

/-- The entries of the context stand at the places of its registrations. -/
theorem places_entries (context : CrCbContext) (registrations : List (ContextRegistration F)) :
    (((registrations.map ContextRegistration.entry).zipIdx.filter fun x =>
      x.1.runsIn context).map Prod.snd) = placesIn context registrations := by
  rw [placesIn, List.zipIdx_map, List.filter_map, List.map_map]
  simp only [Function.comp_def, Prod.map_fst, ContextRegistration.runsIn_entry]
  rfl

/-- A successful registration puts its entry behind those of its hook. -/
theorem registerSucceeds_registered {p q : Process F} {x : ContextRegistration F} {info : CrCbInfo F}
    (hinfo : p.info = some info) (hstep : registerSucceeds p x = some q) :
    ∃ info', q.info = some info' ∧ ∀ h, info'.registered h =
      if h = x.hook then info.registered h ++ [x.entry] else info.registered h := by
  rw [registerSucceeds] at hstep
  split at hstep
  · rename_i r q' hcall
    split at hstep
    · rename_i hr
      obtain rfl := Option.some.inj hstep
      obtain ⟨info₀, hinfo₀, hcases⟩ := registerCallback_cases hcall
      obtain rfl : info = info₀ := Option.some.inj (hinfo.symm.trans hinfo₀)
      rcases hcases with ⟨-, -, hcreate, hr', -⟩ | ⟨p', -, ⟨-, info', rfl, happend⟩ | ⟨hfull, -⟩⟩
      · exact absurd (hr'.symm.trans hr) hcreate
      · exact ⟨info', rfl, happend⟩
      · exact absurd (hfull.symm.trans hr) (by decide)
    · exact absurd hstep (by simp)
  · exact absurd hstep (by simp)

/-- Successful registrations put their entries behind those of their hooks, in their order. -/
theorem registered_of_run {p q : Process F} {info : CrCbInfo F} (hinfo : p.info = some info)
    {registrations : List (ContextRegistration F)}
    (hrun : run registerSucceeds p registrations = some q) :
    ∃ info', q.info = some info' ∧ ∀ h, info'.registered h = info.registered h ++
      (ofHook h registrations).map ContextRegistration.entry := by
  induction registrations generalizing p info with
  | nil =>
    obtain rfl := Option.some.inj hrun
    exact ⟨info, hinfo, by simp [ofHook]⟩
  | cons x rest ih =>
    obtain ⟨p', hstep, hrest⟩ := Option.bind_eq_some_iff.mp hrun
    obtain ⟨info₁, hinfo₁, hfirst⟩ := registerSucceeds_registered hinfo hstep
    obtain ⟨info', hinfo', hothers⟩ := ih hinfo₁ hrest
    refine ⟨info', hinfo', fun h => ?_⟩
    rw [hothers, hfirst, ofHook, ofHook]
    by_cases hx : x.hook = h
    · rw [if_pos hx.symm, List.filter_cons_of_pos (by simpa using hx), List.map_cons,
        List.append_assoc, List.singleton_append]
    · rw [if_neg (Ne.symm hx), List.filter_cons_of_neg (by simpa using hx)]

/-- The entries below the count of a hook are those of its table. -/
theorem CrCbInfo.entry_of_registered {info : CrCbInfo F} {hook : CrCbHook} {i : ℕ}
    {cb : CrCbCallback F} (h : (info.registered hook)[i]? = some cb) : info.entry hook i = cb := by
  rw [CrCbInfo.registered, List.getElem?_take] at h
  split at h
  · rw [Vector.getElem?_toList] at h
    rw [CrCbInfo.entry, h]
    rfl
  · exact absurd h (by simp)

/-- The places of the two contexts are all places, each once. -/
theorem places_split (registrations : List (ContextRegistration F)) :
    (placesIn .signal registrations ++ placesIn .thread registrations).Perm
      (places registrations) := by
  rw [placesIn, placesIn, places, ← List.map_append]
  refine List.Perm.map _ ?_
  have hcontexts : ∀ c : CrCbContext, decide (c = .thread) = !decide (c = .signal) := by decide
  simp only [hcontexts, Bool.and_comm, ← List.filter_filter]
  exact List.filter_append_perm _ _

/-- No place is there twice. -/
theorem places_nodup (registrations : List (ContextRegistration F)) :
    (places registrations).Nodup := by
  rw [places]
  refine List.Nodup.sublist (List.Sublist.map _ List.filter_sublist) ?_
  rw [List.zipIdx_map_snd]
  exact List.nodup_range'

/-- After any successful registrations, with the hook as the current one throughout, the entries of
its table are its own registrations in their order, and a pass in either context calls exactly
those of the context up to and including the first that fails, whose value it returns. When none
fails the two passes together call every callback of the hook exactly once. -/
theorem passes_split (registrations : List (ContextRegistration F)) (p : Process F)
    (hook : CrCbHook) (ret : ℕ → ℤ)
    (hrun : run registerSucceeds .initialized registrations = some p) :
    ∃ info, p.info = some info ∧
      (∀ i x, (ofHook hook registrations)[i]? = some x → info.entry hook i = x.entry) ∧
      (∀ context, runCallbacks context ret { p.toGlobals with currentHook := some hook } =
        some (passOf ret (placesIn context (ofHook hook registrations)))) ∧
      ((∀ i ∈ places (ofHook hook registrations), ret i = 0) → ∃ signals threads,
        runCallbacks .signal ret { p.toGlobals with currentHook := some hook } = some (signals, 0) ∧
        runCallbacks .thread ret { p.toGlobals with currentHook := some hook } = some (threads, 0) ∧
        (signals ++ threads).Perm (places (ofHook hook registrations)) ∧
        (signals ++ threads).Nodup) := by
  obtain ⟨info, hinfo, hregistered⟩ :=
    registered_of_run (show Process.initialized.info = some CrCbInfo.zero from rfl) hrun
  have hmine := hregistered hook
  rw [CrCbInfo.registered_zero, List.nil_append] at hmine
  have hpass (context : CrCbContext) :
      runCallbacks context ret { p.toGlobals with currentHook := some hook } =
        some (passOf ret (placesIn context (ofHook hook registrations))) := by
    simp only [runCallbacks, hinfo]
    rw [runEntries_eq_passOf, hmine, places_entries]
  have hsplit := places_split (ofHook hook registrations)
  refine ⟨info, hinfo, fun i x hx => ?_, hpass, fun hzero => ?_⟩
  · apply CrCbInfo.entry_of_registered
    rw [hmine, List.getElem?_map, hx]
    rfl
  · refine ⟨_, _, ?_, ?_, hsplit, hsplit.nodup_iff.mpr (places_nodup _)⟩
    · rw [hpass, passOf_of_forall fun i hi => hzero i (hsplit.mem_iff.mp (List.mem_append_left _ hi))]
    · rw [hpass, passOf_of_forall fun i hi => hzero i (hsplit.mem_iff.mp (List.mem_append_right _ hi))]

/-- Checkpoint callbacks for both contexts around a restart callback. -/
def mixedRegistrations : List (ContextRegistration Unit) :=
  [⟨.chkpt, some (), 1, .signal, 0⟩, ⟨.rst, some (), 2, .signal, 0⟩, ⟨.chkpt, some (), 3, .thread, 0⟩,
    ⟨.chkpt, some (), 4, .signal, 0⟩]

/-- The passes over the checkpoint callbacks, with the last one failing. -/
theorem passes_split_mixed :
    ∃ p, run registerSucceeds .initialized mixedRegistrations = some p ∧ ∃ info, p.info = some info ∧
      (∀ i x, (ofHook .chkpt mixedRegistrations)[i]? = some x → info.entry .chkpt i = x.entry) ∧
      (∀ context, runCallbacks context (fun i => if i = 2 then 5 else 0)
          { p.toGlobals with currentHook := some .chkpt } =
        some (passOf (fun i => if i = 2 then 5 else 0)
          (placesIn context (ofHook .chkpt mixedRegistrations)))) ∧
      ((∀ i ∈ places (ofHook .chkpt mixedRegistrations), (if i = 2 then (5 : ℤ) else 0) = 0) →
        ∃ signals threads,
          runCallbacks .signal (fun i => if i = 2 then 5 else 0)
            { p.toGlobals with currentHook := some .chkpt } = some (signals, 0) ∧
          runCallbacks .thread (fun i => if i = 2 then 5 else 0)
            { p.toGlobals with currentHook := some .chkpt } = some (threads, 0) ∧
          (signals ++ threads).Perm (places (ofHook .chkpt mixedRegistrations)) ∧
          (signals ++ threads).Nodup) :=
  ⟨_, rfl, passes_split mixedRegistrations _ .chkpt _ rfl⟩

example : passOf (fun i => if i = 2 then 5 else 0)
    (placesIn .signal (ofHook .chkpt mixedRegistrations)) = ([0, 2], 5) := by
  decide

end Kerrighed.Krgcb
