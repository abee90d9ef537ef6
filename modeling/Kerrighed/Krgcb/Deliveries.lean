import Kerrighed.Krgcb.Passes
import Kerrighed.Krgcb.QueueRemoval
import Kerrighed.Krgcb.Signals

/-!
# Requests to a process that has registered its callbacks

A process that has registered its callbacks without an error has a worker exactly when it needs one.
Each signal that is handled on its own then runs one pass in each context, whatever signals came before,
and the first message of a checkpoint signal is the verdict on all callbacks of the hook.

Only the request for a checkpoint round waits for an answer. The requests for the other two hooks send
their signal and return.
-/

namespace Kerrighed.Krgcb

open Kerrighed.Common

variable {F : Type}

/-- Query the application and send it a signal, if it has declared callbacks: the value returned, and
whether the signal was sent. -/
def signalCallbacks (detect kill : ℤ) : ℤ × Bool :=
  if detect ≠ 0 then (0, false) else (kill, kill = 0)

/-- `cr_execute_restart_callbacks`, given what the query and the signal return. -/
def crExecuteRestartCallbacks (detect kill : ℤ) : ℤ × Bool := signalCallbacks detect kill

/-- `cr_execute_continue_callbacks`, given what the query and the signal return. -/
def crExecuteContinueCallbacks (detect kill : ℤ) : ℤ × Bool := signalCallbacks detect kill

/-- The tables hold the registrations, the callbacks are declared, and there is a worker exactly when
one of them needs it. -/
structure Registered (registrations : List (ContextRegistration F)) (p : Process F) : Prop where
  tables : ∃ info, p.info = some info ∧
    ∀ hook, info.registered hook = (ofHook hook registrations).map ContextRegistration.entry
  declared : p.activCb = true
  worker : p.threadRunning = true → p.workers ≠ 0
  noWorker : p.threadRunning = false → p.workers = 0 ∧ ∀ x ∈ registrations, x.context = .signal

/-- A process that has initialized the library has no registrations. -/
theorem registered_initialized : Registered [] (Process.initialized : Process F) where
  tables := ⟨CrCbInfo.zero, rfl, fun hook => by simp [ofHook]⟩
  declared := rfl
  worker h := by contradiction
  noWorker _ := ⟨rfl, fun x hx => absurd hx List.not_mem_nil⟩

/-- A registration that succeeds is added. -/
theorem Registered.register {registrations : List (ContextRegistration F)} {p q : Process F}
    {x : ContextRegistration F} (h : Registered registrations p)
    (hstep : registerSucceeds p x = some q) : Registered (registrations ++ [x]) q := by
  obtain ⟨info, hinfo, htables⟩ := h.tables
  obtain ⟨info', hinfo', happend⟩ := registerSucceeds_registered hinfo hstep
  rw [registerSucceeds] at hstep
  split at hstep
  · rename_i r q' hcall
    split at hstep
    · rename_i hr
      obtain rfl := Option.some.inj hstep
      obtain ⟨info₀, -, ⟨-, -, hcreate, hr', -⟩ | ⟨p', hstarted, hq⟩⟩ :=
        registerCallback_cases hcall
      · exact absurd (hr'.symm.trans hr) hcreate
      · have hsame : q'.activCb = p'.activCb ∧ q'.threadRunning = p'.threadRunning ∧
            q'.workers = p'.workers := by
          rcases hq with ⟨-, info₁, rfl, -⟩ | ⟨-, rfl⟩
          · exact ⟨rfl, rfl, rfl⟩
          · exact ⟨rfl, rfl, rfl⟩
        refine ⟨⟨info', hinfo', fun hook => ?_⟩, ?_, ?_, ?_⟩
        · rw [happend, htables, ofHook, ofHook, List.filter_append, List.map_append]
          by_cases hhook : hook = x.hook
          · simp [hhook]
          · simp [hhook, Ne.symm hhook]
        · rw [hsame.1, hstarted.frame.2.2, h.declared]
        · rw [hsame.2.1, hsame.2.2]
          rcases hstarted with ⟨rfl, -⟩ | ⟨-, -, -, -, rfl⟩
          · exact h.worker
          · exact fun _ => Nat.succ_ne_zero _
        · rw [hsame.2.1, hsame.2.2]
          rcases hstarted with ⟨rfl, hneeded⟩ | ⟨-, -, -, -, rfl⟩
          · intro hrunning
            obtain ⟨hworkers, hcontexts⟩ := h.noWorker hrunning
            refine ⟨hworkers, fun y hy => ?_⟩
            rcases List.mem_append.mp hy with hy | hy
            · exact hcontexts y hy
            · obtain rfl := List.mem_singleton.mp hy
              cases hcontext : y.context with
              | signal => rfl
              | thread =>
                rw [hneeded hcontext] at hrunning
                contradiction
          · intro hrunning
            contradiction
    · contradiction
  · contradiction

/-- Registrations that all succeed are there. -/
theorem registered_run {registrations done : List (ContextRegistration F)} {p q : Process F}
    (h : Registered done p) (hrun : run registerSucceeds p registrations = some q) :
    Registered (done ++ registrations) q := by
  induction registrations generalizing p done with
  | nil =>
    obtain rfl := Option.some.inj hrun
    rwa [List.append_nil]
  | cons x rest ih =>
    obtain ⟨p', hstep, hrest⟩ := Option.bind_eq_some_iff.mp hrun
    have hall := ih (h.register hstep) hrest
    rwa [List.append_assoc, List.singleton_append] at hall

/-- A signal for a hook leaves the tables and the record of the worker as they are. -/
theorem signalRound_frame {hook : CrCbHook} {ret : ℕ → ℤ} {p : Process F} {info : CrCbInfo F}
    (hinfo : p.info = some info) {round : Handled F}
    (h : signalRound hook.signum ret p = some round) :
    round.globals.info = p.info ∧ round.globals.threadRunning = p.threadRunning := by
  obtain ⟨hwakeInfo, hwakeRunning, -⟩ := wakeWorker_frame { p.toGlobals with currentHook := some hook }
  simp only [signalRound, handleSignal_signum hinfo, Option.bind_eq_bind, Option.bind_some] at h
  split at h
  · obtain ⟨w, hpass, hround⟩ := Option.bind_eq_some_iff.mp h
    obtain ⟨g, hlock, hpass⟩ := Option.bind_eq_some_iff.mp hpass
    obtain ⟨calls, -, hpass⟩ := Option.bind_eq_some_iff.mp hpass
    obtain rfl := Option.some.inj hpass
    obtain rfl := Option.some.inj hround
    rw [lockMutex] at hlock
    split at hlock
    · contradiction
    · obtain rfl := Option.some.inj hlock
      exact ⟨hwakeInfo, hwakeRunning⟩
  · obtain rfl := Option.some.inj h
    exact ⟨hwakeInfo, hwakeRunning⟩

/-- A pass in signal or thread context goes over the places of the registrations. -/
theorem runEntries_registered {registrations : List (ContextRegistration F)} {info : CrCbInfo F}
    {hook : CrCbHook}
    (htable : info.registered hook = (ofHook hook registrations).map ContextRegistration.entry)
    (context : CrCbContext) (ret : ℕ → ℤ) :
    runEntries context ret 0 (info.registered hook) =
      passOf ret (placesIn context (ofHook hook registrations)) := by
  rw [runEntries_eq_passOf, htable, places_entries]

/-- Where all callbacks are for signal context, none is for the worker. -/
theorem placesIn_thread_eq_nil {registrations : List (ContextRegistration F)} {hook : CrCbHook}
    (h : ∀ x ∈ registrations, x.context = .signal) :
    placesIn .thread (ofHook hook registrations) = [] := by
  rw [placesIn, List.map_eq_nil_iff, List.filter_eq_nil_iff]
  intro x hx hthread
  have hcontext := h x.1 (List.mem_filter.mp (List.fst_mem_of_mem_zipIdx hx)).1
  simp [hcontext] at hthread

/-- A signal that is handled on its own runs one pass in each context, and can be followed by others. -/
theorem signalRound_registered {registrations : List (ContextRegistration F)} {p : Process F}
    (h : Registered registrations p) (hook : CrCbHook) (ret : ℕ → ℤ) :
    ∃ round, signalRound hook.signum ret p = some round ∧
      round.calls = (passOf ret (placesIn .signal (ofHook hook registrations))).1 ++
        (passOf ret (placesIn .thread (ofHook hook registrations))).1 ∧
      Registered registrations { p with toGlobals := round.globals } := by
  obtain ⟨info, hinfo, htables⟩ := h.tables
  obtain ⟨round, hround, hcalls⟩ := signalRound_calls_eq hinfo hook ret
  obtain ⟨hframe, hrunning⟩ := signalRound_frame hinfo hround
  refine ⟨round, hround, ?_, ⟨⟨info, hframe.trans hinfo, htables⟩, h.declared, ?_, ?_⟩⟩
  · rw [hcalls, runEntries_registered (htables hook), runEntries_registered (htables hook)]
    split
    · rfl
    · rename_i hasleep
      have hnone : p.threadRunning = false := by
        cases hthread : p.threadRunning with
        | false => rfl
        | true =>
          refine absurd ⟨h.worker hthread, ?_⟩ hasleep
          rw [wakeWorker, if_pos hthread]
      rw [placesIn_thread_eq_nil (h.noWorker hnone).2]
      rfl
  · dsimp only
    rw [hrunning]
    exact h.worker
  · dsimp only
    rw [hrunning]
    exact h.noWorker

/-- A pass fails exactly when a callback at one of its places does. -/
theorem passOf_ne_zero_iff {ret : ℕ → ℤ} {indices : List ℕ} :
    (passOf ret indices).2 ≠ 0 ↔ ∃ i ∈ indices, ret i ≠ 0 := by
  induction indices with
  | nil => simp [passOf]
  | cons idx rest ih =>
    by_cases hret : ret idx = 0
    · rw [passOf_cons_zero hret, ih, List.exists_mem_cons_iff]
      simp [hret]
    · rw [passOf_cons_ne hret, List.exists_mem_cons_iff]
      simp [hret]

/-- The first message of a checkpoint signal is the verdict on all callbacks of the hook. -/
theorem signalRound_verdict {registrations : List (ContextRegistration F)} {p : Process F}
    (h : Registered registrations p) (ret : ℕ → ℤ) :
    ∃ round rest, signalRound CrCbHook.chkpt.signum ret p = some round ∧
      round.messages = verdictOf ret (places (ofHook .chkpt registrations)) :: rest := by
  obtain ⟨info, hinfo, htables⟩ := h.tables
  have hsplit (i : ℕ) := (places_split (ofHook .chkpt registrations)).mem_iff (a := i)
  have hfails : (∃ i ∈ places (ofHook .chkpt registrations), ret i ≠ 0) ↔
      (passOf ret (placesIn .signal (ofHook .chkpt registrations))).2 ≠ 0 ∨
        (passOf ret (placesIn .thread (ofHook .chkpt registrations))).2 ≠ 0 := by
    rw [passOf_ne_zero_iff, passOf_ne_zero_iff]
    simp only [← hsplit, List.mem_append, or_and_right, exists_or]
  by_cases hworkers : p.workers = 0
  · have hnone : p.threadRunning = false := by
      cases hthread : p.threadRunning with
      | false => rfl
      | true => exact absurd hworkers (h.worker hthread)
    rw [placesIn_thread_eq_nil (h.noWorker hnone).2] at hfails
    refine ⟨_, [], signalRound_handler hinfo hworkers ret, ?_⟩
    rw [runEntries_registered (htables .chkpt), verdictOf]
    by_cases hr : (passOf ret (placesIn .signal (ofHook .chkpt registrations))).2 = 0
    · have hempty : (passOf ret []).2 = 0 := rfl
      simp only [hfails, hr, hempty, ne_eq, not_true_eq_false, or_self, if_false]
      simp [handlerMessage, hnone]
    · rw [if_pos (hfails.mpr (Or.inl hr))]
      simp [handlerMessage, hr]
  · have hrunning : p.threadRunning = true := by
      cases hthread : p.threadRunning with
      | true => rfl
      | false => exact absurd (h.noWorker hthread).1 hworkers
    obtain ⟨g, hround⟩ := signalRound_worker hinfo hrunning hworkers ret
    rw [runEntries_registered (htables .chkpt), runEntries_registered (htables .chkpt)] at hround
    by_cases hr : (passOf ret (placesIn .signal (ofHook .chkpt registrations))).2 = 0
    · refine ⟨_, [], hround, ?_⟩
      rw [verdictOf, passVerdict]
      simp only [hfails, hr, ne_eq, not_true_eq_false, if_false, false_or, List.nil_append]
    · refine ⟨_, [passVerdict (passOf ret (placesIn .thread (ofHook .chkpt registrations))).2],
        hround, ?_⟩
      rw [verdictOf, if_pos (hfails.mpr (Or.inl hr)), if_pos hr]
      rfl

end Kerrighed.Krgcb
