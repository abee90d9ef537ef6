import Kerrighed.Krgcb.Threads

/-!
# What a verdict vouches for

Seen from one request, the application is before the checkpoint round of that request, in it,
or behind it with a verdict on its way or in the queue. The steps of the handler and the worker
keep every verdict of success tied to the calls made since the request, as long as a checkpoint
signal is only handled while the worker is blocked and the handler reports no failure next to a
worker: the worker then sends a verdict of its own, and only the first one can be trusted.
-/

namespace Kerrighed.Krgcb

variable {F : Type}

/-- A checkpoint callback has been called and has then returned zero. -/
def Ran (context : CrCbContext) (idx : ℕ) (log : List Event) : Prop :=
  [.called context .chkpt idx, .returned context .chkpt idx 0].Sublist log

/-- All checkpoint callbacks of a context with an index below `n` have run and returned zero. -/
def RanBelow (info : CrCbInfo F) (context : CrCbContext) (n : ℕ) (log : List Event) : Prop :=
  ∀ idx < n, (info.entry .chkpt idx).runsIn context = true → Ran context idx log

/-- All checkpoint callbacks of a context have run and returned zero. -/
def RanIn (info : CrCbInfo F) (context : CrCbContext) (log : List Event) : Prop :=
  RanBelow info context (cbCountRead .chkpt info.crCbCount) log

/-- All checkpoint callbacks have run and returned zero. -/
def RanAll (info : CrCbInfo F) (log : List Event) : Prop := ∀ context, RanIn info context log

instance (info : CrCbInfo F) (log : List Event) : Decidable (RanAll info log) :=
  inferInstanceAs (Decidable (∀ context, ∀ idx < cbCountRead .chkpt info.crCbCount,
    (info.entry .chkpt idx).runsIn context = true →
      [.called context .chkpt idx, .returned context .chkpt idx 0].Sublist log))

/-- The worker is not in a pass: before its check of `info`, at the loop condition or at the lock. -/
def WorkerPc.waits : WorkerPc → Bool
  | .starting | .head | .locking => true
  | _ => false

/-- The worker is gone, or it makes no pass before somebody unlocks the mutex. -/
def App.WorkerIdle (a : App F) : Prop :=
  a.worker = .ended ∨ (a.globals.mutexLocked = true ∧ a.worker.waits = true)

/-- The verdict that the worker is about to send. -/
def WorkerPc.verdict : WorkerPc → Option CrCbStatus
  | .sending verdict => some verdict
  | _ => none

/-- The verdict that the handler is about to send. -/
def HandlerPc.verdict : HandlerPc → Option CrCbStatus
  | .sending verdict => some verdict
  | _ => none

/-- No checkpoint round is going on, apart from a verdict that may still be on its way. -/
def App.Between (a : App F) : Prop :=
  a.globals.currentHook ≠ some .chkpt ∨ (a.handler = .idle ∧ a.WorkerIdle)

/-- No checkpoint round is going on. -/
def App.Quiet (a : App F) : Prop :=
  a.handler.verdict = none ∧ a.worker.verdict = none ∧ a.Between

instance (a : App F) : Decidable a.WorkerIdle :=
  inferInstanceAs (Decidable (a.worker = .ended ∨
    (a.globals.mutexLocked = true ∧ a.worker.waits = true)))

instance (a : App F) : Decidable a.Between :=
  inferInstanceAs (Decidable (a.globals.currentHook ≠ some .chkpt ∨
    (a.handler = .idle ∧ a.WorkerIdle)))

instance (a : App F) : Decidable a.Quiet :=
  inferInstanceAs (Decidable (a.handler.verdict = none ∧ a.worker.verdict = none ∧ a.Between))

/-- What the worker has done of a round, given the calls since the request. -/
def WorkerProgress (info : CrCbInfo F) (log : List Event) : WorkerPc → Prop
  | .looping p => p.table = .chkpt ∧ RanBelow info .thread p.idx log
  | .calling p =>
    p.table = .chkpt ∧ RanBelow info .thread p.idx log ∧ .called .thread .chkpt p.idx ∈ log
  | .testing r => r = 0 → RanIn info .thread log
  | _ => True

/-- What the handler and the worker have done of a round, given the calls since the request. -/
def RoundProgress (info : CrCbInfo F) (a : App F) (log : List Event) : HandlerPc → Prop
  | .running => a.WorkerIdle
  | .tested r => a.WorkerIdle ∧ (r = 0 → RanIn info .signal log)
  | .sending _ => a.WorkerIdle
  | .waking => a.WorkerIdle ∧ (a.globals.threadRunning = true → RanIn info .signal log)
  | .idle => RanIn info .signal log ∧ WorkerProgress info log a.worker

/-- No checkpoint round is going on, or one that has begun after the request. -/
def InOrder (info : CrCbInfo F) (a : App F) (log : List Event) : Prop :=
  a.Between ∨ (a.globals.currentHook = some .chkpt ∧ RoundProgress info a log a.handler)

/-- A verdict of success that is on its way is true of the calls since the request. -/
def Vouched (info : CrCbInfo F) (a : App F) (log : List Event) : Prop :=
  a.handler.verdict = some .chkptApp ∨ a.worker.verdict = some .chkptApp → RanAll info log

/-- Every verdict of success for a request that was made at `mark` is true, whether in the queue or on
its way, and the application is in order. -/
structure Trusted (info : CrCbInfo F) (a : App F) (mark : ℕ) (messages : List CrCbStatus) :
    Prop where
  sent : .chkptApp ∈ messages → RanAll info (a.log.drop mark)
  vouched : Vouched info a (a.log.drop mark)
  order : InOrder info a (a.log.drop mark)

/-- There is a message, and the first one is true of the calls since the request. -/
def FirstTrue (info : CrCbInfo F) (log : List Event) (messages : List CrCbStatus) : Prop :=
  ∃ m rest, messages = m :: rest ∧ (m = .chkptApp → RanAll info log)

/-- What matters of the record of the worker: without it no checkpoint callback is left to it. -/
def Threaded (info : CrCbInfo F) (threadRunning : Bool) : Prop :=
  threadRunning = false →
    ∀ idx < cbCountRead .chkpt info.crCbCount, (info.entry .chkpt idx).runsIn .thread = false

instance (info : CrCbInfo F) (threadRunning : Bool) : Decidable (Threaded info threadRunning) :=
  inferInstanceAs (Decidable (threadRunning = false → ∀ idx < cbCountRead .chkpt info.crCbCount,
    (info.entry .chkpt idx).runsIn .thread = false))

/-- What has run stays run. -/
theorem RanBelow.append {info : CrCbInfo F} {context : CrCbContext} {n : ℕ} {log : List Event}
    (h : RanBelow info context n log) (events : List Event) :
    RanBelow info context n (log ++ events) :=
  fun idx hidx hruns => (h idx hidx hruns).trans (List.sublist_append_left log events)

/-- What has run everywhere stays run. -/
theorem RanAll.append {info : CrCbInfo F} {log : List Event} (h : RanAll info log)
    (events : List Event) : RanAll info (log ++ events) :=
  fun context => (h context).append events

/-- A callback that was called and now returns zero has run. -/
theorem ran_of_called {context : CrCbContext} {idx : ℕ} {log : List Event}
    (h : .called context .chkpt idx ∈ log) :
    Ran context idx (log ++ [.returned context .chkpt idx 0]) := by
  have hcalled : [Event.called context .chkpt idx].Sublist log := List.singleton_sublist.mpr h
  exact hcalled.append (List.Sublist.refl [Event.returned context .chkpt idx 0])

/-- One more callback has run, or there was none of the context at its index. -/
theorem RanBelow.succ {info : CrCbInfo F} {context : CrCbContext} {n : ℕ} {log : List Event}
    (h : RanBelow info context n log)
    (hn : (info.entry .chkpt n).runsIn context = true → Ran context n log) :
    RanBelow info context (n + 1) log := by
  intro idx hidx hruns
  rcases Nat.lt_succ_iff_lt_or_eq.mp hidx with hlt | rfl
  · exact h idx hlt hruns
  · exact hn hruns

/-- The first message stays first, and true. -/
theorem FirstTrue.append {info : CrCbInfo F} {log : List Event} {messages : List CrCbStatus}
    (h : FirstTrue info log messages) (events : List Event) (new : List CrCbStatus) :
    FirstTrue info (log ++ events) (messages ++ new) := by
  obtain ⟨m, rest, rfl, hm⟩ := h
  exact ⟨m, rest ++ new, rfl, fun hsuccess => (hm hsuccess).append events⟩

/-- Where all messages are trusted the first one is. -/
theorem Trusted.firstTrue {info : CrCbInfo F} {a : App F} {mark : ℕ} {m : CrCbStatus}
    {rest : List CrCbStatus} (h : Trusted info a mark (m :: rest)) :
    FirstTrue info (a.log.drop mark) (m :: rest) :=
  ⟨m, rest, rfl, fun hsuccess => h.sent (hsuccess ▸ List.mem_cons_self)⟩

/-- Taking the first message leaves messages that are trusted. -/
theorem Trusted.tail {info : CrCbInfo F} {a : App F} {mark : ℕ} {m : CrCbStatus}
    {rest : List CrCbStatus} (h : Trusted info a mark (m :: rest)) : Trusted info a mark rest :=
  ⟨fun hmem => h.sent (List.mem_cons_of_mem m hmem), h.vouched, h.order⟩

/-- A quiet application and a queue without success are trusted by every request. -/
theorem App.Quiet.trusted {a : App F} (h : a.Quiet) (info : CrCbInfo F) (mark : ℕ)
    {messages : List CrCbStatus} (hmessages : .chkptApp ∉ messages) :
    Trusted info a mark messages := by
  obtain ⟨hhandler, hworker, hbetween⟩ := h
  refine ⟨fun hmem => absurd hmem hmessages, fun hverdict => ?_, Or.inl hbetween⟩
  simp [hhandler, hworker] at hverdict

/-- The worker sends the verdict that it was about to send. -/
theorem WorkerMoves.message_eq {r : ℤ} {g : Globals F} {pc : WorkerPc} {m : Move F WorkerPc}
    (h : WorkerMoves r g pc m) : m.message = pc.verdict := by
  cases h <;> rfl

/-- The handler sends the verdict that it was about to send. -/
theorem HandlerMoves.message_eq {ret : ℕ → ℤ} {g : Globals F} {pc : HandlerPc}
    {m : Move F HandlerPc} (h : HandlerMoves ret g pc m) : m.message = pc.verdict := by
  cases h <;> rfl

/-- Without a checkpoint hook the worker comes to no verdict. -/
theorem WorkerMoves.verdict_ne_of_other {r : ℤ} {g : Globals F} {pc : WorkerPc}
    {m : Move F WorkerPc} (h : WorkerMoves r g pc m) (hhook : g.currentHook ≠ some .chkpt) :
    m.pc.verdict ≠ some .chkptApp := by
  cases h with
  | report hmessage => simp [workerMessage, hhook] at hmessage
  | _ => simp [WorkerPc.verdict]

/-- Without a checkpoint hook the handler comes to no verdict. -/
theorem HandlerMoves.verdict_ne_of_other {ret : ℕ → ℤ} {g : Globals F} {pc : HandlerPc}
    {m : Move F HandlerPc} (h : HandlerMoves ret g pc m) (hhook : g.currentHook ≠ some .chkpt) :
    m.pc.verdict ≠ some .chkptApp := by
  cases h with
  | report hmessage => simp [handlerMessage, hhook] at hmessage
  | _ => simp [HandlerPc.verdict]

/-- An idle worker stays idle, calls nothing and has nothing to send. -/
theorem App.WorkerIdle.afterWorker {a : App F} (h : a.WorkerIdle) {r : ℤ} {m : Move F WorkerPc}
    (hm : WorkerMoves r a.globals a.worker m) :
    (a.afterWorker m).WorkerIdle ∧ m.events = [] ∧ m.pc.verdict = none := by
  obtain ⟨g, handler, worker, log, signals, passes⟩ := a
  simp only [App.WorkerIdle] at h
  cases hm with
  | start => exact ⟨Or.inr (by simpa [App.afterWorker, WorkerPc.waits] using h), rfl, rfl⟩
  | stay => exact ⟨Or.inr (by simpa [App.afterWorker, WorkerPc.waits] using h), rfl, rfl⟩
  | leave => exact ⟨Or.inl rfl, rfl, rfl⟩
  | lock hfree => simp_all
  | _ => simp [WorkerPc.waits] at h

/-- An idle worker has made no progress that its steps would have to account for. -/
theorem App.WorkerIdle.workerProgress {a : App F} (h : a.WorkerIdle) (info : CrCbInfo F)
    (log : List Event) : WorkerProgress info log a.worker := by
  rcases h with hended | ⟨-, hwaits⟩
  · rw [hended]
    trivial
  · cases hworker : a.worker <;> rw [hworker] at hwaits <;> trivial

/-- An entry that a pass calls is registered. -/
theorem CrCbInfo.registered_of_runsIn {info : CrCbInfo F} {context : CrCbContext} {idx : ℕ}
    (hidx : idx < cbCountRead .chkpt info.crCbCount)
    (hruns : (info.entry .chkpt idx).runsIn context = true) :
    (info.registered .chkpt)[idx]? = some (info.entry .chkpt idx) := by
  rw [CrCbInfo.registered, List.getElem?_take_of_lt hidx]
  cases hentry : (info.table .chkpt)[idx]? with
  | none =>
    rw [CrCbInfo.entry, hentry] at hruns
    cases context <;> simp [CrCbCallback.runsIn, CrCbCallback.zero] at hruns
  | some cb => simp [CrCbInfo.entry, hentry]

/-- A pass of the handler that returns zero has run all its callbacks. -/
theorem ranIn_signal {info : CrCbInfo F} {g : Globals F} (hhook : g.currentHook = some .chkpt)
    {ret : ℕ → ℤ} (hzero : (runEntries .signal ret 0 (info.registered .chkpt)).2 = 0)
    (log : List Event) :
    RanIn info .signal
      (log ++ signalEvents g ret (runEntries .signal ret 0 (info.registered .chkpt)).1) := by
  intro idx hidx hruns
  have hentry := CrCbInfo.registered_of_runsIn hidx hruns
  have hcalled := mem_runEntries_of_zero .signal ret 0 hzero hentry hruns
  have hret : ret idx = 0 := by
    by_contra hret
    exact (runEntries_ne_zero_iff .signal ret 0 _).mpr
      ⟨idx, _, hentry, hruns, by simpa using hret⟩ hzero
  obtain ⟨before, after, hcalls⟩ := List.append_of_mem hcalled
  rw [Nat.zero_add] at hcalls
  simp only [signalEvents, hhook, hcalls, List.flatMap_append, List.flatMap_cons, hret]
  refine List.Sublist.trans ?_ (List.sublist_append_right _ _)
  refine List.Sublist.trans ?_ (List.sublist_append_right _ _)
  exact List.sublist_append_left _ _

/-- The worker goes on with the round, and a verdict of success that it comes to is true. -/
theorem workerProgress_afterWorker {info : CrCbInfo F} {g : Globals F} {pc : WorkerPc}
    {log : List Event} (hinfo : g.info = some info) (hhook : g.currentHook = some .chkpt)
    (hsignal : RanIn info .signal log) (h : WorkerProgress info log pc) {r : ℤ}
    {m : Move F WorkerPc} (hm : WorkerMoves r g pc m) :
    WorkerProgress info (log ++ m.events) m.pc ∧
      (m.pc.verdict = some .chkptApp → RanAll info (log ++ m.events)) := by
  have hcurrent {hook : CrCbHook} (h : g.currentHook = some hook) : hook = .chkpt :=
    Option.some.inj (h.symm.trans hhook)
  have hsame {info' : CrCbInfo F} (h : g.info = some info') : info' = info :=
    Option.some.inj (h.symm.trans hinfo)
  cases hm with
  | enter hhook' =>
    obtain rfl := hcurrent hhook'
    exact ⟨⟨rfl, fun idx hidx => absurd hidx (Nat.not_lt_zero idx)⟩, by simp [WorkerPc.verdict]⟩
  | @call p info' hook hinfo' hhook' hidx hruns =>
    obtain ⟨htable, hran⟩ := h
    refine ⟨⟨htable, hran.append _, ?_⟩, by simp [WorkerPc.verdict]⟩
    simp [htable]
  | @skip p info' hook hinfo' hhook' hidx hruns =>
    obtain ⟨htable, hran⟩ := h
    obtain rfl := hsame hinfo'
    refine ⟨⟨htable, ?_⟩, by simp [WorkerPc.verdict]⟩
    rw [List.append_nil]
    exact hran.succ fun hruns' => by simp [htable, hruns'] at hruns
  | @finish p info' hook hinfo' hhook' hidx =>
    obtain ⟨htable, hran⟩ := h
    obtain rfl := hsame hinfo'
    obtain rfl := hcurrent hhook'
    refine ⟨fun _ idx hlt => ?_, by simp [WorkerPc.verdict]⟩
    rw [List.append_nil]
    exact hran idx (lt_of_lt_of_le hlt hidx)
  | fail hr => exact ⟨fun hzero => absurd hzero hr, by simp [WorkerPc.verdict]⟩
  | @next p hr =>
    obtain ⟨htable, hran, hcalled⟩ := h
    refine ⟨⟨htable, (hran.append _).succ fun _ => ?_⟩, by simp [WorkerPc.verdict]⟩
    simpa [htable, hr] using ran_of_called hcalled
  | @report r' verdict hmessage =>
    refine ⟨trivial, fun hsuccess => ?_⟩
    obtain rfl : verdict = .chkptApp := Option.some.inj hsuccess
    have hzero : r' = 0 := by
      by_contra hr
      simp [workerMessage, hhook, hr] at hmessage
    rw [List.append_nil]
    intro context
    cases context with
    | signal => exact hsignal
    | thread => exact h hzero
  | unknown hnone => exact absurd (hnone.symm.trans hhook) (by simp)
  | lost hnone => exact absurd (hnone.symm.trans hhook) (by simp)
  | _ => exact ⟨trivial, by simp [WorkerPc.verdict]⟩

/-- While the handler is running, the worker is idle and leaves the round as it is. -/
theorem RoundProgress.afterWorker {info : CrCbInfo F} {a : App F} {log : List Event}
    {pc : HandlerPc} (hpc : pc ≠ .idle) (h : RoundProgress info a log pc) {r : ℤ}
    {m : Move F WorkerPc} (hm : WorkerMoves r a.globals a.worker m) :
    RoundProgress info (a.afterWorker m) log pc ∧ m.events = [] ∧ m.pc.verdict = none := by
  obtain ⟨-, hrunning, -⟩ := hm.frame
  have hidle : a.WorkerIdle := by
    cases pc with
    | idle => exact absurd rfl hpc
    | running => exact h
    | tested r' => exact h.1
    | sending verdict => exact h
    | waking => exact h.1
  obtain ⟨hidle', hevents, hverdict⟩ := hidle.afterWorker hm
  refine ⟨?_, hevents, hverdict⟩
  cases pc with
  | idle => exact absurd rfl hpc
  | running => exact hidle'
  | tested r' => exact ⟨hidle', h.2⟩
  | sending verdict => exact hidle'
  | waking => exact ⟨hidle', fun hrun => h.2 (hrunning.symm.trans hrun)⟩

/-- A step of the worker keeps the application in order, and a verdict of success that the worker
comes to is true. -/
theorem InOrder.afterWorker {info : CrCbInfo F} {a : App F} {log : List Event}
    (h : InOrder info a log) (hinfo : a.globals.info = some info) {r : ℤ} {m : Move F WorkerPc}
    (hm : WorkerMoves r a.globals a.worker m) :
    InOrder info (a.afterWorker m) (log ++ m.events) ∧
      (m.pc.verdict = some .chkptApp → RanAll info (log ++ m.events)) := by
  obtain ⟨-, -, hhook⟩ := hm.frame
  rcases h with (hother | ⟨hhandler, hidle⟩) | ⟨hround, hprogress⟩
  · refine ⟨Or.inl (Or.inl (by simpa [App.afterWorker, hhook] using hother)), fun hsuccess => ?_⟩
    exact absurd hsuccess (hm.verdict_ne_of_other hother)
  · obtain ⟨hidle', -, hverdict⟩ := hidle.afterWorker hm
    exact ⟨Or.inl (Or.inr ⟨hhandler, hidle'⟩), fun hsuccess => by simp [hverdict] at hsuccess⟩
  · have hround' : (a.afterWorker m).globals.currentHook = some .chkpt := hhook.trans hround
    by_cases hpc : a.handler = .idle
    · rw [hpc] at hprogress
      obtain ⟨hsignal, hworker⟩ := hprogress
      obtain ⟨hworker', hverdict⟩ := workerProgress_afterWorker hinfo hround hsignal hworker hm
      refine ⟨Or.inr ⟨hround', ?_⟩, hverdict⟩
      change RoundProgress info _ _ a.handler
      rw [hpc]
      exact ⟨hsignal.append _, hworker'⟩
    · obtain ⟨hprogress', hevents, hverdict⟩ := hprogress.afterWorker hpc hm
      rw [hevents, List.append_nil]
      exact ⟨Or.inr ⟨hround', hprogress'⟩, fun hsuccess => by simp [hverdict] at hsuccess⟩

/-- A step of the worker keeps all messages trusted, whether its own arrives or not. -/
theorem Trusted.afterWorker {info : CrCbInfo F} {a : App F} {mark : ℕ} {messages : List CrCbStatus}
    (h : Trusted info a mark messages) (hinfo : a.globals.info = some info)
    (hmark : mark ≤ a.log.length) {r : ℤ} {m : Move F WorkerPc}
    (hm : WorkerMoves r a.globals a.worker m) {new : List CrCbStatus}
    (hnew : new ⊆ m.message.toList) : Trusted info (a.afterWorker m) mark (messages ++ new) := by
  have hlog : (a.afterWorker m).log.drop mark = a.log.drop mark ++ m.events :=
    List.drop_append_of_le_length hmark
  obtain ⟨horder, hverdict⟩ := h.order.afterWorker hinfo hm
  refine ⟨fun hmem => ?_, ?_, hlog ▸ horder⟩
  · rw [hlog]
    rcases List.mem_append.mp hmem with hmem | hmem
    · exact (h.sent hmem).append _
    · refine (h.vouched (Or.inr ?_)).append _
      rw [← hm.message_eq]
      simpa using hnew hmem
  · rw [hlog]
    rintro (hhandler | hworker)
    · exact (h.vouched (Or.inl hhandler)).append _
    · exact hverdict hworker

/-- The verdict of the handler is a true one, since no checkpoint callback is left to a worker that
is not there. -/
theorem ranAll_of_handlerMessage {info : CrCbInfo F} {g : Globals F} {r : ℤ} {log : List Event}
    (hthreaded : Threaded info g.threadRunning) (hsignal : r = 0 → RanIn info .signal log)
    (hmessage : handlerMessage g r = some .chkptApp) : RanAll info log := by
  simp only [handlerMessage] at hmessage
  split at hmessage
  · split at hmessage
    · cases hmessage
    · rename_i hr
      split at hmessage
      · cases hmessage
      · rename_i hrunning
        intro context
        cases context with
        | signal => exact hsignal (not_not.mp hr)
        | thread =>
          intro idx hidx hruns
          have hnone := hthreaded (Bool.eq_false_of_not_eq_true hrunning) idx hidx
          exact absurd (hruns.symm.trans hnone) (by simp)
  · cases hmessage

/-- A step of the handler in a round goes on with it unless it is done with a report of failure next
to a worker, and a verdict of success that the handler comes to is true. -/
theorem RoundProgress.afterHandler {info : CrCbInfo F} {a : App F} {log : List Event}
    (h : RoundProgress info a log a.handler) (hinfo : a.globals.info = some info)
    (hhook : a.globals.currentHook = some .chkpt)
    (hthreaded : Threaded info a.globals.threadRunning) (hvouched : Vouched info a log)
    {ret : ℕ → ℤ} {m : Move F HandlerPc} (hm : HandlerMoves ret a.globals a.handler m) :
    ((a.handler = .sending .err → a.globals.threadRunning = false) →
        (a.afterHandler m).Between ∨ RoundProgress info (a.afterHandler m) (log ++ m.events) m.pc) ∧
      (m.pc.verdict = some .chkptApp → RanAll info (log ++ m.events)) := by
  obtain ⟨g, handler, worker, alog, signals, passes⟩ := a
  cases hm with
  | @pass calls r hcalls =>
    simp only at hinfo hhook
    simp only [runCallbacks, hinfo, hhook, Option.some.injEq] at hcalls
    obtain ⟨rfl, rfl⟩ := Prod.mk.inj hcalls
    refine ⟨fun _ => Or.inr ⟨h, fun hzero => ?_⟩, by simp [HandlerPc.verdict]⟩
    exact ranIn_signal hhook hzero log
  | @silent r hmessage =>
    obtain ⟨hidle, hsignal⟩ := h
    rw [List.append_nil]
    refine ⟨fun _ => Or.inr ⟨hidle, fun _ => hsignal ?_⟩, by simp [HandlerPc.verdict]⟩
    by_contra hr
    simp only at hhook
    simp [handlerMessage, hhook, hr] at hmessage
  | @report r verdict hmessage =>
    obtain ⟨hidle, hsignal⟩ := h
    rw [List.append_nil]
    refine ⟨fun _ => Or.inr hidle, fun hsuccess => ?_⟩
    exact ranAll_of_handlerMessage hthreaded hsignal (hmessage.trans hsuccess)
  | @send verdict =>
    rw [List.append_nil]
    refine ⟨fun hkept => Or.inr ⟨h, fun hrunning => ?_⟩, by simp [HandlerPc.verdict]⟩
    cases verdict with
    | err => exact absurd (hrunning.symm.trans (hkept rfl)) (by simp)
    | chkptApp => exact hvouched (Or.inl rfl) .signal
  | wake =>
    obtain ⟨hidle, hsignal⟩ := h
    rw [List.append_nil]
    refine ⟨fun _ => ?_, by simp [HandlerPc.verdict]⟩
    by_cases hrunning : g.threadRunning = true
    · exact Or.inr ⟨hsignal hrunning, hidle.workerProgress info log⟩
    · refine Or.inl (Or.inr ⟨rfl, ?_⟩)
      simpa [App.WorkerIdle, App.afterHandler, wakeWorker, hrunning] using hidle

/-- A step of the handler keeps the application in order unless it is done with a report of failure
next to a worker, and a verdict of success that the handler comes to is true. -/
theorem InOrder.afterHandler {info : CrCbInfo F} {a : App F} {log : List Event}
    (h : InOrder info a log) (hinfo : a.globals.info = some info)
    (hthreaded : Threaded info a.globals.threadRunning) (hvouched : Vouched info a log)
    {ret : ℕ → ℤ} {m : Move F HandlerPc} (hm : HandlerMoves ret a.globals a.handler m) :
    ((a.handler = .sending .err → a.globals.threadRunning = false) →
        InOrder info (a.afterHandler m) (log ++ m.events)) ∧
      (m.pc.verdict = some .chkptApp → RanAll info (log ++ m.events)) := by
  obtain ⟨-, -, hhook⟩ := hm.frame
  rcases h with (hother | ⟨hhandler, -⟩) | ⟨hround, hprogress⟩
  · refine ⟨fun _ => Or.inl (Or.inl (by simpa [App.afterHandler, hhook] using hother)), ?_⟩
    exact fun hsuccess => absurd hsuccess (hm.verdict_ne_of_other hother)
  · rw [hhandler] at hm
    cases hm
  · obtain ⟨hgoes, hverdict⟩ := hprogress.afterHandler hinfo hround hthreaded hvouched hm
    exact ⟨fun hkept => (hgoes hkept).imp_right fun h => ⟨hhook.trans hround, h⟩, hverdict⟩

/-- A step of the handler keeps all messages trusted unless it reports a failure next to a worker. -/
theorem Trusted.afterHandler {info : CrCbInfo F} {a : App F} {mark : ℕ} {messages : List CrCbStatus}
    (h : Trusted info a mark messages) (hinfo : a.globals.info = some info)
    (hthreaded : Threaded info a.globals.threadRunning) (hmark : mark ≤ a.log.length) {ret : ℕ → ℤ}
    {m : Move F HandlerPc} (hm : HandlerMoves ret a.globals a.handler m)
    (hkept : a.handler = .sending .err → a.globals.threadRunning = false)
    {new : List CrCbStatus} (hnew : new ⊆ m.message.toList) :
    Trusted info (a.afterHandler m) mark (messages ++ new) := by
  have hlog : (a.afterHandler m).log.drop mark = a.log.drop mark ++ m.events :=
    List.drop_append_of_le_length hmark
  obtain ⟨horder, hverdict⟩ := h.order.afterHandler hinfo hthreaded h.vouched hm
  refine ⟨fun hmem => ?_, ?_, hlog ▸ horder hkept⟩
  · rw [hlog]
    rcases List.mem_append.mp hmem with hmem | hmem
    · exact (h.sent hmem).append _
    · refine (h.vouched (Or.inl ?_)).append _
      rw [← hm.message_eq]
      simpa using hnew hmem
  · rw [hlog]
    rintro (hhandler | hworker)
    · exact hverdict hhandler
    · exact (h.vouched (Or.inr hworker)).append _

/-- Behind trusted messages a report of failure leaves a first one that is true. -/
theorem Trusted.report {info : CrCbInfo F} {a : App F} {mark : ℕ} {messages : List CrCbStatus}
    (h : Trusted info a mark messages) :
    FirstTrue info (a.log.drop mark) (messages ++ [.err]) := by
  cases messages with
  | nil => exact ⟨.err, [], rfl, by simp⟩
  | cons m rest => simpa using h.firstTrue.append [] [.err]

/-- Handling a signal keeps all messages trusted if the worker is idle when the hook becomes that of
a checkpoint. -/
theorem Trusted.afterDeliver {info : CrCbInfo F} {a : App F} {mark : ℕ} {messages : List CrCbStatus}
    (h : Trusted info a mark messages) {hook : CrCbHook} (hidle : hook = .chkpt → a.WorkerIdle) :
    Trusted info (a.afterDeliver hook) mark messages := by
  refine ⟨h.sent, ?_, ?_⟩
  · rintro (hhandler | hworker)
    · cases hhandler
    · exact h.vouched (Or.inr hworker)
  · by_cases hhook : hook = .chkpt
    · exact Or.inr ⟨congrArg some hhook, hidle hhook⟩
    · exact Or.inl (Or.inl (by simpa [App.afterDeliver] using hhook))

end Kerrighed.Krgcb
