import Kerrighed.Krgcb.Rounds

/-!
# Requests for a checkpoint round

Requests for the same application share one message queue, named by its pid. A request opens
the queue, sends the signal, takes one message and removes the queue. Nothing ties a message to
the request it answers: a request that is interrupted leaves its verdict behind, and a late
worker sends one for an earlier round. The application handles one signal at a time, in one of
its threads.

The requests are all answered truly when each sends its signal with no success in the queue and
no round going on, checkpoint signals are handled while the worker is blocked, and a report of
failure next to a worker reaches the queue with at most one request waiting on it.
-/

namespace Kerrighed.Krgcb

open Kerrighed.Common

variable {F : Type}

/-- What an application has registered before the first request, and whether it has a worker. -/
structure Application (F : Type) where
  info : CrCbInfo F
  threadRunning : Bool
  worker : Bool
  threaded : Threaded info threadRunning

/-- The application before its first signal. -/
def Application.start (x : Application F) : App F :=
  { globals := ⟨some x.info, x.threadRunning, none, x.threadRunning⟩
    handler := .idle
    worker := if x.worker then .starting else .ended
    log := []
    signals := []
    passes := [] }

/-- Where a request is: before its signal, in `msgrcv`, before the removal of the queue, and at its
end. The mark is the length of the log when it sent its signal. -/
inductive Requester where
  | opened (msqid : ℕ)
  | waiting (msqid : ℕ) (mark : ℕ)
  | received (msqid : ℕ) (mark : ℕ) (mtype : CrCbStatus)
  | returned (r : ℤ) (mark : ℕ)
  deriving DecidableEq, Repr

/-- The queue of a request that has not sent its signal. -/
def Requester.opens : Requester → Option ℕ
  | .opened msqid => some msqid
  | _ => none

/-- The request waits for a message of the queue. -/
def Requester.waitsOn (msqid : ℕ) : Requester → Bool
  | .waiting q _ => q = msqid
  | _ => false

/-- The message queue whose key is the pid of the application. -/
structure MessageQueue where
  msqid : ℕ
  messages : List CrCbStatus
  deriving DecidableEq, Repr

/-- The application, the signals that are pending for it, its queue, the next identifier of a queue,
and the requests made so far. -/
structure System (F : Type) where
  app : App F
  pending : List CrCbHook
  queue : Option MessageQueue
  nextId : ℕ
  requesters : List Requester

/-- Before the first request there is no queue. -/
def System.start (x : Application F) : System F := ⟨x.start, [], none, 0, []⟩

/-- The messages of a queue, unless it has been removed. -/
def System.messages (s : System F) (msqid : ℕ) : Option (List CrCbStatus) :=
  s.queue.bind fun q => if q.msqid = msqid then some q.messages else none

/-- The system after a request has gone on. -/
def System.setRequester (s : System F) (i : ℕ) (x : Requester) : System F :=
  { s with requesters := s.requesters.set i x }

/-- The system after a new request has begun. -/
def System.addRequester (s : System F) (x : Requester) : System F :=
  { s with requesters := s.requesters ++ [x] }

/-- The queue after a thread has come out of `send_message`, which may fail in either call. -/
def sendMessage (queue : Option MessageQueue) (message : Option CrCbStatus) (sent : Bool) :
    Option MessageQueue :=
  queue.map fun q => { q with messages := q.messages ++ if sent then message.toList else [] }

/-- A system call of a request with its success, the signal of another request than for a
checkpoint, the delivery of a pending signal, or a step of a thread of the application with the
success of the message it may send. -/
inductive RequestLabel where
  | msgget (ok : Bool)
  | kill (i : ℕ) (ok : Bool)
  | msgrcv (i : ℕ) (ok : Bool)
  | msgctl (i : ℕ) (ok : Bool)
  | signal (hook : CrCbHook)
  | deliver (k : ℕ)
  | handler (ret : ℕ → ℤ) (sent : Bool)
  | worker (r : ℤ) (sent : Bool)

/-- One step of the requests, the kernel and the application. -/
def requestStep (s : System F) : RequestLabel → Option (System F)
  | .msgget ok =>
    if ok then
      match s.queue with
      | some q => some (s.addRequester (.opened q.msqid))
      | none =>
        some { s.addRequester (.opened s.nextId) with
          queue := some ⟨s.nextId, []⟩
          nextId := s.nextId + 1 }
    else some (s.addRequester (.returned (-1) s.app.log.length))
  | .kill i ok =>
    match s.requesters[i]? with
    | some (.opened msqid) =>
      if ok then
        some { s.setRequester i (.waiting msqid s.app.log.length) with
          pending := s.pending ++ [.chkpt] }
      else some (s.setRequester i (.returned (-1) s.app.log.length))
    | _ => none
  | .msgrcv i ok =>
    match s.requesters[i]? with
    | some (.waiting msqid mark) =>
      match ok, s.messages msqid with
      | true, some (m :: rest) =>
        some { s.setRequester i (.received msqid mark m) with queue := some ⟨msqid, rest⟩ }
      | true, some [] => none
      | _, _ => some (s.setRequester i (.returned (-1) mark))
    | _ => none
  | .msgctl i ok =>
    match s.requesters[i]? with
    | some (.received msqid mark m) =>
      match ok, s.messages msqid with
      | true, some _ =>
        some { s.setRequester i (.returned (if m = .err then -1 else 0) mark) with queue := none }
      | _, _ => some (s.setRequester i (.returned (-1) mark))
    | _ => none
  | .signal hook => if hook = .chkpt then none else some { s with pending := s.pending ++ [hook] }
  | .deliver k => do
    let hook ← s.pending[k]?
    let (a, _) ← appStep s.app (.deliver hook)
    some { s with app := a, pending := s.pending.eraseIdx k }
  | .handler ret sent => do
    let (a, message) ← appStep s.app (.handler ret)
    some { s with app := a, queue := sendMessage s.queue message sent }
  | .worker r sent => do
    let (a, message) ← appStep s.app (.worker r)
    some { s with app := a, queue := sendMessage s.queue message sent }

/-- A request that has returned zero has had all checkpoint callbacks run since its signal. -/
def Requester.Agrees (info : CrCbInfo F) (log : List Event) : Requester → Prop
  | .returned r mark => r = 0 → RanAll info (log.drop mark)
  | _ => True

/-- The requests and the application agree on every round. -/
def Agreement (s : System F) : Prop :=
  match s.app.globals.info with
  | none => True
  | some info => ∀ x ∈ s.requesters, x.Agrees info s.app.log

instance (info : CrCbInfo F) (log : List Event) : DecidablePred (Requester.Agrees info log)
  | .returned r mark => inferInstanceAs (Decidable (r = 0 → RanAll info (log.drop mark)))
  | .opened _ | .waiting _ _ | .received _ _ _ => inferInstanceAs (Decidable True)

instance : DecidablePred (Agreement (F := F)) := fun s =>
  match h : s.app.globals.info with
  | none => isTrue (by simp [Agreement, h])
  | some info =>
    decidable_of_iff (∀ x ∈ s.requesters, x.Agrees info s.app.log) (by simp [Agreement, h])

/-- The number of requests that wait on a queue. -/
def System.waiters (s : System F) (msqid : ℕ) : ℕ := s.requesters.countP (·.waitsOn msqid)

/-- The queue holds no success and no round is going on, or the queue is gone. -/
def System.CleanFor (s : System F) (msqid : ℕ) : Prop :=
  ∀ messages ∈ s.messages msqid, .chkptApp ∉ messages ∧ s.app.Quiet

instance (s : System F) (msqid : ℕ) : Decidable (s.CleanFor msqid) :=
  inferInstanceAs (Decidable (∀ messages ∈ s.messages msqid, .chkptApp ∉ messages ∧ s.app.Quiet))

/-- A request sends its signal when the queue is clean, checkpoint signals are handled while the
worker is idle, and a handler that reports a failure next to a worker does so in a queue that at
most one request waits on. -/
def RequestCondition (s : System F) : RequestLabel → Prop
  | .kill i ok =>
    ok = true → ∀ x ∈ s.requesters[i]?, ∀ msqid ∈ x.opens, s.CleanFor msqid
  | .deliver k => s.pending[k]? = some .chkpt → s.app.WorkerIdle
  | .handler _ sent =>
    s.app.handler = .sending .err → s.app.globals.threadRunning = true →
      sent = true ∧ ∀ q ∈ s.queue, s.waiters q.msqid ≤ 1
  | _ => True

instance : ∀ (s : System F) l, Decidable (RequestCondition s l)
  | s, .kill i ok => inferInstanceAs (Decidable (ok = true → ∀ x ∈ s.requesters[i]?,
      ∀ msqid ∈ x.opens, s.CleanFor msqid))
  | s, .deliver k => inferInstanceAs (Decidable (s.pending[k]? = some .chkpt → s.app.WorkerIdle))
  | s, .handler _ sent => inferInstanceAs (Decidable (s.app.handler = .sending .err →
      s.app.globals.threadRunning = true → sent = true ∧ ∀ q ∈ s.queue, s.waiters q.msqid ≤ 1))
  | _, .msgget _ | _, .msgrcv _ _ | _, .msgctl _ _ | _, .signal _ | _, .worker _ _ =>
    inferInstanceAs (Decidable True)

/-- What an application is known to have before its first signal: the worker is recorded, no hook is
set, and without `thread_running` no callback is for the worker. -/
structure BeforeSignals (p : Process F) : Prop where
  recorded : WorkerRecorded p
  unset : p.currentHook = none
  signalOnly : p.threadRunning = false → ∀ info, p.info = some info →
    ∀ hook, ∀ cb ∈ info.registered hook, cb.threadCb = false

/-- Registrations and forks keep what is known before the first signal. -/
theorem registerStep_beforeSignals {p q : Process F} {op : RegisterOp F} (h : BeforeSignals p)
    (hstep : registerStep p op = some q) : BeforeSignals q := by
  have hrecorded := registerStep_recorded h.recorded hstep
  cases op with
  | fork =>
    obtain rfl := Option.some.inj hstep
    exact ⟨hrecorded, h.unset, h.signalOnly⟩
  | register hook func arg context create =>
    obtain ⟨r, hcall⟩ := registerStep_register hstep
    obtain ⟨info, hinfo, ⟨-, -, -, -, rfl⟩ | ⟨p', hstarted, hq⟩⟩ := registerCallback_cases hcall
    · exact ⟨hrecorded, h.unset, by simp⟩
    · have hunset : p'.currentHook = none := by
        rcases hstarted with ⟨rfl, -⟩ | ⟨-, -, -, -, rfl⟩ <;> exact h.unset
      have hsignal (hrunning : p'.threadRunning = false) : p' = p ∧ context = .signal := by
        rcases hstarted with ⟨rfl, hneeded⟩ | ⟨-, -, -, -, rfl⟩
        · cases context with
          | signal => exact ⟨rfl, rfl⟩
          | thread => simp [hneeded rfl] at hrunning
        · simp at hrunning
      rcases hq with ⟨-, info', rfl, hregistered⟩ | ⟨-, rfl⟩
      · refine ⟨hrecorded, hunset, fun hrunning info'' hinfo'' hook' cb hcb => ?_⟩
        obtain rfl : info' = info'' := Option.some.inj hinfo''
        obtain ⟨rfl, rfl⟩ := hsignal hrunning
        rw [hregistered hook'] at hcb
        split at hcb
        · rcases List.mem_append.mp hcb with hcb | hcb
          · exact h.signalOnly hrunning info hinfo hook' cb hcb
          · simp [List.mem_singleton.mp hcb]
        · exact h.signalOnly hrunning info hinfo hook' cb hcb
      · refine ⟨hrecorded, hunset, fun hrunning => ?_⟩
        obtain ⟨rfl, -⟩ := hsignal hrunning
        exact h.signalOnly hrunning

/-- Every descendant of an initialized process that still has its registry is an application. -/
theorem exists_application (ops : List (RegisterOp F)) {p : Process F}
    (hrun : run registerStep .initialized ops = some p) {info : CrCbInfo F}
    (hinfo : p.info = some info) :
    ∃ x : Application F, x.info = info ∧ x.start.globals = p.toGlobals ∧
      (x.worker = true ↔ p.workers ≠ 0) := by
  have hinit : BeforeSignals (.initialized : Process F) :=
    ⟨fun _ => ⟨rfl, fun _ => rfl⟩, rfl, fun _ info' hinfo' hook cb hcb => by
      obtain rfl : CrCbInfo.zero = info' := Option.some.inj hinfo'
      simp at hcb⟩
  have h : BeforeSignals p :=
    (throughout_of_step (fun _ _ _ => registerStep_beforeSignals) hinit ops).finish hrun
  have hthreaded : Threaded info p.threadRunning := by
    intro hrunning idx hidx
    cases hruns : (info.entry .chkpt idx).runsIn .thread with
    | false => rfl
    | true =>
      have hmem := List.mem_of_getElem? (CrCbInfo.registered_of_runsIn hidx hruns)
      have hcb := h.signalOnly hrunning info hinfo .chkpt _ hmem
      simp [CrCbCallback.runsIn, hcb] at hruns
  refine ⟨⟨info, p.threadRunning, decide (p.workers ≠ 0), hthreaded⟩, rfl, ?_, by simp⟩
  obtain ⟨hmutex, -⟩ := h.recorded (by simp [hinfo])
  change (⟨some info, p.threadRunning, none, p.threadRunning⟩ : Globals F) = p.toGlobals
  rw [← hinfo, ← h.unset]
  nth_rewrite 2 [← hmutex]
  rfl

/-- What is known of one request. One that waits can trust all messages, or it waits alone and can
trust the first one. -/
def RequesterInv (info : CrCbInfo F) (s : System F) : Requester → Prop
  | .opened msqid => msqid < s.nextId
  | .waiting msqid mark =>
    msqid < s.nextId ∧ mark ≤ s.app.log.length ∧
      ∀ messages, s.messages msqid = some messages →
        Trusted info s.app mark messages ∨
          (s.waiters msqid ≤ 1 ∧ FirstTrue info (s.app.log.drop mark) messages)
  | .received _ mark m =>
    mark ≤ s.app.log.length ∧ (m = .chkptApp → RanAll info (s.app.log.drop mark))
  | .returned r mark =>
    mark ≤ s.app.log.length ∧ (r = 0 → RanAll info (s.app.log.drop mark))

/-- The invariant of the runs that meet the condition: the registry stays, identifiers are fresh, and
each request has been answered truly so far. -/
structure RequestInv (info : CrCbInfo F) (s : System F) : Prop where
  registry : s.app.globals.info = some info
  threaded : Threaded info s.app.globals.threadRunning
  fresh : ∀ q ∈ s.queue, q.msqid < s.nextId
  each : ∀ x ∈ s.requesters, RequesterInv info s x

/-- Requests that are answered truly agree with the application. -/
theorem RequestInv.agreement {info : CrCbInfo F} {s : System F} (h : RequestInv info s) :
    Agreement s := by
  simp only [Agreement, h.registry]
  intro x hx
  have heach := h.each x hx
  cases x with
  | returned r mark => exact heach.2
  | _ => trivial

/-- A queue has messages exactly if it is the one there is. -/
theorem System.messages_eq_some {s : System F} {msqid : ℕ} {messages : List CrCbStatus} :
    s.messages msqid = some messages ↔ s.queue = some ⟨msqid, messages⟩ := by
  cases hqueue : s.queue with
  | none => simp [System.messages, hqueue]
  | some q =>
    obtain ⟨id, ms⟩ := q
    by_cases hid : id = msqid <;> simp [System.messages, hqueue, hid]

/-- The messages after a thread has come out of `send_message`. -/
theorem messages_sendMessage (s : System F) (a : App F) (message : Option CrCbStatus) (sent : Bool)
    (msqid : ℕ) :
    ({ s with app := a, queue := sendMessage s.queue message sent } : System F).messages msqid =
      (s.messages msqid).map (· ++ if sent then message.toList else []) := by
  cases hqueue : s.queue with
  | none => simp [System.messages, sendMessage, hqueue]
  | some q =>
    by_cases hid : q.msqid = msqid <;> simp [System.messages, sendMessage, hqueue, hid]

/-- A message that is lost leaves the queue. -/
@[simp] theorem sendMessage_lost (queue : Option MessageQueue) (message : Option CrCbStatus) :
    sendMessage queue message false = queue := by
  cases queue <;> simp [sendMessage]

/-- How the number of waiting requests changes when one goes on. -/
theorem System.waiters_setRequester (s : System F) {i : ℕ} {x : Requester}
    (hi : s.requesters[i]? = some x) (y : Requester) (msqid : ℕ) :
    (s.setRequester i y).waiters msqid + (x.waitsOn msqid).toNat =
      s.waiters msqid + (y.waitsOn msqid).toNat := by
  obtain ⟨hlt, hget⟩ := List.getElem?_eq_some_iff.mp hi
  have hset := List.countP_set (p := (·.waitsOn msqid)) (a := y) hlt
  have hpos : x.waitsOn msqid = true → 0 < s.waiters msqid := fun hx =>
    List.countP_pos_iff.mpr ⟨x, List.mem_of_getElem? hi, hx⟩
  rw [hget] at hset
  simp only [System.waiters, System.setRequester] at hpos ⊢
  rw [hset]
  cases hx : x.waitsOn msqid with
  | false => cases y.waitsOn msqid <;> simp
  | true =>
    have hpos' := hpos hx
    cases y.waitsOn msqid <;> simp <;> omega

/-- Nobody waits on a queue without waiters. -/
theorem System.waiters_eq_zero {s : System F} {msqid : ℕ} :
    s.waiters msqid = 0 ↔ ∀ x ∈ s.requesters, x.waitsOn msqid = false := by
  simp [System.waiters, List.countP_eq_zero]

/-- What is known of a request only depends on the application, the queue, the identifiers and the
number of requests that wait. -/
theorem RequesterInv.mono {info : CrCbInfo F} {s t : System F} {x : Requester}
    (h : RequesterInv info s x) (happ : t.app = s.app) (hnext : s.nextId ≤ t.nextId)
    (hmessages : ∀ msqid, x.waitsOn msqid = true → ∀ messages, t.messages msqid = some messages →
      s.messages msqid = some messages ∧ t.waiters msqid ≤ s.waiters msqid) :
    RequesterInv info t x := by
  cases x with
  | opened msqid => exact Nat.lt_of_lt_of_le h hnext
  | waiting msqid mark =>
    obtain ⟨hid, hmark, htrust⟩ := h
    refine ⟨Nat.lt_of_lt_of_le hid hnext, happ ▸ hmark, fun messages hms => ?_⟩
    obtain ⟨hsame, hle⟩ := hmessages msqid (by simp [Requester.waitsOn]) messages hms
    rw [happ]
    exact (htrust messages hsame).imp_right fun ⟨halone, hfirst⟩ => ⟨hle.trans halone, hfirst⟩
  | received msqid mark m => exact ⟨happ ▸ h.1, happ ▸ h.2⟩
  | returned r mark => exact ⟨happ ▸ h.1, happ ▸ h.2⟩

/-- A request that goes on without beginning to wait keeps the invariant if it is answered truly. -/
theorem RequestInv.setRequester {info : CrCbInfo F} {s : System F} (h : RequestInv info s) {i : ℕ}
    {x y : Requester} (hi : s.requesters[i]? = some x) (hy : RequesterInv info s y)
    (hwaits : ∀ msqid, y.waitsOn msqid = false) : RequestInv info (s.setRequester i y) := by
  refine ⟨h.registry, h.threaded, h.fresh, fun z hz => ?_⟩
  have hz' : RequesterInv info s z := by
    rcases List.mem_or_eq_of_mem_set hz with hz | rfl
    · exact h.each z hz
    · exact hy
  refine hz'.mono rfl le_rfl fun msqid _ messages hms => ⟨hms, ?_⟩
  have hcount := s.waiters_setRequester hi y msqid
  rw [hwaits msqid, Bool.toNat_false] at hcount
  omega

/-- A new request that does not wait keeps the invariant if it is answered truly. -/
theorem RequestInv.addRequester {info : CrCbInfo F} {s : System F} (h : RequestInv info s)
    {x : Requester} (hx : RequesterInv info s x) (hwaits : ∀ msqid, x.waitsOn msqid = false) :
    RequestInv info (s.addRequester x) := by
  refine ⟨h.registry, h.threaded, h.fresh, fun y hy => ?_⟩
  have hy' : RequesterInv info s y := by
    rcases List.mem_append.mp hy with hy | hy
    · exact h.each y hy
    · rw [List.mem_singleton.mp hy]
      exact hx
  refine hy'.mono rfl le_rfl fun msqid _ messages hms => ⟨hms, ?_⟩
  simp [System.waiters, System.addRequester, hwaits msqid]

/-- The queue may change freely while nobody waits on it. -/
theorem RequestInv.setQueue {info : CrCbInfo F} {s : System F} (h : RequestInv info s)
    {queue : Option MessageQueue} {nextId : ℕ} (hnext : s.nextId ≤ nextId)
    (hfresh : ∀ q ∈ queue, q.msqid < nextId)
    (hwaits : ∀ q ∈ queue, ∀ x ∈ s.requesters, x.waitsOn q.msqid = false) :
    RequestInv info { s with queue := queue, nextId := nextId } := by
  refine ⟨h.registry, h.threaded, hfresh, fun x hx => ?_⟩
  refine (h.each x hx).mono rfl hnext fun msqid hwait messages hms => ?_
  have hnobody := hwaits _ (System.messages_eq_some.mp hms) x hx
  exact absurd (hwait.symm.trans hnobody) (by simp)

/-- A step of the application keeps the invariant if messages that are trusted stay so, or are sent
to one request that can trust the first of them. -/
theorem RequestInv.setApp {info : CrCbInfo F} {s : System F} (h : RequestInv info s) {a : App F}
    {events : List Event} (message : Option CrCbStatus) (sent : Bool)
    (hinfo : a.globals.info = s.app.globals.info)
    (hrunning : a.globals.threadRunning = s.app.globals.threadRunning)
    (hlog : a.log = s.app.log ++ events)
    (htrusted : ∀ mark msqid messages, mark ≤ s.app.log.length →
      s.messages msqid = some messages → Trusted info s.app mark messages →
        Trusted info a mark (messages ++ if sent then message.toList else []) ∨
          (s.waiters msqid ≤ 1 ∧
            FirstTrue info (a.log.drop mark) (messages ++ if sent then message.toList else []))) :
    RequestInv info { s with app := a, queue := sendMessage s.queue message sent } := by
  have hdrop {mark : ℕ} (hmark : mark ≤ s.app.log.length) :
      mark ≤ a.log.length ∧ a.log.drop mark = s.app.log.drop mark ++ events := by
    rw [hlog, List.length_append]
    exact ⟨hmark.trans (Nat.le_add_right _ _), List.drop_append_of_le_length hmark⟩
  have hran {mark : ℕ} (hmark : mark ≤ s.app.log.length)
      (hall : RanAll info (s.app.log.drop mark)) : RanAll info (a.log.drop mark) := by
    rw [(hdrop hmark).2]
    exact hall.append events
  refine ⟨hinfo.trans h.registry, ?_, ?_, fun x hx => ?_⟩
  · simpa only [hrunning] using h.threaded
  · intro q hq
    obtain ⟨q', hq', rfl⟩ := Option.map_eq_some_iff.mp hq
    exact h.fresh q' hq'
  · have heach := h.each x hx
    cases x with
    | opened msqid => exact heach
    | waiting msqid mark =>
      obtain ⟨hid, hmark, htrust⟩ := heach
      refine ⟨hid, (hdrop hmark).1, fun messages hms => ?_⟩
      rw [messages_sendMessage] at hms
      obtain ⟨before, hbefore, rfl⟩ := Option.map_eq_some_iff.mp hms
      rcases htrust before hbefore with htrust | ⟨halone, hfirst⟩
      · exact htrusted mark msqid before hmark hbefore htrust
      · refine Or.inr ⟨halone, ?_⟩
        rw [(hdrop hmark).2]
        exact hfirst.append _ _
    | received msqid mark m => exact ⟨(hdrop heach.1).1, fun hm => hran heach.1 (heach.2 hm)⟩
    | returned r mark => exact ⟨(hdrop heach.1).1, fun hr => hran heach.1 (heach.2 hr)⟩

/-- When a request sends its signal with a clean queue, all who wait on it trust the messages. -/
theorem RequestInv.kill {info : CrCbInfo F} {s : System F} (h : RequestInv info s) {i msqid : ℕ}
    (hi : s.requesters[i]? = some (.opened msqid)) (hclean : s.CleanFor msqid) :
    RequestInv info { s.setRequester i (.waiting msqid s.app.log.length) with
      pending := s.pending ++ [.chkpt] } := by
  have hlt : msqid < s.nextId := h.each _ (List.mem_of_getElem? hi)
  have htrusted (mark : ℕ) (messages : List CrCbStatus) (hms : s.messages msqid = some messages) :
      Trusted info s.app mark messages :=
    (hclean messages hms).2.trusted info mark (hclean messages hms).1
  refine ⟨h.registry, h.threaded, h.fresh, fun y hy => ?_⟩
  rcases List.mem_or_eq_of_mem_set hy with hy | rfl
  · have heach := h.each y hy
    cases y with
    | waiting msqid' mark =>
      obtain ⟨hid, hmark, htrust⟩ := heach
      refine ⟨hid, hmark, fun messages hms => ?_⟩
      by_cases heq : msqid' = msqid
      · exact Or.inl (htrusted mark messages (heq ▸ hms))
      · refine (htrust messages hms).imp_right fun ⟨halone, hfirst⟩ => ⟨?_, hfirst⟩
        have hcount := s.waiters_setRequester hi (.waiting msqid s.app.log.length) msqid'
        simp only [Requester.waitsOn, Ne.symm heq, decide_false, Bool.toNat_false] at hcount
        exact hcount.le.trans halone
    | _ => exact heach
  · exact ⟨hlt, le_rfl, fun messages hms => Or.inl (htrusted _ messages hms)⟩

/-- A request takes a message that is true for it, and those who still wait can trust the rest. -/
theorem RequestInv.msgrcv {info : CrCbInfo F} {s : System F} (h : RequestInv info s)
    {i msqid mark : ℕ} {m : CrCbStatus} {rest : List CrCbStatus}
    (hi : s.requesters[i]? = some (.waiting msqid mark))
    (hmessages : s.messages msqid = some (m :: rest)) :
    RequestInv info { s.setRequester i (.received msqid mark m) with queue := some ⟨msqid, rest⟩ } := by
  obtain ⟨hlt, hmark, htrust⟩ := h.each _ (List.mem_of_getElem? hi)
  have hfirst : FirstTrue info (s.app.log.drop mark) (m :: rest) :=
    (htrust _ hmessages).elim Trusted.firstTrue And.right
  have htrue : m = .chkptApp → RanAll info (s.app.log.drop mark) := by
    obtain ⟨m', rest', heq, hm'⟩ := hfirst
    obtain ⟨rfl, -⟩ := List.cons.inj heq
    exact hm'
  have hcount := s.waiters_setRequester hi (.received msqid mark m) msqid
  simp only [Requester.waitsOn, decide_true, Bool.toNat_true, Bool.toNat_false] at hcount
  refine ⟨h.registry, h.threaded, ?_, fun x hx => ?_⟩
  · rintro q ⟨⟩
    exact hlt
  · rcases List.mem_or_eq_of_mem_set hx with hold | rfl
    · have heach := h.each x hold
      cases x with
      | waiting msqid' mark' =>
        obtain ⟨hid, hmark', htrust'⟩ := heach
        refine ⟨hid, hmark', fun messages hms => ?_⟩
        obtain ⟨rfl, rfl⟩ := MessageQueue.mk.inj (Option.some.inj (System.messages_eq_some.mp hms))
        rcases htrust' _ hmessages with htrusted | ⟨halone, -⟩
        · exact Or.inl htrusted.tail
        · have hzero : (s.setRequester i (.received msqid mark m)).waiters msqid = 0 := by omega
          have hnobody := System.waiters_eq_zero.mp hzero _ hx
          simp [Requester.waitsOn] at hnobody
      | _ => exact heach
    · exact ⟨hmark, htrue⟩

/-- A failed system call ends a request without a claim about the round. -/
theorem RequestInv.giveUp {info : CrCbInfo F} {s : System F} (h : RequestInv info s) {i mark : ℕ}
    {x : Requester} (hi : s.requesters[i]? = some x) (hmark : mark ≤ s.app.log.length) :
    RequestInv info (s.setRequester i (.returned (-1) mark)) :=
  h.setRequester hi ⟨hmark, by simp⟩ fun _ => rfl

/-- Opening the queue, or creating it, keeps the invariant. -/
theorem RequestInv.msgget {info : CrCbInfo F} {s t : System F} (h : RequestInv info s) {ok : Bool}
    (hstep : requestStep s (.msgget ok) = some t) : RequestInv info t := by
  cases ok with
  | false =>
    obtain rfl := Option.some.inj hstep
    exact h.addRequester ⟨le_rfl, by simp⟩ fun _ => rfl
  | true =>
    cases hqueue : s.queue with
    | some q =>
      simp only [requestStep, hqueue, if_true, Option.some.injEq] at hstep
      subst hstep
      exact h.addRequester (h.fresh q hqueue) fun _ => rfl
    | none =>
      simp only [requestStep, hqueue, if_true, Option.some.injEq] at hstep
      subst hstep
      have hcreate : RequestInv info
          { s with queue := some ⟨s.nextId, []⟩, nextId := s.nextId + 1 } := by
        refine h.setQueue (Nat.le_succ _) (fun q hq => ?_) fun q hq x hx => ?_
        · obtain rfl : ⟨s.nextId, []⟩ = q := Option.some.inj hq
          exact Nat.lt_succ_self _
        · obtain rfl : ⟨s.nextId, []⟩ = q := Option.some.inj hq
          have heach := h.each x hx
          cases x with
          | waiting msqid mark => simpa [Requester.waitsOn] using heach.1.ne
          | _ => rfl
      exact hcreate.addRequester (x := .opened s.nextId) (Nat.lt_succ_self _) fun _ => rfl

/-- Every step that meets the condition keeps the invariant. -/
theorem requestStep_inv {info : CrCbInfo F} {s t : System F} {l : RequestLabel}
    (h : RequestInv info s) (hcond : RequestCondition s l) (hstep : requestStep s l = some t) :
    RequestInv info t := by
  cases l with
  | msgget ok => exact h.msgget hstep
  | kill i ok =>
    simp only [requestStep] at hstep
    split at hstep
    · rename_i msqid hi
      split at hstep <;> cases hstep
      · exact h.kill hi (hcond ‹_› _ hi _ rfl)
      · exact h.giveUp hi le_rfl
    · cases hstep
  | msgrcv i ok =>
    simp only [requestStep] at hstep
    split at hstep
    · rename_i msqid mark hi
      split at hstep <;> cases hstep
      · rename_i hmessages
        exact h.msgrcv hi hmessages
      · exact h.giveUp hi (h.each _ (List.mem_of_getElem? hi)).2.1
    · cases hstep
  | msgctl i ok =>
    simp only [requestStep] at hstep
    split at hstep
    · rename_i msqid mark m hi
      obtain ⟨hmark, htrue⟩ := h.each _ (List.mem_of_getElem? hi)
      split at hstep <;> cases hstep
      · have hreturned : RequesterInv info s (.returned (if m = .err then -1 else 0) mark) := by
          refine ⟨hmark, fun hzero => htrue ?_⟩
          cases m with
          | chkptApp => rfl
          | err => simp at hzero
        exact (h.setRequester hi hreturned fun _ => rfl).setQueue le_rfl (by simp) (by simp)
      · exact h.giveUp hi hmark
    · cases hstep
  | signal hook =>
    simp only [requestStep] at hstep
    split at hstep <;> cases hstep
    exact ⟨h.registry, h.threaded, h.fresh, h.each⟩
  | deliver k =>
    obtain ⟨hook, hk, hstep⟩ := Option.bind_eq_some_iff.mp hstep
    obtain ⟨⟨a, message⟩, happ, hstep⟩ := Option.bind_eq_some_iff.mp hstep
    simp only [appStep] at happ
    split at happ <;> cases happ
    cases hstep
    have hlog : (s.app.afterDeliver hook).log = s.app.log ++ [] := (List.append_nil _).symm
    have hsame := h.setApp (a := s.app.afterDeliver hook) none false rfl rfl hlog
      fun mark msqid messages _ _ htrusted => Or.inl (by
        simpa using htrusted.afterDeliver fun hhook => hcond (hhook ▸ hk))
    rw [sendMessage_lost] at hsame
    exact ⟨hsame.registry, hsame.threaded, hsame.fresh, hsame.each⟩
  | handler ret sent =>
    obtain ⟨⟨a, message⟩, happ, hstep⟩ := Option.bind_eq_some_iff.mp hstep
    obtain ⟨m, hm, happ⟩ := Option.bind_eq_some_iff.mp happ
    cases happ
    cases hstep
    have hmoves := handlerMoves_of_step hm
    obtain ⟨hinfo, hrunning, -⟩ := hmoves.frame
    refine h.setApp _ _ hinfo hrunning rfl fun mark msqid messages hmark hms htrusted => ?_
    by_cases hreport : s.app.handler = .sending .err ∧ s.app.globals.threadRunning = true
    · obtain ⟨hsending, hthread⟩ := hreport
      obtain ⟨rfl, halone⟩ := hcond hsending hthread
      refine Or.inr ⟨halone _ (System.messages_eq_some.mp hms), ?_⟩
      have hreported : m.message = some .err := by
        rw [hmoves.message_eq, hsending]
        rfl
      have hlog : (s.app.afterHandler m).log.drop mark = s.app.log.drop mark ++ m.events :=
        List.drop_append_of_le_length hmark
      simpa [hreported, hlog] using htrusted.report.append m.events []
    · refine Or.inl (htrusted.afterHandler h.registry h.threaded hmark hmoves ?_ ?_)
      · exact fun hsending => by simpa [hsending] using hreport
      · cases sent <;> simp
  | worker r sent =>
    obtain ⟨⟨a, message⟩, happ, hstep⟩ := Option.bind_eq_some_iff.mp hstep
    obtain ⟨m, hm, happ⟩ := Option.bind_eq_some_iff.mp happ
    cases happ
    cases hstep
    have hmoves := workerMoves_of_step hm
    obtain ⟨hinfo, hrunning, -⟩ := hmoves.frame
    refine h.setApp _ _ hinfo hrunning rfl fun mark msqid messages hmark _ htrusted => ?_
    exact Or.inl (htrusted.afterWorker h.registry hmark hmoves (by cases sent <;> simp))

/-- In a run all of whose steps meet the condition, a request returns zero only after every
checkpoint callback has run and returned zero since that request sent its signal. -/
theorem agreement_throughout (x : Application F) (labels : List RequestLabel)
    (h : Along requestStep RequestCondition (.start x) labels) :
    Throughout requestStep Agreement (.start x) labels := by
  have hstart : RequestInv x.info (.start x) :=
    ⟨rfl, x.threaded, by simp [System.start], by simp [System.start]⟩
  exact (throughout_of_along (fun _ _ _ => requestStep_inv) hstart labels h).mono
    fun _ => RequestInv.agreement

/-- An application with a checkpoint callback in each context and a worker. -/
def bothContexts : Application Unit where
  info := (CrCbInfo.zero.append .chkpt ⟨some (), 0, false⟩).append .chkpt ⟨some (), 0, true⟩
  threadRunning := true
  worker := true
  threaded := by decide

/-- Two requests wait at once; one takes the verdict of the round and removes the queue of both. -/
theorem concurrent_requests_agree :
    Throughout requestStep Agreement (.start bothContexts)
      [.worker 0 true, .worker 0 true, .msgget true, .msgget true, .kill 0 true, .kill 1 true,
        .deliver 0, .handler (fun _ => 0) true, .handler (fun _ => 0) true,
        .handler (fun _ => 0) true, .worker 0 true, .worker 0 true, .worker 0 true, .worker 0 true,
        .worker 0 true, .worker 0 true, .worker 0 true, .worker 0 true, .msgrcv 1 true,
        .msgctl 1 true, .msgrcv 0 true] :=
  agreement_throughout _ _ (by decide)

/-- An application with a checkpoint callback in signal context and no worker. -/
def signalOnly : Application Unit where
  info := CrCbInfo.zero.append .chkpt ⟨some (), 0, false⟩
  threadRunning := false
  worker := false
  threaded := by decide

/-- The verdict for a request that was interrupted answers the next one before its signal is
handled. -/
theorem stale_verdict_answers :
    ¬ Throughout requestStep Agreement (.start signalOnly)
      [.msgget true, .kill 0 true, .msgrcv 0 false, .deliver 0, .handler (fun _ => 0) true,
        .handler (fun _ => 0) true, .handler (fun _ => 0) true, .handler (fun _ => 0) true,
        .msgget true, .kill 1 true, .msgrcv 1 true, .msgctl 1 true] := by
  decide

end Kerrighed.Krgcb
