import Kerrighed.Krgcb.Deliveries
import Kerrighed.Tools.CheckpointMain

/-!
# The checkpoint tool and an application with callbacks

The tool asks the application to run its callbacks, and the kernel to freeze, checkpoint and unfreeze it.
Here its requests meet an application that has registered callbacks: the request for a checkpoint round
becomes a signal to the application, and its verdict the answer to the tool. The signal for the continue
callbacks is sent and not waited for.

Whatever the callbacks and the kernel answer, an application is frozen only after each of its checkpoint
callbacks was called once and succeeded, and unfrozen only after the signal for the continue callbacks
was sent. The application has to get the first message of its round into the queue for that: nothing
tells the tool of a message that is lost.
-/

namespace Kerrighed.Tools.CheckpointHistory

open Kerrighed.Common Kerrighed.Krgcb Kerrighed.Tools.Checkpoint

variable {F : Type}

/-- What the tool and the library do not decide: what the checkpoint callbacks return, which messages of
a round the application gets into its queue, the outcomes of the system calls of the requests for a
round, the message queues there are, the answers to the kernel requests, and when the tool is
interrupted. -/
structure World where
  ret : ℕ → ℤ
  sendMessage : ℕ → Bool
  getUserdata : ℤ
  msgget : Option ℕ
  kill : CrCbHook → ℤ
  msgrcv : Bool
  queues : List Msq
  services : Service → CheckpointInfo → ℤ
  errno : ℕ
  interruptAt : Option ℕ

/-- The messages that are sent, of those that the application tries to send one after the other. -/
def sentMessages (sendMessage : ℕ → Bool) (messages : List CrCbStatus) : List CrCbStatus :=
  (messages.zipIdx.filter fun x => sendMessage x.2).map Prod.fst

/-- The request for a checkpoint round, with the messages of an application that handles its signal on
its own. -/
def World.outcome (w : World) (p : Process F) : RequestOutcome where
  getUserdata := w.getUserdata
  activCb := p.activCb
  msgget := w.msgget
  kill := w.kill .chkpt
  sent := sentMessages w.sendMessage
    (((signalRound CrCbHook.chkpt.signum w.ret p).map Handled.messages).getD [])
  msgrcv := w.msgrcv

/-- What the request for a checkpoint round returns, unless it waits for ever. -/
def World.chkptAnswer (w : World) (p : Process F) (pid : ℤ) : Option ℤ :=
  (crExecuteChkptCallbacks (w.outcome p) pid w.queues).map Prod.fst

/-- What the request for the continue callbacks returns, and whether it sends a signal. -/
def World.continueAnswer (w : World) (p : Process F) : ℤ × Bool :=
  crExecuteContinueCallbacks (crDetectCallbacks (w.outcome p)) (w.kill .cnt)

/-- The answers to the tool. -/
def World.environment (w : World) (p : Process F) : Environment where
  answer
    | .chkptCallbacks pid _ => (w.chkptAnswer p pid).getD (-1)
    | .continueCallbacks _ _ => (w.continueAnswer p).1
    | .service service info => w.services service info
  errno := w.errno
  interruptAt := w.interruptAt

/-- What happens in a run: a checkpoint callback at a place is called, the signal for the continue
callbacks is sent, or the kernel is asked. -/
inductive Event where
  | callback (i : ℕ)
  | continueSignal
  | service (service : Service) (info : CheckpointInfo)
  deriving DecidableEq, Repr

/-- The request for a checkpoint round sends its signal. -/
def World.sendsChkpt (w : World) (p : Process F) : Prop :=
  crDetectCallbacks (w.outcome p) = 0 ∧ w.msgget.isSome ∧ w.kill .chkpt = 0

instance (w : World) (p : Process F) : Decidable (w.sendsChkpt p) :=
  inferInstanceAs (Decidable (_ ∧ _ ∧ _))

/-- The application after a request of the tool, and what the request makes happen. -/
def World.respond (w : World) (p : Process F) : Request → Process F × List Event
  | .chkptCallbacks _ _ =>
    if w.sendsChkpt p then
      match signalRound CrCbHook.chkpt.signum w.ret p with
      | some round => ({ p with toGlobals := round.globals }, round.calls.map .callback)
      | none => (p, [])
    else (p, [])
  | .continueCallbacks _ _ => (p, if (w.continueAnswer p).2 then [.continueSignal] else [])
  | .service service info => (p, [.service service info])

/-- What the requests of a run make happen, one after the other. -/
def World.history (w : World) : List Request → Process F → List Event
  | [], _ => []
  | r :: rest, p => (w.respond p r).2 ++ w.history rest (w.respond p r).1

/-- A step that freezes asks for the checkpoint round first, and goes on when it succeeds. -/
theorem freezeApp_shape {g : Globals} (hcallbacks : g.noCallbacks = false) (env : Environment) (pid : ℤ)
    (quiet : Bool) :
    ((freezeApp g env pid quiet .start).1 ≠ 0 ∧
        ((freezeApp g env pid quiet .start).2.requests = [] ∨
          (freezeApp g env pid quiet .start).2.requests = [.chkptCallbacks pid g.fromAppid])) ∨
      env.answer (.chkptCallbacks pid g.fromAppid) = 0 ∧ ∃ info,
        (freezeApp g env pid quiet .start).2.requests =
          [.chkptCallbacks pid g.fromAppid, .service .appFreeze info] := by
  have hstart : Progress.start.requests = [] := rfl
  cases hint : interruptedBySignal env .start with
  | true => exact Or.inl (by simp [freezeApp, hint, hstart])
  | false =>
    by_cases hround : env.answer (.chkptCallbacks pid g.fromAppid) = 0
    · refine Or.inr ⟨hround, target g pid 0, ?_⟩
      simp [freezeApp, hint, hcallbacks, hround, applicationFreeze_eq, hstart]
    · exact Or.inl (by simp [freezeApp, hint, hcallbacks, hround, hstart])

/-- The end of a step that unfreezes: the continue callbacks are asked for first, and the kernel when
this succeeds. -/
def EndsUnfreezing (env : Environment) (g : Globals) (pid : ℤ) (last : List Request) : Prop :=
  last = [] ∨ last = [.continueCallbacks pid g.fromAppid] ∨
    env.answer (.continueCallbacks pid g.fromAppid) = 0 ∧
      ∃ info, last = [.continueCallbacks pid g.fromAppid, .service .appUnfreeze info]

/-- A step that unfreezes ends like this. -/
theorem unfreezeApp_shape {g : Globals} (hcallbacks : g.noCallbacks = false) (env : Environment)
    (pid signal : ℤ) (quiet : Bool) (s : Progress) :
    ∃ last, (unfreezeApp g env pid signal quiet s).2.requests = s.requests ++ last ∧
      EndsUnfreezing env g pid last := by
  set printed : Progress :=
    if interruptedBySignal env s then
      s.print (.stderr "checkpoint: ignoring interruption signal\n")
    else s with hprinted
  have hsame : printed.requests = s.requests := ignored_requests env s
  by_cases hstop : interruptedBySignal env s ∧ g.action ≠ .all
  · refine ⟨[], ?_, Or.inl rfl⟩
    rw [unfreezeApp, if_pos hstop, List.append_nil]
    rfl
  · by_cases hround : env.answer (.continueCallbacks pid g.fromAppid) = 0
    · refine ⟨_, ?_, Or.inr (Or.inr ⟨hround, target g pid signal, rfl⟩)⟩
      simp [unfreezeApp, hstop, ← hprinted, hcallbacks, hround, applicationUnfreeze_eq, hsame]
    · refine ⟨_, ?_, Or.inr (Or.inl rfl)⟩
      simp [unfreezeApp, hstop, ← hprinted, hcallbacks, hround, hsame]

/-- The requests of a run: a checkpoint round, kernel requests behind it, and the end of unfreezing.
In the modes that freeze, nothing is asked before the round has succeeded. -/
def Shape (env : Environment) (g : Globals) (pid : ℤ) (requests : List Request) : Prop :=
  ∃ (front : List Request) (services : List (Service × CheckpointInfo)) (last : List Request),
    requests = front ++ services.map (fun x => .service x.1 x.2) ++ last ∧
      (front = [] ∨ front = [.chkptCallbacks pid g.fromAppid]) ∧
      (∀ x ∈ services, x.1 ≠ .appUnfreeze) ∧ EndsUnfreezing env g pid last ∧
      (g.action = .all ∨ g.action = .freeze → services ≠ [] ∨ last ≠ [] →
        front = [.chkptCallbacks pid g.fromAppid] ∧
          env.answer (.chkptCallbacks pid g.fromAppid) = 0)

/-- A step that checkpoints asks for nothing but a checkpoint. -/
theorem checkpointApp_shape (g : Globals) (env : Environment) (pid : ℤ) (flags : ℕ) (quiet : Bool)
    (s : Progress) :
    ∃ services : List (Service × CheckpointInfo), (∀ x ∈ services, x.1 ≠ .appUnfreeze) ∧
      (checkpointApp g env pid flags quiet s).2.requests =
        s.requests ++ services.map (fun x => .service x.1 x.2) := by
  rcases checkpointApp_spec g env pid flags quiet s with ⟨-, hsame⟩ | ⟨info, -, hsome⟩
  · exact ⟨[], by simp, by rw [hsame, List.map_nil, List.append_nil]⟩
  · exact ⟨[(.appChkpt, info)], by simp, hsome⟩

/-- The default mode. -/
theorem freezeCheckpointUnfreeze_shape {g : Globals} (hcallbacks : g.noCallbacks = false)
    (env : Environment) (pid : ℤ) (flags : ℕ) (signal : ℤ) (quiet : Bool) :
    Shape env g pid
      (freezeCheckpointUnfreeze g env pid flags signal quiet .start).2.requests := by
  rcases freezeApp_shape hcallbacks env pid quiet with ⟨hr, hrequests⟩ | ⟨hround, info, hrequests⟩
  · refine ⟨(freezeApp g env pid quiet .start).2.requests, [], [], ?_, hrequests, by simp, Or.inl rfl,
      fun _ hne => ?_⟩
    · simp [freezeCheckpointUnfreeze, hr]
    · simp at hne
  · by_cases hr : (freezeApp g env pid quiet .start).1 = 0
    · obtain ⟨services, hservices, hckpt⟩ :=
        checkpointApp_shape g env pid flags quiet (freezeApp g env pid quiet .start).2
      set s := (checkpointApp g env pid flags quiet (freezeApp g env pid quiet .start).2).2
      have hend : ∃ last, (freezeCheckpointUnfreeze g env pid flags signal quiet .start).2.requests =
          s.requests ++ last ∧ EndsUnfreezing env g pid last := by
        simp only [freezeCheckpointUnfreeze, hr, ne_eq, not_true_eq_false, if_false]
        split
        · exact unfreezeApp_shape hcallbacks env pid 0 true s
        · exact unfreezeApp_shape hcallbacks env pid signal quiet s
      obtain ⟨last, hlast, hends⟩ := hend
      refine ⟨[.chkptCallbacks pid g.fromAppid], (.appFreeze, info) :: services, last, ?_, Or.inr rfl,
        ?_, hends, fun _ _ => ⟨rfl, hround⟩⟩
      · rw [hlast, hckpt, hrequests]
        simp
      · exact List.forall_mem_cons.mpr ⟨Service.noConfusion, hservices⟩
    · refine ⟨[.chkptCallbacks pid g.fromAppid], [(.appFreeze, info)], [], ?_, Or.inr rfl, by simp,
        Or.inl rfl, fun _ _ => ⟨rfl, hround⟩⟩
      simp [freezeCheckpointUnfreeze, hr, hrequests]

/-- The requests of every mode. -/
theorem runAction_shape {args : Args} (hcallbacks : args.globals.noCallbacks = false)
    (env : Environment) (pid : ℤ) :
    Shape env args.globals pid (runAction args env pid).2.requests := by
  have hstart : Progress.start.requests = [] := rfl
  rw [runAction]
  cases haction : args.globals.action with
  | all => exact freezeCheckpointUnfreeze_shape hcallbacks env pid args.flags args.sig args.quiet
  | freeze =>
    rcases freezeApp_shape hcallbacks env pid args.quiet with ⟨-, hrequests⟩ | ⟨hround, info, hrequests⟩
    · refine ⟨_, [], [], ?_, hrequests, by simp, Or.inl rfl, fun _ hne => ?_⟩
      · simp
      · simp at hne
    · refine ⟨[.chkptCallbacks pid args.globals.fromAppid], [(.appFreeze, info)], [], ?_, Or.inr rfl,
        by simp, Or.inl rfl, fun _ _ => ⟨rfl, hround⟩⟩
      simpa using hrequests
  | checkpoint =>
    obtain ⟨services, hservices, hckpt⟩ :=
      checkpointApp_shape args.globals env pid args.flags args.quiet .start
    rw [hstart, List.nil_append] at hckpt
    refine ⟨[], services, [], ?_, Or.inl rfl, hservices, Or.inl rfl, fun hmode _ => ?_⟩
    · simpa using hckpt
    · rw [haction] at hmode
      rcases hmode with hmode | hmode <;> contradiction
  | unfreeze =>
    obtain ⟨last, hlast, hends⟩ :=
      unfreezeApp_shape hcallbacks env pid args.sig args.quiet .start
    rw [hstart, List.nil_append] at hlast
    refine ⟨[], [], last, ?_, Or.inl rfl, by simp, hends, fun hmode _ => ?_⟩
    · simpa using hlast
    · rw [haction] at hmode
      rcases hmode with hmode | hmode <;> contradiction

/-- The requests of the tool. -/
theorem main_shape {argv : List Arg} {args : Args} {operand : Arg}
    (hparse : parseArgs argv = .ok (args, operand)) (hcallbacks : args.globals.noCallbacks = false)
    (env : Environment) (checkEnvironment : Bool) :
    Shape env args.globals (atol operand) (main env checkEnvironment argv).2.requests := by
  have hnone : Shape env args.globals (atol operand) Progress.start.requests :=
    ⟨[], [], [], rfl, Or.inl rfl, by simp, Or.inl rfl, by simp⟩
  rw [main]
  simp only [hparse]
  split
  · exact hnone
  · split
    · exact hnone
    · exact runAction_shape hcallbacks env (atol operand)

/-- An application that has registered callbacks is found by the query. -/
theorem World.detects {w : World} {registrations : List (ContextRegistration F)} {p : Process F}
    (huserdata : w.getUserdata = 0) (h : Registered registrations p) :
    crDetectCallbacks (w.outcome p) = 0 := by
  simp [crDetectCallbacks, World.outcome, huserdata, h.declared]

/-- A first message that is sent is the first in the queue. -/
theorem sentMessages_cons {sendMessage : ℕ → Bool} (hsends : sendMessage 0 = true) (m : CrCbStatus)
    (messages : List CrCbStatus) : ∃ rest, sentMessages sendMessage (m :: messages) = m :: rest := by
  refine ⟨((messages.zipIdx 1).filter fun x => sendMessage x.2).map Prod.fst, ?_⟩
  simp [sentMessages, hsends]

/-- What the request for a round answers when it opens a queue of its own. -/
theorem World.chkptAnswer_eq {w : World} {registrations : List (ContextRegistration F)} {p : Process F}
    (huserdata : w.getUserdata = 0) (hsends : w.sendMessage 0 = true)
    (h : Registered registrations p) {pid : ℤ}
    (hnone : NoQueue (toInt pid) w.queues)
    (hid : ∀ id, w.msgget = some id → ∀ q ∈ w.queues, q.msqid ≠ id) :
    w.chkptAnswer p pid =
      if w.msgget = none then some (-1)
      else if w.kill .chkpt ≠ 0 then some (w.kill .chkpt)
      else if w.msgrcv = false then some (-1)
      else if verdictOf w.ret (places (ofHook .chkpt registrations)) = .err then some (-1)
      else some 0 := by
  have hdetect := World.detects huserdata h
  obtain ⟨round, messages, hround, hmessages⟩ := signalRound_verdict h w.ret
  obtain ⟨rest, hrest⟩ :=
    sentMessages_cons hsends (verdictOf w.ret (places (ofHook .chkpt registrations))) messages
  have hsent : (w.outcome p).sent =
      verdictOf w.ret (places (ofHook .chkpt registrations)) :: rest := by
    simp [World.outcome, hround, hmessages, hrest]
  rw [World.chkptAnswer]
  cases hopen : w.msgget with
  | none =>
    have hunopened : (w.outcome p).msgget = none := hopen
    simp [crExecuteChkptCallbacks, hdetect, hunopened]
  | some id =>
    rw [crExecuteChkptCallbacks_opened hdetect hopen hnone (hid id hopen), hsent]
    have hkill : (w.outcome p).kill = w.kill .chkpt := rfl
    have hwait : (w.outcome p).msgrcv = w.msgrcv := rfl
    rw [hkill, hwait]
    split_ifs <;> simp_all

/-- The request for a round calls callbacks only. One that is answered with zero has called each
checkpoint callback once, and all have succeeded. -/
theorem World.respond_chkpt {w : World} {registrations : List (ContextRegistration F)} {p : Process F}
    (huserdata : w.getUserdata = 0) (hsends : w.sendMessage 0 = true)
    (h : Registered registrations p) {pid : ℤ}
    (hnone : NoQueue (toInt pid) w.queues)
    (hid : ∀ id, w.msgget = some id → ∀ q ∈ w.queues, q.msqid ≠ id) (fromAppid : Bool) :
    ∃ calls : List ℕ, (w.respond p (.chkptCallbacks pid fromAppid)).2 = calls.map Event.callback ∧
      Registered registrations (w.respond p (.chkptCallbacks pid fromAppid)).1 ∧
      (w.chkptAnswer p pid = some 0 → calls.Perm (places (ofHook .chkpt registrations)) ∧
        ∀ i ∈ places (ofHook .chkpt registrations), w.ret i = 0) := by
  obtain ⟨round, hround, hcalls, hafter⟩ := signalRound_registered h .chkpt w.ret
  have hanswer := World.chkptAnswer_eq huserdata hsends h hnone hid
  by_cases hsends : w.sendsChkpt p
  · have hrespond : w.respond p (.chkptCallbacks pid fromAppid) =
        ({ p with toGlobals := round.globals }, round.calls.map .callback) := by
      rw [World.respond, if_pos hsends, hround]
    rw [hrespond]
    refine ⟨round.calls, rfl, hafter, fun hzero => ?_⟩
    rw [hanswer, if_neg (Option.isSome_iff_ne_none.mp hsends.2.1),
      if_neg (not_not.mpr hsends.2.2)] at hzero
    have hall : ∀ i ∈ places (ofHook .chkpt registrations), w.ret i = 0 := by
      by_contra hfails
      have hverdict : verdictOf w.ret (places (ofHook .chkpt registrations)) = .err := by
        rw [verdictOf, if_pos (by simpa using hfails)]
      simp [hverdict] at hzero
    have hsplit := places_split (ofHook CrCbHook.chkpt registrations)
    rw [passOf_of_forall fun i hi => hall i (hsplit.mem_iff.mp (List.mem_append_left _ hi)),
      passOf_of_forall fun i hi => hall i (hsplit.mem_iff.mp (List.mem_append_right _ hi))] at hcalls
    refine ⟨?_, hall⟩
    rw [hcalls]
    exact hsplit
  · have hrespond : w.respond p (.chkptCallbacks pid fromAppid) = (p, []) := by
      rw [World.respond, if_neg hsends]
    rw [hrespond]
    refine ⟨[], rfl, h, fun hzero => ?_⟩
    rw [hanswer] at hzero
    by_cases hopen : w.msgget = none
    · simp [hopen] at hzero
    · have hkill : w.kill .chkpt ≠ 0 := fun hkill =>
        hsends ⟨World.detects huserdata h, Option.isSome_iff_ne_none.mpr hopen, hkill⟩
      rw [if_neg hopen, if_pos hkill] at hzero
      exact absurd (Option.some.inj hzero) hkill

/-- Kernel requests leave the application as it is. -/
theorem World.history_services (w : World) (p : Process F) (services : List (Service × CheckpointInfo))
    (rest : List Request) :
    w.history (services.map (fun x => .service x.1 x.2) ++ rest) p =
      services.map (fun x => Event.service x.1 x.2) ++ w.history rest p := by
  induction services with
  | nil => rfl
  | cons x services ih =>
    exact congrArg (Event.service x.1 x.2 :: ·) ih

/-- What happens at the end of a step that unfreezes: the kernel is asked once the signal is sent. -/
theorem World.history_last {w : World} {registrations : List (ContextRegistration F)}
    {start p : Process F} (huserdata : w.getUserdata = 0) (hstart : Registered registrations start)
    (h : Registered registrations p) {g : Globals} {pid : ℤ} {last : List Request}
    (hends : EndsUnfreezing (w.environment start) g pid last) :
    w.history last p = [] ∨ w.history last p = [.continueSignal] ∨
      ∃ info, w.history last p = [.continueSignal, .service .appUnfreeze info] := by
  have hanswer : w.continueAnswer p = (w.kill .cnt, decide (w.kill .cnt = 0)) := by
    simp [World.continueAnswer, crExecuteContinueCallbacks, signalCallbacks, World.detects huserdata h]
  have hsame : w.continueAnswer start = w.continueAnswer p := by
    rw [hanswer]
    simp [World.continueAnswer, crExecuteContinueCallbacks, signalCallbacks,
      World.detects huserdata hstart]
  rcases hends with rfl | rfl | ⟨hzero, info, rfl⟩
  · exact Or.inl rfl
  · by_cases hkill : w.kill .cnt = 0
    · exact Or.inr (Or.inl (by simp [World.history, World.respond, hanswer, hkill]))
    · exact Or.inl (by simp [World.history, World.respond, hanswer, hkill])
  · have hkill : w.kill .cnt = 0 := by
      have hzero : (w.continueAnswer start).1 = 0 := hzero
      rwa [hsame, hanswer] at hzero
    exact Or.inr (Or.inr ⟨info, by simp [World.history, World.respond, hanswer, hkill]⟩)

/-- What stands before an event that is not in the front has all of the front in it, and nothing else of
what is only there. -/
theorem count_before {front rest before after : List Event} {e x : Event}
    (h : front ++ rest = before ++ e :: after) (he : e ∉ front) (hx : x ∉ rest) :
    before.count x = front.count x := by
  rcases List.append_eq_append_iff.mp h with ⟨middle, rfl, hrest⟩ | ⟨middle, hfront, hmiddle⟩
  · have hnone : x ∉ middle := fun hmem => hx (hrest ▸ List.mem_append_left _ hmem)
    rw [List.count_append, List.count_eq_zero.mpr hnone, Nat.add_zero]
  · cases middle with
    | nil => rw [hfront, List.append_nil]
    | cons y middle =>
      obtain ⟨rfl, -⟩ := List.cons.inj hmiddle
      exact absurd (hfront ▸ List.mem_append_right _ List.mem_cons_self) he

/-- The answers that mean success. -/
theorem World.chkptAnswer_of_environment {w : World} {p : Process F} {pid : ℤ} {fromAppid : Bool}
    (h : (w.environment p).answer (.chkptCallbacks pid fromAppid) = 0) :
    w.chkptAnswer p pid = some 0 := by
  have h : (w.chkptAnswer p pid).getD (-1) = 0 := h
  cases hanswer : w.chkptAnswer p pid with
  | none => simp [hanswer] at h
  | some r =>
    rw [hanswer, Option.getD_some] at h
    rw [h]

/-- What the kernel requests of a run and its end make happen has no callback in it. -/
theorem callback_not_mem {services : List (Service × CheckpointInfo)} {last : List Event}
    (hlast : last = [] ∨ last = [.continueSignal] ∨
      ∃ info, last = [.continueSignal, .service .appUnfreeze info]) (i : ℕ) :
    Event.callback i ∉ services.map (fun x => Event.service x.1 x.2) ++ last := by
  rcases hlast with rfl | rfl | ⟨info, rfl⟩
  · simp
  · simp
  · simp

/-- The kernel is asked to unfreeze after one signal for the continue callbacks. -/
theorem count_continueSignal {calls : List ℕ} {services : List (Service × CheckpointInfo)}
    {last before after : List Event} {info : CheckpointInfo}
    (hservices : ∀ x ∈ services, x.1 ≠ .appUnfreeze)
    (hlast : last = [] ∨ last = [.continueSignal] ∨
      ∃ info, last = [.continueSignal, .service .appUnfreeze info])
    (h : calls.map Event.callback ++ (services.map (fun x => Event.service x.1 x.2) ++ last) =
      before ++ .service .appUnfreeze info :: after) : before.count .continueSignal = 1 := by
  have hcalls : Event.service .appUnfreeze info ∉ calls.map Event.callback := by simp
  have hnone : Event.service .appUnfreeze info ∉ services.map (fun x => Event.service x.1 x.2) := by
    intro hmem
    obtain ⟨x, hx, heq⟩ := List.mem_map.mp hmem
    exact hservices x hx (Event.service.inj heq).1
  have hmem : Event.service .appUnfreeze info ∈ last := by
    have hmem : Event.service .appUnfreeze info ∈
        calls.map Event.callback ++ (services.map (fun x => Event.service x.1 x.2) ++ last) :=
      h ▸ List.mem_append_right _ List.mem_cons_self
    rw [List.mem_append, List.mem_append] at hmem
    exact (hmem.resolve_left hcalls).resolve_left hnone
  rcases hlast with rfl | rfl | ⟨info', rfl⟩
  · simp at hmem
  · simp at hmem
  · have hfront : calls.map Event.callback ++ services.map (fun x => Event.service x.1 x.2) ++
        [.continueSignal] ++ [.service .appUnfreeze info'] =
          before ++ .service .appUnfreeze info :: after := by
      rw [← h]
      simp
    rw [count_before hfront ?_ (by simp)]
    · have hsilent : Event.continueSignal ∉ calls.map Event.callback ++
          services.map (fun x => Event.service x.1 x.2) := by simp
      rw [List.count_append, List.count_eq_zero.mpr hsilent, List.count_singleton_self]
    · simp only [List.mem_append, List.mem_singleton, not_or]
      exact ⟨⟨hcalls, hnone⟩, Event.noConfusion⟩

/-- The tool and an application whose callbacks were registered without an error, and which gets the
first message of its round into the queue: the request for a round returns, and where the tool
freezes, each request to the kernel comes after every checkpoint callback was called exactly once and
returned zero. The kernel is asked to unfreeze after exactly one signal for the continue callbacks. -/
theorem kernel_requests_follow_callbacks {w : World} {registrations : List (ContextRegistration F)}
    {p : Process F} (hregister : run registerSucceeds Process.initialized registrations = some p)
    (huserdata : w.getUserdata = 0) (hsends : w.sendMessage 0 = true)
    {argv : List Arg} {args : Args} {operand : Arg}
    (hparse : parseArgs argv = .ok (args, operand)) (hcallbacks : args.globals.noCallbacks = false)
    (hnone : NoQueue (toInt (atol operand)) w.queues)
    (hid : ∀ id, w.msgget = some id → ∀ q ∈ w.queues, q.msqid ≠ id) (checkEnvironment : Bool) :
    (w.chkptAnswer p (atol operand)).isSome ∧ ∀ before service info after,
      w.history (main (w.environment p) checkEnvironment argv).2.requests p =
          before ++ .service service info :: after →
        (args.globals.action = .all ∨ args.globals.action = .freeze →
          ∀ i ∈ places (ofHook .chkpt registrations),
            before.count (.callback i) = 1 ∧ w.ret i = 0) ∧
        (service = .appUnfreeze → before.count .continueSignal = 1) := by
  have h : Registered registrations p := registered_run registered_initialized hregister
  refine ⟨?_, fun before service info after hevents => ?_⟩
  · rw [World.chkptAnswer_eq huserdata hsends h hnone hid]
    split_ifs <;> rfl
  obtain ⟨front, services, last, hrequests, hfront, hservices, hends, hmode⟩ :=
    main_shape hparse hcallbacks (w.environment p) checkEnvironment
  obtain ⟨calls, q, hhistory, hq, hround⟩ : ∃ (calls : List ℕ) (q : Process F),
      w.history (front ++ services.map (fun x => .service x.1 x.2) ++ last) p =
        calls.map Event.callback ++
          (services.map (fun x => Event.service x.1 x.2) ++ w.history last q) ∧
      Registered registrations q ∧
      (front = [.chkptCallbacks (atol operand) args.globals.fromAppid] →
        w.chkptAnswer p (atol operand) = some 0 →
          calls.Perm (places (ofHook .chkpt registrations)) ∧
            ∀ i ∈ places (ofHook .chkpt registrations), w.ret i = 0) := by
    rcases hfront with rfl | rfl
    · exact ⟨[], p, w.history_services p services last, h, fun hne => absurd hne (by simp)⟩
    · obtain ⟨calls, hcalls, hq, hround⟩ :=
        World.respond_chkpt huserdata hsends h hnone hid args.globals.fromAppid
      refine ⟨calls, _, ?_, hq, fun _ => hround⟩
      rw [← hcalls, ← w.history_services]
      rfl
  have hlast := World.history_last huserdata h hq hends
  rw [hrequests, hhistory] at hevents
  refine ⟨fun haction i hi => ?_, ?_⟩
  · have hasks : services ≠ [] ∨ last ≠ [] := by
      by_contra hnothing
      obtain ⟨rfl, rfl⟩ := not_or.mp hnothing |>.imp not_not.mp not_not.mp
      have hmem : Event.service service info ∈
          calls.map Event.callback ++
            (([] : List (Service × CheckpointInfo)).map (fun x => Event.service x.1 x.2) ++
              w.history [] q) :=
        hevents ▸ List.mem_append_right before List.mem_cons_self
      simp [World.history] at hmem
    obtain ⟨hfront, hanswer⟩ := hmode haction hasks
    obtain ⟨hperm, hzero⟩ := hround hfront (World.chkptAnswer_of_environment hanswer)
    refine ⟨?_, hzero i hi⟩
    rw [count_before hevents (by simp) (callback_not_mem hlast i),
      List.count_map_of_injective _ _ (fun _ _ heq => Event.callback.inj heq), hperm.count_eq]
    exact List.count_eq_one_of_mem (places_nodup _) hi
  · rintro rfl
    exact count_continueSignal hservices hlast hevents

/-- A world in which everything succeeds. -/
def World.success : World where
  ret _ := 0
  sendMessage _ := true
  getUserdata := 0
  msgget := some 1
  kill _ := 0
  msgrcv := true
  queues := []
  services _ _ := 0
  errno := 0
  interruptAt := none

/-- The default mode and an application with callbacks for both contexts. -/
theorem kernel_requests_follow_mixed :
    ∃ p, run registerSucceeds .initialized mixedRegistrations = some p ∧
      (World.success.chkptAnswer p (atol "100".toList)).isSome ∧ ∀ before service info after,
        World.success.history
            (main (World.success.environment p) true ["100".toList]).2.requests p =
            before ++ .service service info :: after →
          (Args.start.globals.action = .all ∨ Args.start.globals.action = .freeze →
            ∀ i ∈ places (ofHook .chkpt mixedRegistrations),
              before.count (.callback i) = 1 ∧ World.success.ret i = 0) ∧
          (service = .appUnfreeze → before.count .continueSignal = 1) :=
  have hparse : parseArgs ["100".toList] = .ok (.start, "100".toList) := rfl
  ⟨_, rfl, kernel_requests_follow_callbacks rfl rfl rfl hparse rfl
    (fun _ hq => absurd hq List.not_mem_nil) (fun _ _ _ hq => absurd hq List.not_mem_nil) true⟩

example :
    (run registerSucceeds .initialized mixedRegistrations).map (fun p => World.success.history
      (main (World.success.environment p) true ["100".toList]).2.requests p) =
    some [.callback 0, .callback 2, .callback 1, .service .appFreeze ⟨100, 1, 0⟩,
      .service .appChkpt ⟨100, 1, 0⟩, .continueSignal, .service .appUnfreeze ⟨100, 1, 0⟩] := by
  decide

end Kerrighed.Tools.CheckpointHistory
