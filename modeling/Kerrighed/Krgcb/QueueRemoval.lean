import Kerrighed.Common.CNumbers
import Kerrighed.Krgcb.Registry

/-!
# What a checkpoint request leaves behind

A request for a checkpoint round creates the message queue of its application, sends the signal,
takes one message and removes the queue. The function below is the whole request on the message
queues of the system, with the outcome of every system call as an argument.

The queue is removed on the way to success only. A request whose signal cannot be sent, or whose
wait fails or is interrupted, leaves it behind.
-/

namespace Kerrighed.Krgcb

open Kerrighed.Common

/-- A message queue of the system. -/
structure Msq where
  msqid : ℕ
  key : ℤ
  messages : List CrCbStatus
  deriving DecidableEq, Repr

/-- The key with which every `msgget` makes a queue of its own. -/
def ipcPrivate : ℤ := 0

/-- Open the queue of a key, or create it under the identifier `id` when there is none. -/
def msggetCreat (key : ℤ) (id : ℕ) (queues : List Msq) : ℕ × List Msq :=
  match queues.find? fun q => key ≠ ipcPrivate ∧ q.key = key with
  | some q => (q.msqid, queues)
  | none => (id, ⟨id, key, []⟩ :: queues)

/-- The queues after some messages have reached one of them. -/
def postMessages (msqid : ℕ) (sent : List CrCbStatus) (queues : List Msq) : List Msq :=
  queues.map fun q => if q.msqid = msqid then { q with messages := q.messages ++ sent } else q

/-- Take the first message of a queue. There is no result while the queue is empty. -/
def msgrcv (msqid : ℕ) (queues : List Msq) : Option (Option CrCbStatus × List Msq) :=
  match queues.find? fun q => q.msqid = msqid with
  | none => some (none, queues)
  | some q =>
    match q.messages with
    | [] => none
    | m :: rest => some (some m, queues.map fun q =>
        if q.msqid = msqid then { q with messages := rest } else q)

/-- Remove a queue. -/
def msgctlRmid (msqid : ℕ) (queues : List Msq) : ℤ × List Msq :=
  if queues.any fun q => q.msqid = msqid then (0, queues.filter fun q => q.msqid ≠ msqid)
  else (-1, queues)

/-- The outcomes of the system calls of a request: what the query for the user data returns and
whether `CR_CB_ACTIV_CB` is set in it, the identifier of a new queue or the failure of `msgget`, what
`kill` returns, the messages the application sends before the wait ends, and whether the wait ends
with a message. -/
structure RequestOutcome where
  getUserdata : ℤ
  activCb : Bool
  msgget : Option ℕ
  kill : ℤ
  sent : List CrCbStatus
  msgrcv : Bool

/-- The application is there and has declared callbacks. -/
def crDetectCallbacks (o : RequestOutcome) : ℤ :=
  if o.getUserdata ≠ 0 then o.getUserdata
  else if o.activCb then 0
  else -1

/-- Request a checkpoint round: the value returned and the queues left. There is no result while
the request waits for a message. -/
def crExecuteChkptCallbacks (o : RequestOutcome) (pid : ℤ) (queues : List Msq) :
    Option (ℤ × List Msq) :=
  if crDetectCallbacks o ≠ 0 then some (0, queues)
  else
    match o.msgget with
    | none => some (-1, queues)
    | some id =>
      let (msqid, queues) := msggetCreat (toInt pid) id queues
      if o.kill ≠ 0 then some (o.kill, queues)
      else
        let queues := postMessages msqid o.sent queues
        if o.msgrcv = false then some (-1, queues)
        else do
          let (message, queues) ← Krgcb.msgrcv msqid queues
          match message with
          | none => some (-1, queues)
          | some m =>
            let (r, queues) := msgctlRmid msqid queues
            if r ≠ 0 then some (r, queues) else some (if m = .err then -1 else 0, queues)

/-- No queue of the system has the key. -/
def NoQueue (key : ℤ) (queues : List Msq) : Prop := ∀ q ∈ queues, q.key ≠ key

instance (key : ℤ) (queues : List Msq) : Decidable (NoQueue key queues) :=
  inferInstanceAs (Decidable (∀ q ∈ queues, q.key ≠ key))

/-- The request is not made, or it sends its signal and receives a message. -/
def RequestOutcome.Completes (o : RequestOutcome) : Prop :=
  crDetectCallbacks o ≠ 0 ∨ o.msgget = none ∨ (o.kill = 0 ∧ o.msgrcv = true)

/-- Without a queue of the key, `msgget` creates one. -/
theorem msggetCreat_of_noQueue {key : ℤ} {queues : List Msq} (h : NoQueue key queues) (id : ℕ) :
    msggetCreat key id queues = (id, ⟨id, key, []⟩ :: queues) := by
  have hfind : (queues.find? fun q => key ≠ ipcPrivate ∧ q.key = key) = none := by
    rw [List.find?_eq_none]
    intro q hq
    simp [h q hq]
  rw [msggetCreat, hfind]

/-- Messages for a new queue reach that queue alone. -/
theorem postMessages_cons {id : ℕ} {queues : List Msq} (hid : ∀ q ∈ queues, q.msqid ≠ id) (key : ℤ)
    (messages sent : List CrCbStatus) :
    postMessages id sent (⟨id, key, messages⟩ :: queues) =
      ⟨id, key, messages ++ sent⟩ :: queues := by
  rw [postMessages, List.map_cons, if_pos rfl]
  congr 1
  refine (List.map_congr_left fun q hq => ?_).trans (List.map_id _)
  rw [if_neg (hid q hq)]
  rfl

/-- The removal of a new queue leaves the queues there were. -/
theorem msgctlRmid_cons {id : ℕ} {queues : List Msq} (hid : ∀ q ∈ queues, q.msqid ≠ id) (key : ℤ)
    (messages : List CrCbStatus) :
    msgctlRmid id (⟨id, key, messages⟩ :: queues) = (0, queues) := by
  rw [msgctlRmid, if_pos (by simp), List.filter_cons_of_neg (by simp), List.filter_eq_self.mpr]
  exact fun q hq => by simpa using hid q hq

/-- Taking a message of a new queue. -/
theorem msgrcv_cons {id : ℕ} {queues : List Msq} (hid : ∀ q ∈ queues, q.msqid ≠ id) (key : ℤ)
    (m : CrCbStatus) (rest : List CrCbStatus) :
    msgrcv id (⟨id, key, m :: rest⟩ :: queues) = some (some m, ⟨id, key, rest⟩ :: queues) := by
  have hothers : (queues.map fun q => if q.msqid = id then { q with messages := rest } else q) =
      queues := by
    refine (List.map_congr_left fun q hq => ?_).trans (List.map_id _)
    rw [if_neg (hid q hq)]
    rfl
  rw [msgrcv, List.find?_cons_of_pos (by simp)]
  simp [hothers]

/-- A new queue without messages makes the request wait. -/
theorem msgrcv_cons_nil (id : ℕ) (key : ℤ) (queues : List Msq) :
    msgrcv id (⟨id, key, []⟩ :: queues) = none := by
  rw [msgrcv, List.find?_cons_of_pos (by simp)]

/-- A request that opens a new queue returns with it in place when its signal or its wait fails, and
without it when a message arrives. -/
theorem crExecuteChkptCallbacks_opened {o : RequestOutcome} {pid : ℤ} {queues : List Msq} {id : ℕ}
    (hdetect : crDetectCallbacks o = 0) (hopen : o.msgget = some id)
    (hnone : NoQueue (toInt pid) queues) (hid : ∀ q ∈ queues, q.msqid ≠ id) :
    crExecuteChkptCallbacks o pid queues =
      if o.kill ≠ 0 then some (o.kill, ⟨id, toInt pid, []⟩ :: queues)
      else if o.msgrcv = false then some (-1, ⟨id, toInt pid, o.sent⟩ :: queues)
      else
        match o.sent with
        | [] => none
        | m :: _ => some (if m = .err then -1 else 0, queues) := by
  have hget := msggetCreat_of_noQueue hnone id
  have hpost := postMessages_cons hid (toInt pid) [] o.sent
  rw [List.nil_append] at hpost
  rw [crExecuteChkptCallbacks, if_neg (by simp [hdetect]), hopen]
  simp only [hget, hpost]
  cases o.sent with
  | nil => simp [msgrcv_cons_nil]
  | cons m rest => simp [msgrcv_cons hid, msgctlRmid_cons hid]

/-- A request that opens no queue leaves the queues alone. -/
theorem crExecuteChkptCallbacks_unopened {o : RequestOutcome}
    (h : crDetectCallbacks o ≠ 0 ∨ o.msgget = none) (pid : ℤ) (queues : List Msq) :
    ∃ r, crExecuteChkptCallbacks o pid queues = some (r, queues) := by
  by_cases hdetect : crDetectCallbacks o = 0
  · have hopen := h.resolve_left (not_not.mpr hdetect)
    exact ⟨-1, by simp [crExecuteChkptCallbacks, hdetect, hopen]⟩
  · exact ⟨0, by simp [crExecuteChkptCallbacks, hdetect]⟩

/-- A request that returns leaves no queue of its application exactly when it is not made, or it
sends its signal and receives a message; it never touches the other queues. -/
theorem crExecuteChkptCallbacks_removes_iff (o : RequestOutcome) (pid : ℤ) (queues after : List Msq)
    (r : ℤ) (hnone : NoQueue (toInt pid) queues)
    (hid : ∀ id, o.msgget = some id → ∀ q ∈ queues, q.msqid ≠ id)
    (hreturn : crExecuteChkptCallbacks o pid queues = some (r, after)) :
    (NoQueue (toInt pid) after ↔ o.Completes) ∧
      after.filter (fun q => q.key ≠ toInt pid) = queues := by
  have hqueues : queues.filter (fun q => q.key ≠ toInt pid) = queues :=
    List.filter_eq_self.mpr fun q hq => by simpa using hnone q hq
  have hleft {messages : List CrCbStatus} {id : ℕ}
      (hafter : ⟨id, toInt pid, messages⟩ :: queues = after) (hfail : ¬ o.Completes) :
      (NoQueue (toInt pid) after ↔ o.Completes) ∧
        after.filter (fun q => q.key ≠ toInt pid) = queues := by
    subst hafter
    refine ⟨iff_of_false (fun h => h _ List.mem_cons_self rfl) hfail, ?_⟩
    rw [List.filter_cons_of_neg (by simp), hqueues]
  by_cases hunopened : crDetectCallbacks o ≠ 0 ∨ o.msgget = none
  · obtain ⟨r', heq⟩ := crExecuteChkptCallbacks_unopened hunopened pid queues
    obtain ⟨-, rfl⟩ := Prod.mk.inj (Option.some.inj (heq.symm.trans hreturn))
    exact ⟨iff_of_true hnone (or_assoc.mp (.inl hunopened)), hqueues⟩
  · obtain ⟨hdetect, hopen⟩ := not_or.mp hunopened
    obtain ⟨id, hopen⟩ := Option.ne_none_iff_exists'.mp hopen
    rw [crExecuteChkptCallbacks_opened (not_not.mp hdetect) hopen hnone (hid id hopen)] at hreturn
    have hcompletes : o.Completes ↔ o.kill = 0 ∧ o.msgrcv = true := by
      rw [RequestOutcome.Completes, ← or_assoc, or_iff_right hunopened]
    split at hreturn
    · rename_i hkill
      obtain ⟨-, hafter⟩ := Prod.mk.inj (Option.some.inj hreturn)
      exact hleft hafter fun h => hkill (hcompletes.mp h).1
    · rename_i hkill
      split at hreturn
      · rename_i hwait
        obtain ⟨-, hafter⟩ := Prod.mk.inj (Option.some.inj hreturn)
        exact hleft hafter fun h => absurd (hcompletes.mp h).2 (by simp [hwait])
      · rename_i hwait
        split at hreturn
        · exact absurd hreturn (by simp)
        · obtain ⟨-, rfl⟩ := Prod.mk.inj (Option.some.inj hreturn)
          have hdone : o.Completes := hcompletes.mpr ⟨not_not.mp hkill, by simpa using hwait⟩
          exact ⟨iff_of_true hnone hdone, hqueues⟩

/-- The outcome of a request in which everything succeeds. -/
def RequestOutcome.success : RequestOutcome := ⟨0, true, some 1, 0, [.chkptApp], true⟩

/-- A request that succeeds while another application has a queue. -/
theorem successful_request_removes :
    (NoQueue (toInt 100) [⟨0, 200, []⟩] ↔ RequestOutcome.success.Completes) ∧
      [(⟨0, 200, []⟩ : Msq)].filter (fun q => q.key ≠ toInt 100) = [⟨0, 200, []⟩] :=
  crExecuteChkptCallbacks_removes_iff .success 100 [⟨0, 200, []⟩] [⟨0, 200, []⟩] 0 (by decide)
    (by rintro id ⟨⟩; decide) (by decide)

/-- A request that is interrupted in its wait, and one whose signal cannot be sent, return an error
and leave the queue of the application behind. -/
theorem interrupted_request_leaves_queue :
    NoQueue (toInt 100) [] ∧
      crExecuteChkptCallbacks { RequestOutcome.success with sent := [], msgrcv := false } 100 [] =
        some (-1, [⟨1, 100, []⟩]) ∧
      crExecuteChkptCallbacks { RequestOutcome.success with kill := -1 } 100 [] =
        some (-1, [⟨1, 100, []⟩]) ∧
      ¬ NoQueue (toInt 100) [⟨1, 100, []⟩] := by
  decide

end Kerrighed.Krgcb
