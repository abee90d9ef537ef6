import Kerrighed.Krgcb.Passes
import Kerrighed.Krgcb.QueueRemoval
import Kerrighed.Krgcheckpoint.Propagation
import Kerrighed.Krgcheckpoint.Retention

/-!
# How the verdict of a checkpoint round comes about

The checkpoint callback of a process excludes its regions and then requests a checkpoint round of
each of its children. A child runs its callbacks in its signal handler and answers with a message,
from which the request makes its own value. The loop of the parent drops that value.

The round succeeds at the root although an exclusion has failed below it, unless the exclusion of
the root has failed too.
-/

namespace Kerrighed.Krgcheckpoint

open Kerrighed.Common Kerrighed.Krgcb

variable {F : Type}

/-- A call of `KSYS_APP_CR_EXCLUDE`: its caller with the list submitted, and what it returned. -/
structure ExcludeCall where
  submission : ℤ × List SubmittedRegion
  result : ℤ
  deriving DecidableEq, Repr

/-- The checkpoint callback with the calls of the kernel that it leads to, given those that its loop
over the children leads to. Its own call is the first, and returns what the callback returns. -/
def checkpointCallback (p : Excluder F) (children : Option (List ExcludeCall)) :
    Option (ℤ × List ExcludeCall) := do
  let (r, round) ← crMmExclusionCheckpointCb p
    (children.map fun calls => ⟨[], calls.map ExcludeCall.submission⟩)
  some (r, List.zipWith ExcludeCall.mk round.submitted
    (r :: (children.getD []).map ExcludeCall.result))

/-- The entry is the checkpoint callback of this library. -/
def isCheckpointCb (cb : CrCbCallback (CallbackFunc F)) : Bool :=
  match cb.func with
  | some .crMmExclusionCheckpointCb => true
  | _ => false

/-- A process of the tree with its callback library and what its other callbacks return. The
checkpoint callback of this library is registered at most once, for the signal handler. -/
structure Member (F : Type) where
  excluder : Excluder F
  process : Process (CallbackFunc F)
  others : ℕ → ℤ
  once : ((entries process .chkpt).filter isCheckpointCb).Sublist
    [⟨some .crMmExclusionCheckpointCb, 0, false⟩]

/-- The place of the checkpoint callback of this library. -/
def Member.excludesAt (m : Member F) (i : ℕ) : Bool :=
  (entries m.process .chkpt)[i]?.any isCheckpointCb

/-- What the callbacks of the process return, `r` being what that of this library returns. -/
def Member.returns (m : Member F) (r : ℤ) (i : ℕ) : ℤ := if m.excludesAt i then r else m.others i

/-- The checkpoint signal in the process, up to its verdict. -/
def Member.handle (m : Member F) (r : ℤ) : Option (Handled (CallbackFunc F)) :=
  signalRound CrCbHook.chkpt.signum (m.returns r) m.process

/-- The messages that the process sends. -/
def Member.messages (m : Member F) (r : ℤ) : List CrCbStatus :=
  (m.handle r).elim [] Handled.messages

/-- The signal makes the checkpoint callback of this library run; the callbacks before it decide,
not what it returns. -/
def Member.asked (m : Member F) : Bool := (m.handle 0).any fun handled =>
  handled.calls.any m.excludesAt

/-- What a process does on the checkpoint signal: the calls of the kernel it leads to and the
messages it sends. There is no result while it is in a loop over its children that does not end. -/
def Member.answer (m : Member F) (children : Option (List ExcludeCall)) :
    Option (List ExcludeCall × List CrCbStatus) :=
  if m.asked then
    (checkpointCallback m.excluder children).map fun result => (result.2, m.messages result.1)
  else some ([], m.messages 0)

/-- The list of children of a process, each with the outcome of the request to it, the message
queues of the system at that time, and its own list. -/
inductive Offspring (F : Type) where
  | none
  | child (member : Member F) (request : RequestOutcome) (queues : List Msq)
      (firstChild next : Offspring F)

/-- The request gets as far as sending its signal. -/
def signals (o : RequestOutcome) : Bool := crDetectCallbacks o = 0 && o.msgget.isSome && o.kill = 0

/-- The loop of the checkpoint callback over the children: the calls of the kernel that it leads to.
The value of each request is dropped. -/
def checkpointOffspring : Offspring F → Option (List ExcludeCall)
  | .none => some []
  | .child member request queues firstChild next => do
    let (calls, messages) ← (if signals request then member.answer (checkpointOffspring firstChild)
      else some ([], []))
    let _ ← crExecuteChkptCallbacks { request with sent := messages } member.excluder.pid queues
    let rest ← checkpointOffspring next
    some (calls ++ rest)

/-- The processes with regions that are asked for them: the signal reaches them and makes their
checkpoint callback run, and so it does with all their ancestors, which have regions too. -/
def Offspring.asked : Offspring F → List (Excluder F)
  | .none => []
  | .child member request _ firstChild next =>
    (if signals request && member.asked && member.excluder.excludes then
      member.excluder :: firstChild.asked else []) ++ next.asked

/-- The call that a process should make. -/
def Excluder.call (p : Excluder F) : ExcludeCall := ⟨p.submission, p.crExclude⟩

/-- The callback makes its own call before those of the children, if it has a region. -/
theorem checkpointCallback_eq (p : Excluder F) (children : Option (List ExcludeCall)) :
    checkpointCallback p children =
      if p.excludes then children.map fun calls => (p.crExclude, p.call :: calls)
      else some (0, []) := by
  have hzip (calls : List ExcludeCall) : List.zipWith ExcludeCall.mk
      (calls.map ExcludeCall.submission) (calls.map ExcludeCall.result) = calls := by
    induction calls with
    | nil => rfl
    | cons call rest ih => rw [List.map_cons, List.map_cons, List.zipWith_cons_cons, ih]
  rw [checkpointCallback, crMmExclusionCheckpointCb_eq]
  cases p.excludes with
  | false => rfl
  | true =>
    cases children with
    | none => rfl
    | some calls =>
      simp only [if_true, Option.map_some, Option.bind_eq_bind, Option.bind_some, Option.getD_some,
        Round.append, List.singleton_append, List.zipWith_cons_cons, hzip]
      rfl

/-- A process that is asked and has regions makes its own call before those of its children, and
any other process leads to no call. -/
theorem Member.answer_calls {m : Member F} {children : Option (List ExcludeCall)}
    {made : List ExcludeCall} {messages : List CrCbStatus}
    (h : m.answer children = some (made, messages)) :
    if m.asked && m.excluder.excludes then
      ∃ calls, children = some calls ∧ made = m.excluder.call :: calls
    else made = [] := by
  rw [Member.answer] at h
  cases hasked : m.asked with
  | false =>
    rw [hasked] at h
    exact (Prod.mk.inj (Option.some.inj h)).1.symm
  | true =>
    rw [if_pos hasked, checkpointCallback_eq] at h
    obtain ⟨⟨r, below⟩, hcallback, hmade⟩ := Option.map_eq_some_iff.mp h
    obtain ⟨rfl, -⟩ := Prod.mk.inj hmade
    cases hexcludes : m.excluder.excludes with
    | false =>
      rw [hexcludes] at hcallback
      exact (Prod.mk.inj (Option.some.inj hcallback)).2.symm
    | true =>
      rw [if_pos hexcludes] at hcallback
      obtain ⟨calls, hcalls, hbelow⟩ := Option.map_eq_some_iff.mp hcallback
      exact ⟨calls, hcalls, (Prod.mk.inj hbelow).2.symm⟩

/-- The calls made below a process are those of the processes asked. -/
theorem checkpointOffspring_eq {offspring : Offspring F} {calls : List ExcludeCall}
    (h : checkpointOffspring offspring = some calls) : calls = offspring.asked.map Excluder.call := by
  induction offspring generalizing calls with
  | none =>
    obtain rfl := Option.some.inj h
    rfl
  | child member request queues firstChild next ihFirst ihNext =>
    obtain ⟨⟨made, messages⟩, hanswer, h⟩ := Option.bind_eq_some_iff.mp h
    obtain ⟨-, -, h⟩ := Option.bind_eq_some_iff.mp h
    obtain ⟨rest, hrest, heq⟩ := Option.bind_eq_some_iff.mp h
    obtain rfl := Option.some.inj heq
    rw [Offspring.asked, List.map_append, ← ihNext hrest]
    congr 1
    cases hsignals : signals request with
    | false =>
      rw [hsignals] at hanswer
      obtain ⟨rfl, -⟩ := Prod.mk.inj (Option.some.inj hanswer)
      rfl
    | true =>
      rw [if_pos hsignals] at hanswer
      have hmade := Member.answer_calls hanswer
      rw [Bool.true_and]
      split at hmade
      · rename_i hdoes
        obtain ⟨below, hbelow, rfl⟩ := hmade
        rw [if_pos hdoes, List.map_cons, ← ihFirst hbelow]
      · rename_i hdoes
        rw [if_neg hdoes, hmade, List.map_nil]

/-- The checkpoint callback of the root returns zero only if every call of `KSYS_APP_CR_EXCLUDE`
made in the tree has returned zero, exactly when the root has no region, or its own call fails, or
the calls of all processes asked below it succeed. -/
theorem rootVerdict_iff (root : Excluder F) (children : Offspring F) (r : ℤ)
    (calls : List ExcludeCall)
    (hreturn : checkpointCallback root (checkpointOffspring children) = some (r, calls)) :
    (r = 0 → ∀ c ∈ calls, c.result = 0) ↔
      root.excludes = false ∨ root.crExclude ≠ 0 ∨ ∀ p ∈ children.asked, p.crExclude = 0 := by
  rw [checkpointCallback_eq] at hreturn
  cases hexcludes : root.excludes with
  | false =>
    rw [hexcludes] at hreturn
    obtain ⟨-, rfl⟩ := Prod.mk.inj (Option.some.inj hreturn)
    simp
  | true =>
    rw [if_pos hexcludes] at hreturn
    obtain ⟨below, hbelow, heq⟩ := Option.map_eq_some_iff.mp hreturn
    obtain ⟨rfl, rfl⟩ := Prod.mk.inj heq
    rw [checkpointOffspring_eq hbelow, or_iff_right (by simp), List.forall_mem_cons,
      List.forall_mem_map]
    constructor
    · intro hverdict
      by_cases hroot : root.crExclude = 0
      · exact .inr (hverdict hroot).2
      · exact .inl hroot
    · rintro (hroot | hasked) hzero
      · exact absurd hzero hroot
      · exact ⟨hzero, hasked⟩

/-- A process with one region whose library is initialized, with what its exclusion returns. -/
def Member.single (pid crExclude : ℤ) : Member Unit where
  excluder := { Excluder.single pid with crExclude := crExclude }
  process := { (Process.initialized : Process (CallbackFunc Unit)) with info := some exclusionInfo }
  others _ := 0
  once := by
    change ((CrCbInfo.registered (exclusionInfo : CrCbInfo (CallbackFunc Unit)) .chkpt).filter
      isCheckpointCb).Sublist _
    rw [registered_exclusionInfo]
    exact List.Sublist.refl _

/-- A root with one child, both with a region, in a round whose requests succeed. -/
def parentAndChild (parent child : ℤ) : Option (ℤ × List ExcludeCall) :=
  checkpointCallback (Member.single 100 parent).excluder
    (checkpointOffspring (.child (.single 101 child) .success [] .none .none))

/-- When both exclusions succeed, the verdict is true. -/
theorem rootVerdict_success :
    ((0 : ℤ) = 0 → ∀ c ∈ [(⟨(100, [⟨100, 4096, 8⟩]), 0⟩ : ExcludeCall), ⟨(101, [⟨101, 4096, 8⟩]), 0⟩],
        c.result = 0) ↔
      (Member.single 100 0).excluder.excludes = false ∨ (Member.single 100 0).excluder.crExclude ≠ 0 ∨
        ∀ p ∈ (Offspring.child (.single 101 0) .success [] .none .none).asked, p.crExclude = 0 :=
  rootVerdict_iff (Member.single 100 0).excluder (.child (.single 101 0) .success [] .none .none) 0 _
    (by decide)

/-- The exclusion of the child fails, and the callback of the root returns zero. -/
theorem failed_exclusion_unnoticed :
    parentAndChild 0 (-1) = some (0, [⟨(100, [⟨100, 4096, 8⟩]), 0⟩, ⟨(101, [⟨101, 4096, 8⟩]), -1⟩]) := by
  decide

end Kerrighed.Krgcheckpoint
