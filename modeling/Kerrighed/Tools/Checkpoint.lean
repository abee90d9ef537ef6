import Mathlib.Algebra.Group.Nat.Defs
import Mathlib.Data.Int.Basic
import Mathlib.Data.List.Basic
import Mathlib.Tactic.Set

/-!
# The default mode of the checkpoint tool

The tool freezes an application, checkpoints it and unfreezes it. Each of the three steps
first looks at the flag that SIGINT and SIGTERM set, and the first and the last one run a
callback round before their kernel request. The answers to all requests and rounds are a
parameter, and so is the moment of the signal, counted in requests made.

An unfreeze request follows every successful freeze request unless the continue round
before it fails; a failed checkpoint only changes the signal it carries.
-/

namespace Kerrighed.Tools.Checkpoint

/-- What the command line asks for. -/
inductive AppAction where
  | all
  | checkpoint
  | freeze
  | unfreeze
  deriving DecidableEq, Repr

/-- The globals set from the command line. -/
structure Globals where
  fromAppid : Bool
  noCallbacks : Bool
  action : AppAction
  deriving DecidableEq, Repr

/-- The fields of `struct checkpoint_info` that a request carries. -/
structure CheckpointInfo where
  appId : ℤ
  flags : ℕ
  signal : ℤ
  deriving DecidableEq, Repr

/-- `KSYS_APP_FREEZE`, `KSYS_APP_CHKPT` and `KSYS_APP_UNFREEZE`. -/
inductive Service where
  | appFreeze
  | appChkpt
  | appUnfreeze
  deriving DecidableEq, Repr

/-- A callback round or a kernel request. -/
inductive Request where
  | chkptCallbacks (pid : ℤ) (fromAppid : Bool)
  | continueCallbacks (pid : ℤ) (fromAppid : Bool)
  | service (service : Service) (info : CheckpointInfo)
  deriving DecidableEq, Repr

/-- A line for the user; `perror` appends the text of `errno`. -/
inductive Output where
  | stdout (text : String)
  | stderr (text : String)
  | perror (text : String)
  deriving DecidableEq, Repr

/-- What the tool does not decide itself: the answer to each request, `errno` after a failed one,
and the number of requests made before the signal arrives, if one does. -/
structure Environment where
  answer : Request → ℤ
  errno : ℕ
  interruptAt : Option ℕ

/-- The requests made and the lines printed so far. -/
structure Progress where
  requests : List Request
  output : List Output
  deriving DecidableEq, Repr

/-- The tool has done nothing yet. -/
def Progress.start : Progress := ⟨[], []⟩

/-- Print a line. -/
def Progress.print (line : Output) (s : Progress) : Progress :=
  { s with output := s.output ++ [line] }

/-- The flag that the signal handler sets. -/
def interruptedBySignal (env : Environment) (s : Progress) : Bool :=
  env.interruptAt.any (· ≤ s.requests.length)

/-- Make a request. -/
def request (env : Environment) (r : Request) (s : Progress) : ℤ × Progress :=
  (env.answer r, { s with requests := s.requests ++ [r] })

/-- A `long` converted to `pid_t`. -/
def pidT (pid : ℤ) : ℤ := pid.bmod (2 ^ 32)

/-- The flag that marks the identifier as that of a process. -/
def appFromPid : ℕ := 1

/-- The error number for a dead process in the application. -/
def eCrTaskdead : ℕ := 1002

/-- Freeze an application given by its identifier. -/
def applicationFreezeFromAppid (env : Environment) (appId : ℤ) : Progress → ℤ × Progress :=
  request env (.service .appFreeze ⟨appId, 0, 0⟩)

/-- Freeze the application of a process. -/
def applicationFreezeFromPid (env : Environment) (pid : ℤ) : Progress → ℤ × Progress :=
  request env (.service .appFreeze ⟨pid, appFromPid, 0⟩)

/-- Unfreeze an application given by its identifier. -/
def applicationUnfreezeFromAppid (env : Environment) (appId signal : ℤ) :
    Progress → ℤ × Progress :=
  request env (.service .appUnfreeze ⟨appId, 0, signal⟩)

/-- Unfreeze the application of a process. -/
def applicationUnfreezeFromPid (env : Environment) (pid signal : ℤ) : Progress → ℤ × Progress :=
  request env (.service .appUnfreeze ⟨pid, appFromPid, signal⟩)

/-- Checkpoint an application given by its identifier. -/
def applicationCheckpointFromAppid (env : Environment) (appId : ℤ) (flags : ℕ) :
    Progress → ℤ × Progress :=
  request env (.service .appChkpt ⟨appId, flags, 0⟩)

/-- Checkpoint the application of a process. -/
def applicationCheckpointFromPid (env : Environment) (pid : ℤ) (flags : ℕ) :
    Progress → ℤ × Progress :=
  request env (.service .appChkpt ⟨pid, flags ||| appFromPid, 0⟩)

/-- Print what went wrong with a kernel request. -/
def showError (errno : ℕ) (s : Progress) : Progress :=
  if errno = eCrTaskdead then
    s.print (.stderr "checkpoint: can not checkpoint an application with dead/zombie process\n")
  else s.print (.perror "checkpoint")

/-- Announce a step, unless asked to be quiet. -/
def announce (verb : String) (g : Globals) (pid : ℤ) (quiet : Bool) (s : Progress) : Progress :=
  if quiet then s
  else if g.fromAppid then s.print (.stdout (verb ++ " application " ++ toString pid ++ "...\n"))
  else s.print (.stdout (verb ++ " application in which process " ++ toString (pidT pid) ++
    " is involved...\n"))

/-- Checkpoint the application. What is written to or removed from the checkpoint directory
afterwards is left out. -/
def checkpointApp (g : Globals) (env : Environment) (pid : ℤ) (flags : ℕ) (quiet : Bool)
    (s : Progress) : ℤ × Progress :=
  if interruptedBySignal env s then
    (-1, s.print (.stderr "checkpoint: interrupted by signal before checkpointing\n"))
  else
    let s := announce "Checkpointing" g pid quiet s
    let (r, s) :=
      if g.fromAppid then applicationCheckpointFromAppid env pid flags s
      else applicationCheckpointFromPid env (pidT pid) flags s
    (r, if r = 0 then s else showError env.errno s)

/-- Run the checkpoint callbacks and freeze the application. -/
def freezeApp (g : Globals) (env : Environment) (pid : ℤ) (quiet : Bool) (s : Progress) :
    ℤ × Progress :=
  if interruptedBySignal env s then
    (-1, s.print (.stderr "checkpoint: interrupted by signal before freezing\n"))
  else
    let (r, s) := if g.noCallbacks then (0, s) else request env (.chkptCallbacks pid g.fromAppid) s
    if r ≠ 0 then (r, s.print (.stderr "checkpoint: error during callback execution\n"))
    else
      let s := announce "Freezing" g pid quiet s
      let (r, s) :=
        if g.fromAppid then applicationFreezeFromAppid env pid s
        else applicationFreezeFromPid env (pidT pid) s
      (r, if r = 0 then s else showError env.errno s)

/-- Run the continue callbacks and unfreeze the application. Only in the default mode the
interruption does not count any more. -/
def unfreezeApp (g : Globals) (env : Environment) (pid signal : ℤ) (quiet : Bool) (s : Progress) :
    ℤ × Progress :=
  if interruptedBySignal env s ∧ g.action ≠ .all then
    (-1, s.print (.stderr "checkpoint: interrupted by signal before unfreezing\n"))
  else
    let s :=
      if interruptedBySignal env s then
        s.print (.stderr "checkpoint: ignoring interruption signal\n")
      else s
    let (r, s) :=
      if g.noCallbacks then (0, s) else request env (.continueCallbacks pid g.fromAppid) s
    if r ≠ 0 then (r, s.print (.stderr "checkpoint: error during callback execution\n"))
    else
      let s := announce "Unfreezing" g pid quiet s
      let (r, s) :=
        if g.fromAppid then applicationUnfreezeFromAppid env pid signal s
        else applicationUnfreezeFromPid env (pidT pid) signal s
      (r, if r = 0 then s else showError env.errno s)

/-- Freeze, checkpoint and unfreeze. -/
def freezeCheckpointUnfreeze (g : Globals) (env : Environment) (pid : ℤ) (flags : ℕ) (signal : ℤ)
    (quiet : Bool) (s : Progress) : ℤ × Progress :=
  let (r, s) := freezeApp g env pid quiet s
  if r ≠ 0 then (r, s)
  else
    let (r, s) := checkpointApp g env pid flags quiet s
    if r ≠ 0 then
      let (_, s) := unfreezeApp g env pid 0 true s
      (r, s)
    else unfreezeApp g env pid signal quiet s

/-- Some checkpoint request succeeded. -/
def Checkpointed (env : Environment) (requests : List Request) : Prop :=
  ∃ info, .service .appChkpt info ∈ requests ∧ env.answer (.service .appChkpt info) = 0

/-- Every successful freeze request is followed by an unfreeze request for the same application,
without a signal if the checkpoint failed. -/
def Unfrozen (env : Environment) (requests : List Request) : Prop :=
  ∀ before after info, requests = before ++ .service .appFreeze info :: after →
    env.answer (.service .appFreeze info) = 0 →
      ∃ signal, .service .appUnfreeze { info with signal := signal } ∈ after ∧
        (¬ Checkpointed env requests → signal = 0)

/-- The application as it is named in a request. -/
def target (g : Globals) (pid signal : ℤ) : CheckpointInfo :=
  if g.fromAppid then ⟨pid, 0, signal⟩ else ⟨pidT pid, appFromPid, signal⟩

/-- A callback round at the start of a step, if callbacks are to be run. -/
def rounds (g : Globals) (round : Request) : List Request := if g.noCallbacks then [] else [round]

/-- The callback round is left out or succeeds. -/
def roundPasses (g : Globals) (env : Environment) (round : Request) : Bool :=
  g.noCallbacks || env.answer round == 0

/-- The application gets frozen: no signal has arrived, and neither the checkpoint round nor the
freeze request fails. -/
def freezes (g : Globals) (env : Environment) (pid : ℤ) (s : Progress) : Bool :=
  !interruptedBySignal env s && roundPasses g env (.chkptCallbacks pid g.fromAppid) &&
    env.answer (.service .appFreeze (target g pid 0)) == 0

/-- A request is answered by the environment. -/
@[simp] theorem request_fst (env : Environment) (r : Request) (s : Progress) :
    (request env r s).1 = env.answer r := rfl

/-- A request is recorded behind those made before. -/
@[simp] theorem request_requests (env : Environment) (r : Request) (s : Progress) :
    (request env r s).2.requests = s.requests ++ [r] := rfl

/-- Printing makes no request. -/
@[simp] theorem print_requests (line : Output) (s : Progress) :
    (s.print line).requests = s.requests := rfl

/-- Announcing a step makes no request. -/
@[simp] theorem announce_requests (verb : String) (g : Globals) (pid : ℤ) (quiet : Bool)
    (s : Progress) : (announce verb g pid quiet s).requests = s.requests := by
  unfold announce
  split
  · rfl
  · split <;> rfl

/-- Explaining an error makes no request. -/
@[simp] theorem showError_requests (errno : ℕ) (s : Progress) :
    (showError errno s).requests = s.requests := by
  unfold showError
  split <;> rfl

/-- A step reports an error or not; the requests are the same. -/
@[simp] theorem reported_requests (r : ℤ) (errno : ℕ) (s : Progress) :
    (if r = 0 then s else showError errno s).requests = s.requests := by
  split
  · rfl
  · exact showError_requests errno s

/-- Ignoring a signal makes no request. -/
theorem ignored_requests (env : Environment) (s : Progress) :
    (if interruptedBySignal env s then
        s.print (.stderr "checkpoint: ignoring interruption signal\n")
      else s).requests = s.requests := by
  split <;> rfl

/-- A callback round is no other request. -/
theorem not_mem_rounds (g : Globals) {round r : Request} (h : r ≠ round) : r ∉ rounds g round := by
  unfold rounds
  split
  · exact List.not_mem_nil
  · simpa using h

/-- The freeze request names the application by the given identifier. -/
theorem applicationFreeze_eq (g : Globals) (env : Environment) (pid : ℤ) (s : Progress) :
    (if g.fromAppid then applicationFreezeFromAppid env pid s
      else applicationFreezeFromPid env (pidT pid) s) =
      request env (.service .appFreeze (target g pid 0)) s := by
  unfold target
  cases g.fromAppid <;> rfl

/-- The unfreeze request names the application by the given identifier. -/
theorem applicationUnfreeze_eq (g : Globals) (env : Environment) (pid signal : ℤ) (s : Progress) :
    (if g.fromAppid then applicationUnfreezeFromAppid env pid signal s
      else applicationUnfreezeFromPid env (pidT pid) signal s) =
      request env (.service .appUnfreeze (target g pid signal)) s := by
  unfold target
  cases g.fromAppid <;> rfl

/-- A step starts with its callback round and goes on exactly when this passes. -/
theorem callbackRound_spec (g : Globals) (env : Environment) (round : Request) (s : Progress) :
    ∃ r t, (if g.noCallbacks then (0, s) else request env round s) = (r, t) ∧
      t.requests = s.requests ++ rounds g round ∧ (r = 0 ↔ roundPasses g env round = true) := by
  cases hskip : g.noCallbacks with
  | true => exact ⟨0, s, rfl, by simp [rounds, hskip], by simp [roundPasses, hskip]⟩
  | false =>
    exact ⟨env.answer round, _, rfl, by simp [rounds, hskip], by simp [roundPasses, hskip]⟩

/-- When the application gets frozen, the freeze request is the last one of the step. -/
theorem freezeApp_of_freezes {g : Globals} {env : Environment} {pid : ℤ} {s : Progress}
    (h : freezes g env pid s = true) (quiet : Bool) :
    (freezeApp g env pid quiet s).1 = 0 ∧
      (freezeApp g env pid quiet s).2.requests = s.requests ++
        (rounds g (.chkptCallbacks pid g.fromAppid) ++
          [.service .appFreeze (target g pid 0)]) := by
  simp only [freezes, Bool.and_eq_true, Bool.not_eq_true', beq_iff_eq] at h
  obtain ⟨⟨hint, hpass⟩, hanswer⟩ := h
  obtain ⟨r, t, hround, hrequests, hpasses⟩ :=
    callbackRound_spec g env (.chkptCallbacks pid g.fromAppid) s
  have hr : r = 0 := hpasses.mpr hpass
  simp [freezeApp, hint, hround, hr, applicationFreeze_eq, hanswer, hrequests]

/-- When the application does not get frozen, the step fails and its freeze request, if it makes
one, has failed. -/
theorem freezeApp_of_not_freezes {g : Globals} {env : Environment} {pid : ℤ} {s : Progress}
    (h : freezes g env pid s = false) (quiet : Bool) :
    (freezeApp g env pid quiet s).1 ≠ 0 ∧
      ∃ tail, (freezeApp g env pid quiet s).2.requests = s.requests ++ tail ∧
        ∀ info, .service .appFreeze info ∈ tail →
          env.answer (.service .appFreeze info) ≠ 0 := by
  cases hint : interruptedBySignal env s with
  | true => exact ⟨by simp [freezeApp, hint], [], by simp [freezeApp, hint], by simp⟩
  | false =>
    obtain ⟨r, t, hround, hrequests, hpasses⟩ :=
      callbackRound_spec g env (.chkptCallbacks pid g.fromAppid) s
    cases hpass : roundPasses g env (.chkptCallbacks pid g.fromAppid) with
    | false =>
      have hr : r ≠ 0 := fun hr => by simp [hpasses.mp hr] at hpass
      refine ⟨by simp [freezeApp, hint, hround, hr], _, by simpa [freezeApp, hint, hround, hr], ?_⟩
      intro info hmem
      exact absurd hmem (not_mem_rounds g (by simp))
    | true =>
      have hr : r = 0 := hpasses.mpr hpass
      have hanswer : env.answer (.service .appFreeze (target g pid 0)) ≠ 0 := by
        simpa [freezes, hint, hpass] using h
      refine ⟨by simp [freezeApp, hint, hround, hr, applicationFreeze_eq, hanswer],
        rounds g (.chkptCallbacks pid g.fromAppid) ++ [.service .appFreeze (target g pid 0)],
        by simp [freezeApp, hint, hround, hr, applicationFreeze_eq, hrequests], ?_⟩
      intro info hmem
      rcases List.mem_append.mp hmem with hmem | hmem
      · exact absurd hmem (not_mem_rounds g (by simp))
      · rw [List.mem_singleton.mp hmem]
        exact hanswer

/-- The checkpoint step makes its request unless it is interrupted before. -/
theorem checkpointApp_spec (g : Globals) (env : Environment) (pid : ℤ) (flags : ℕ) (quiet : Bool)
    (s : Progress) :
    ((checkpointApp g env pid flags quiet s).1 ≠ 0 ∧
        (checkpointApp g env pid flags quiet s).2.requests = s.requests) ∨
      ∃ info, (checkpointApp g env pid flags quiet s).1 = env.answer (.service .appChkpt info) ∧
        (checkpointApp g env pid flags quiet s).2.requests =
          s.requests ++ [.service .appChkpt info] := by
  cases hint : interruptedBySignal env s with
  | true => exact Or.inl (by simp [checkpointApp, hint])
  | false =>
    cases happid : g.fromAppid with
    | true => exact Or.inr ⟨⟨pid, flags, 0⟩, by
        simp [checkpointApp, hint, happid, applicationCheckpointFromAppid, request]⟩
    | false => exact Or.inr ⟨⟨pidT pid, flags ||| appFromPid, 0⟩, by
        simp [checkpointApp, hint, happid, applicationCheckpointFromPid, request]⟩

/-- In the default mode the unfreeze step makes its request whenever the continue round passes. -/
theorem unfreezeApp_requests (g : Globals) (env : Environment) (pid signal : ℤ) (quiet : Bool)
    (s : Progress) :
    (unfreezeApp { g with action := .all } env pid signal quiet s).2.requests =
      s.requests ++ rounds g (.continueCallbacks pid g.fromAppid) ++
        if roundPasses g env (.continueCallbacks pid g.fromAppid) then
          [.service .appUnfreeze (target g pid signal)]
        else [] := by
  set printed : Progress :=
    if interruptedBySignal env s then
      s.print (.stderr "checkpoint: ignoring interruption signal\n")
    else s with hprinted
  have hsame : printed.requests = s.requests := ignored_requests env s
  obtain ⟨r, t, hround, hrequests, hpasses⟩ :=
    callbackRound_spec g env (.continueCallbacks pid g.fromAppid) printed
  have hunfreeze := applicationUnfreeze_eq g env pid signal
  cases hpass : roundPasses g env (.continueCallbacks pid g.fromAppid) with
  | false =>
    have hr : r ≠ 0 := fun hr => by simp [hpasses.mp hr] at hpass
    simp [unfreezeApp, ← hprinted, hround, hr, hrequests, hsame]
  | true =>
    have hr : r = 0 := hpasses.mpr hpass
    simp [unfreezeApp, ← hprinted, hround, hr, hunfreeze, hrequests, hsame]

/-- Requests that start with a successful freeze and contain no other are followed by an unfreeze
as it should be exactly when one is among the rest. -/
theorem unfrozen_append_iff {env : Environment} {before after : List Request} {info : CheckpointInfo}
    (hbefore : ∀ i, .service .appFreeze i ∉ before) (hafter : ∀ i, .service .appFreeze i ∉ after)
    (hanswer : env.answer (.service .appFreeze info) = 0) :
    Unfrozen env (before ++ .service .appFreeze info :: after) ↔
      ∃ signal, .service .appUnfreeze { info with signal := signal } ∈ after ∧
        (¬ Checkpointed env (before ++ .service .appFreeze info :: after) → signal = 0) := by
  constructor
  · intro h
    exact h before after info rfl hanswer
  · rintro h before' after' info' heq -
    obtain ⟨rfl, hinfo, rfl⟩ : before = before' ∧ _ ∧ after = after' :=
      (List.append_cons_inj_of_notMem (hbefore info') (hafter info')).mp heq
    obtain rfl : info = info' := by simpa using hinfo
    exact h

/-- Requests for an application that differ in the signal only. -/
theorem target_signal (g : Globals) (pid signal signal' : ℤ) :
    { target g pid signal with signal := signal' } = target g pid signal' := by
  unfold target
  cases g.fromAppid <;> rfl

/-- The requests of a run that freezes the application: an unfreeze request follows as it should
exactly when the continue round passes. -/
theorem unfrozen_requests_iff (g : Globals) {env : Environment} {pid : ℤ} (signal : ℤ)
    (checkpoints : List Request) (hanswer : env.answer (.service .appFreeze (target g pid 0)) = 0)
    (hcheckpoints : ∀ r ∈ checkpoints, ∃ info, r = .service .appChkpt info)
    (hsignal : ¬ Checkpointed env checkpoints → signal = 0) :
    Unfrozen env (rounds g (.chkptCallbacks pid g.fromAppid) ++ .service .appFreeze (target g pid 0) ::
        (checkpoints ++ rounds g (.continueCallbacks pid g.fromAppid) ++
          if roundPasses g env (.continueCallbacks pid g.fromAppid) then
            [.service .appUnfreeze (target g pid signal)]
          else [])) ↔
      roundPasses g env (.continueCallbacks pid g.fromAppid) = true := by
  have hbefore : ∀ i, .service .appFreeze i ∉ rounds g (.chkptCallbacks pid g.fromAppid) :=
    fun i => not_mem_rounds g (by simp)
  have hno : ∀ s i, s ≠ .appChkpt → .service s i ∉
      checkpoints ++ rounds g (.continueCallbacks pid g.fromAppid) := by
    intro s i hs hmem
    rcases List.mem_append.mp hmem with hmem | hmem
    · obtain ⟨info, hinfo⟩ := hcheckpoints _ hmem
      simp only [Request.service.injEq] at hinfo
      exact hs hinfo.1
    · exact not_mem_rounds g (by simp) hmem
  cases hpass : roundPasses g env (.continueCallbacks pid g.fromAppid) with
  | false =>
    simp only [Bool.false_eq_true, if_false, List.append_nil, iff_false]
    rw [unfrozen_append_iff hbefore (fun i => hno _ i (by simp)) hanswer]
    rintro ⟨signal', hmem, -⟩
    exact hno _ _ (by simp) hmem
  | true =>
    simp only [if_true, iff_true]
    rw [unfrozen_append_iff hbefore ?_ hanswer]
    · refine ⟨signal, by simp [target_signal], fun hfailed => hsignal fun ⟨info, hmem, hinfo⟩ => ?_⟩
      exact hfailed ⟨info, by simp [hmem], hinfo⟩
    · intro i hmem
      rcases List.mem_append.mp hmem with hmem | hmem
      · exact hno _ i (by simp) hmem
      · simp at hmem

/-- In the default mode a frozen application is unfrozen again, without a signal if the checkpoint
failed, exactly when freezing it does not succeed or the continue callbacks are skipped or
succeed. -/
theorem freezeCheckpointUnfreeze_unfrozen_iff (g : Globals) (env : Environment) (pid : ℤ)
    (flags : ℕ) (signal : ℤ) (quiet : Bool) :
    Unfrozen env (freezeCheckpointUnfreeze { g with action := .all } env pid flags signal quiet
        .start).2.requests ↔
      (freezes g env pid .start = false ∨
        roundPasses g env (.continueCallbacks pid g.fromAppid) = true) := by
  have hstart : Progress.start.requests = [] := rfl
  cases hfreeze : freezes g env pid .start with
  | false =>
    obtain ⟨hr, tail, htail, hfailed⟩ :=
      freezeApp_of_not_freezes (g := { g with action := .all }) (s := .start) hfreeze quiet
    simp only [freezeCheckpointUnfreeze, hr, ne_eq, not_false_eq_true, if_true, true_or, iff_true]
    intro before after info heq hanswer
    rw [htail, hstart, List.nil_append] at heq
    exact absurd hanswer (hfailed info (by simp [heq]))
  | true =>
    obtain ⟨hr, hrequests⟩ :=
      freezeApp_of_freezes (g := { g with action := .all }) (s := .start) hfreeze quiet
    change _ = Progress.start.requests ++ (rounds g (.chkptCallbacks pid g.fromAppid) ++
      [.service .appFreeze (target g pid 0)]) at hrequests
    have hanswer : env.answer (.service .appFreeze (target g pid 0)) = 0 := by
      simp only [freezes, Bool.and_eq_true, beq_iff_eq] at hfreeze
      exact hfreeze.2
    have hno : roundPasses g env (.continueCallbacks pid g.fromAppid) = true ↔
        (true = false ∨ roundPasses g env (.continueCallbacks pid g.fromAppid) = true) := by simp
    rw [← hno]
    rcases checkpointApp_spec { g with action := .all } env pid flags quiet
      (freezeApp { g with action := .all } env pid quiet .start).2 with
      ⟨hfail, hsame⟩ | ⟨info, hresult, hchkpt⟩
    · have hiff := unfrozen_requests_iff g 0 [] hanswer (by simp) (fun _ => rfl)
      simpa [freezeCheckpointUnfreeze, hr, hfail, unfreezeApp_requests, hsame, hrequests, hstart]
        using hiff
    · by_cases hzero : env.answer (.service .appChkpt info) = 0
      · have hiff := unfrozen_requests_iff g signal [.service .appChkpt info] hanswer
          (by simp) fun h => absurd ⟨info, by simp, hzero⟩ h
        simpa [freezeCheckpointUnfreeze, hr, hresult, hzero, unfreezeApp_requests, hchkpt,
          hrequests, hstart] using hiff
      · have hiff := unfrozen_requests_iff g 0 [.service .appChkpt info] hanswer
          (by simp) fun _ => rfl
        simpa [freezeCheckpointUnfreeze, hr, hresult, hzero, unfreezeApp_requests, hchkpt,
          hrequests, hstart] using hiff

/-- A process that refuses the continue signal is frozen, checkpointed and left frozen. -/
theorem refused_continue_stays_frozen :
    ¬ Unfrozen ⟨fun r => if r = .continueCallbacks 100 false then -1 else 0, 0, none⟩
      (freezeCheckpointUnfreeze ⟨false, false, .all⟩
        ⟨fun r => if r = .continueCallbacks 100 false then -1 else 0, 0, none⟩ 100 0 0 true
        .start).2.requests := by
  intro h
  obtain ⟨signal, hmem, -⟩ := h [.chkptCallbacks 100 false] _ ⟨100, appFromPid, 0⟩ rfl (by decide)
  revert hmem
  simp

end Kerrighed.Tools.Checkpoint
