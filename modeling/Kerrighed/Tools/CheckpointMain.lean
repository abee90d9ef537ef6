import Kerrighed.Common.CNumbers
import Kerrighed.Common.Getopt
import Kerrighed.Tools.Checkpoint

/-!
# The command line of the checkpoint tool

The options set the globals of the tool and pick the mode; the only operand is read with `atol`
and names the application or one of its processes. Every request of a run carries the
identifier that this operand gives, converted to a `pid_t` when it names a process.
-/

namespace Kerrighed.Tools.Checkpoint

open Kerrighed.Common

/-- The option string and the table of long options. -/
def longOptions : OptTable where
  short := [('h', .noArgument), ('q', .noArgument), ('a', .noArgument), ('c', .noArgument),
    ('d', .requiredArgument), ('b', .noArgument), ('f', .noArgument), ('u', .optionalArgument),
    ('k', .optionalArgument), ('i', .noArgument)]
  long := [⟨"help".toList, .noArgument, 'h'⟩, ⟨"version".toList, .noArgument, 'v'⟩,
    ⟨"quiet".toList, .noArgument, 'q'⟩, ⟨"from-appid".toList, .noArgument, 'a'⟩,
    ⟨"ckpt-only".toList, .noArgument, 'c'⟩, ⟨"description".toList, .requiredArgument, 'd'⟩,
    ⟨"no-callbacks".toList, .noArgument, 'b'⟩, ⟨"freeze".toList, .noArgument, 'f'⟩,
    ⟨"unfreeze".toList, .optionalArgument, 'u'⟩, ⟨"kill".toList, .optionalArgument, 'k'⟩,
    ⟨"ignore-unsupported-files".toList, .noArgument, 'i'⟩]

/-- `CKPT_W_UNSUPPORTED_FILE`. -/
def ckptWUnsupportedFile : ℕ := 2

/-- The globals that the options set. -/
structure Args where
  globals : Globals
  quiet : Bool
  description : Option Arg
  sig : ℤ
  flags : ℕ
  deriving DecidableEq, Repr

/-- The globals at the start of the tool. -/
def Args.start : Args := ⟨⟨false, false, .all⟩, false, none, 0, 0⟩

/-- One option, which may end the tool with an exit status. -/
def applyOption (args : Args) (option : Char × Option Arg) : Except ℤ Args :=
  match option with
  | ('h', _) => .error 0
  | ('v', _) => .error 0
  | ('q', _) => .ok { args with quiet := true }
  | ('a', _) => .ok { args with globals := { args.globals with fromAppid := true } }
  | ('d', optarg) => .ok { args with description := optarg }
  | ('c', _) => .ok { args with globals := { args.globals with action := .checkpoint } }
  | ('b', _) => .ok { args with globals := { args.globals with noCallbacks := true } }
  | ('f', _) => .ok { args with globals := { args.globals with action := .freeze } }
  | ('u', optarg) =>
    .ok { args with
      globals := { args.globals with action := .unfreeze }
      sig := optarg.elim args.sig atoi }
  | ('k', optarg) => .ok { args with sig := optarg.elim 15 atoi }
  | ('i', _) => .ok { args with flags := args.flags ||| ckptWUnsupportedFile }
  | _ => .error 1

/-- All options and the operand, or the exit status where the tool ends before. -/
def parseArgs (argv : List Arg) : Except ℤ (Args × Arg) := do
  let parsed := getoptLong longOptions argv
  let args ← parsed.options.foldlM applyOption .start
  if parsed.failed then .error 1
  else
    match parsed.operands with
    | [operand] => .ok (args, operand)
    | _ => .error 1

/-- The mode that the options pick. -/
def runAction (args : Args) (env : Environment) (pid : ℤ) : ℤ × Progress :=
  let g := args.globals
  match g.action with
  | .checkpoint => checkpointApp g env pid args.flags args.quiet .start
  | .freeze => freezeApp g env pid args.quiet .start
  | .unfreeze => unfreezeApp g env pid args.sig args.quiet .start
  | .all => freezeCheckpointUnfreeze g env pid args.flags args.sig args.quiet .start

/-- The tool: its exit status and what it has done. `checkEnvironment` tells whether Kerrighed
runs and the checkpoint directory exists. -/
def main (env : Environment) (checkEnvironment : Bool) (argv : List Arg) : ℤ × Progress :=
  match parseArgs argv with
  | .error status => (status, .start)
  | .ok (args, operand) =>
    if checkEnvironment = false then (1, .start)
    else
      let pid := atol operand
      if pid < 2 then (1, .start)
      else
        let r := runAction args env pid
        (if r.1 ≠ 0 then 1 else 0, r.2)

/-- Every kernel request so far carries the identifier. -/
def Carries (id : ℤ) (s : Progress) : Prop :=
  ∀ service info, .service service info ∈ s.requests → info.appId = id

/-- At the start there is no request. -/
theorem carries_start (id : ℤ) : Carries id .start :=
  fun _ _ hmem => absurd hmem List.not_mem_nil

/-- Requests that carry the identifier may be added. -/
theorem Carries.append {id : ℤ} {s t : Progress} (hs : Carries id s) {rs : List Request}
    (h : t.requests = s.requests ++ rs)
    (hrs : ∀ service info, .service service info ∈ rs → info.appId = id) : Carries id t := by
  intro service info hmem
  rw [h, List.mem_append] at hmem
  exact hmem.elim (hs service info) (hrs service info)

/-- Steps that only print leave the requests as they are. -/
theorem Carries.of_requests {id : ℤ} {s t : Progress} (hs : Carries id s)
    (h : t.requests = s.requests) : Carries id t := by
  intro service info hmem
  rw [h] at hmem
  exact hs service info hmem

/-- A kernel request with the identifier may be added. -/
theorem Carries.service {id : ℤ} {s : Progress} (hs : Carries id s) (env : Environment)
    (service : Service) {info : CheckpointInfo} (hinfo : info.appId = id) :
    Carries id (request env (.service service info) s).2 := by
  refine hs.append (request_requests env _ s) fun service' info' hmem => ?_
  cases List.mem_singleton.mp hmem
  exact hinfo

/-- A callback round carries no identifier for the kernel. -/
theorem Carries.rounds {id : ℤ} {s t : Progress} (hs : Carries id s) (g : Globals)
    {round : Request} (hround : ∀ service info, .service service info ≠ round)
    (h : t.requests = s.requests ++ Checkpoint.rounds g round) : Carries id t :=
  hs.append h fun service info hmem => absurd hmem (not_mem_rounds g (hround service info))

/-- The identifier does not depend on the signal. -/
theorem target_appId (g : Globals) (pid signal : ℤ) :
    (target g pid signal).appId = (target g pid 0).appId := by
  unfold target
  cases g.fromAppid <;> rfl

/-- The checkpoint request names the application by the given identifier. -/
theorem applicationCheckpoint_eq (g : Globals) (env : Environment) (pid : ℤ) (flags : ℕ)
    (s : Progress) :
    ∃ info, info.appId = (target g pid 0).appId ∧
      (if g.fromAppid then applicationCheckpointFromAppid env pid flags s
        else applicationCheckpointFromPid env (pidT pid) flags s) =
        request env (.service .appChkpt info) s := by
  unfold target
  cases g.fromAppid with
  | true => exact ⟨⟨pid, flags, 0⟩, rfl, rfl⟩
  | false => exact ⟨⟨pidT pid, flags ||| appFromPid, 0⟩, rfl, rfl⟩

/-- Checkpointing asks for the identifier. -/
theorem carries_checkpointApp (g : Globals) (env : Environment) (pid : ℤ) (flags : ℕ)
    (quiet : Bool) {s : Progress} (hs : Carries (target g pid 0).appId s) :
    Carries (target g pid 0).appId (checkpointApp g env pid flags quiet s).2 := by
  obtain ⟨info, hinfo, hrequest⟩ :=
    applicationCheckpoint_eq g env pid flags (announce "Checkpointing" g pid quiet s)
  rw [checkpointApp]
  split
  · exact hs.of_requests (print_requests _ s)
  · simp only [hrequest]
    have hannounced := hs.of_requests (announce_requests "Checkpointing" g pid quiet s)
    exact (hannounced.service env .appChkpt hinfo).of_requests (reported_requests _ _ _)

/-- Freezing asks for the identifier. -/
theorem carries_freezeApp (g : Globals) (env : Environment) (pid : ℤ) (quiet : Bool)
    {s : Progress} (hs : Carries (target g pid 0).appId s) :
    Carries (target g pid 0).appId (freezeApp g env pid quiet s).2 := by
  obtain ⟨r, t, hround, hrequests, -⟩ :=
    callbackRound_spec g env (.chkptCallbacks pid g.fromAppid) s
  have ht := hs.rounds g (fun _ _ => Request.noConfusion) hrequests
  rw [freezeApp]
  split
  · exact hs.of_requests (print_requests _ s)
  · simp only [hround, applicationFreeze_eq]
    split
    · exact ht.of_requests (print_requests _ t)
    · have hannounced := ht.of_requests (announce_requests "Freezing" g pid quiet t)
      exact (hannounced.service env .appFreeze rfl).of_requests (reported_requests _ _ _)

/-- Unfreezing asks for the identifier. -/
theorem carries_unfreezeApp (g : Globals) (env : Environment) (pid signal : ℤ) (quiet : Bool)
    {s : Progress} (hs : Carries (target g pid 0).appId s) :
    Carries (target g pid 0).appId (unfreezeApp g env pid signal quiet s).2 := by
  rw [unfreezeApp]
  split
  · exact hs.of_requests (print_requests _ s)
  · set printed : Progress :=
      if interruptedBySignal env s then
        s.print (.stderr "checkpoint: ignoring interruption signal\n")
      else s
    have hsame : printed.requests = s.requests := ignored_requests env s
    obtain ⟨r, t, hround, hrequests, -⟩ :=
      callbackRound_spec g env (.continueCallbacks pid g.fromAppid) printed
    have ht := (hs.of_requests hsame).rounds g (fun _ _ => Request.noConfusion) hrequests
    simp only [hround, applicationUnfreeze_eq]
    split
    · exact ht.of_requests (print_requests _ t)
    · have hannounced := ht.of_requests (announce_requests "Unfreezing" g pid quiet t)
      exact (hannounced.service env .appUnfreeze (target_appId g pid signal)).of_requests
        (reported_requests _ _ _)

/-- The default mode asks for the identifier. -/
theorem carries_freezeCheckpointUnfreeze (g : Globals) (env : Environment) (pid : ℤ) (flags : ℕ)
    (signal : ℤ) (quiet : Bool) {s : Progress} (hs : Carries (target g pid 0).appId s) :
    Carries (target g pid 0).appId
      (freezeCheckpointUnfreeze g env pid flags signal quiet s).2 := by
  have hfrozen := carries_freezeApp g env pid quiet hs
  have hckpt := carries_checkpointApp g env pid flags quiet hfrozen
  simp only [freezeCheckpointUnfreeze]
  split
  · exact hfrozen
  · split
    · exact carries_unfreezeApp g env pid 0 true hckpt
    · exact carries_unfreezeApp g env pid signal quiet hckpt

/-- Whatever the options pick, the requests ask for the identifier. -/
theorem carries_runAction (args : Args) (env : Environment) (pid : ℤ) :
    Carries (target args.globals pid 0).appId (runAction args env pid).2 := by
  have hstart := carries_start (target args.globals pid 0).appId
  rw [runAction]
  split
  · exact carries_checkpointApp args.globals env pid args.flags args.quiet hstart
  · exact carries_freezeApp args.globals env pid args.quiet hstart
  · exact carries_unfreezeApp args.globals env pid args.sig args.quiet hstart
  · exact carries_freezeCheckpointUnfreeze args.globals env pid args.flags args.sig args.quiet
      hstart

/-- A run that makes a kernel request has read its identifier, at least 2, from the operand. -/
theorem main_request {env : Environment} {checkEnvironment : Bool} {argv : List Arg}
    {service : Service} {info : CheckpointInfo}
    (hr : .service service info ∈ (main env checkEnvironment argv).2.requests) :
    ∃ args operand, parseArgs argv = .ok (args, operand) ∧ 2 ≤ atol operand ∧
      info.appId = (target args.globals (atol operand) 0).appId := by
  rw [main] at hr
  cases hparse : parseArgs argv with
  | error status => simp [hparse, Progress.start] at hr
  | ok given =>
    obtain ⟨args, operand⟩ := given
    simp only [hparse] at hr
    split at hr
    · simp [Progress.start] at hr
    · split at hr
      · simp [Progress.start] at hr
      · rename_i hpid
        exact ⟨args, operand, rfl, not_lt.mp hpid, carries_runAction args env _ _ _ hr⟩

/-- A number converted to `long` and then to `pid_t` is converted to `int`. -/
theorem pidT_eq (v : ℤ) : pidT v = toInt v := rfl

/-- In the mode that names a process, a number below 2 leads to no request, and the requests for
any other one carry it exactly when a `pid_t` can hold it. -/
theorem main_appId_iff {argv : List Arg} {args : Args} {operand : Arg} {v : ℤ}
    (hparse : parseArgs argv = .ok (args, operand)) (hmode : args.globals.fromAppid = false)
    (hv : decimalValue operand = some v) (env : Environment) (checkEnvironment : Bool) :
    (v < 2 → ∀ service info,
      .service service info ∉ (main env checkEnvironment argv).2.requests) ∧
    ∀ service info, .service service info ∈ (main env checkEnvironment argv).2.requests →
      (info.appId = v ↔ v ≤ 2147483647) := by
  have hatol : atol operand = clampLong v := congrArg Prod.fst (strtol_decimal hv)
  have hread : ∀ service info,
      .service service info ∈ (main env checkEnvironment argv).2.requests →
        2 ≤ v ∧ info.appId = toInt (clampLong v) := by
    intro service info hr
    obtain ⟨args', operand', hparse', hpid, happId⟩ := main_request hr
    rw [hparse] at hparse'
    cases hparse'
    rw [hatol] at hpid happId
    rw [target, if_neg (by simp [hmode]), pidT_eq] at happId
    refine ⟨?_, happId⟩
    rw [clampLong, longMin, longMax] at hpid
    omega
  refine ⟨fun hlow service info hr => ?_, fun service info hr => ?_⟩
  · have := (hread service info hr).1
    omega
  · obtain ⟨hpid, happId⟩ := hread service info hr
    rw [happId, toInt_clampLong_eq_iff]
    omega

end Kerrighed.Tools.Checkpoint
