import Kerrighed.Krgcapset.Capabilities
import Kerrighed.Tools.CheckpointMain
import Kerrighed.Tools.Migrate
import Kerrighed.Tools.RestartRequests
import Kerrighed.Tools.Supervision

/-!
# Launching an application that can be checkpointed

`krgcr-run` gives itself the capability that its children inherit, and starts the program in a session
of its own. The child writes the number of the session into a file before it becomes the program; the
parent prints the number of the child. These are one number, and the other tools take it.

Whatever the system answers, a program that is started has the capability and its session, and nothing
on the way through the text changes the process that `checkpoint`, `restart` and `migrate` will name to
the kernel. Whether the text arrives is another matter: the tool does not look at what comes of writing
it, and starts the program with whatever part of the number is in the file.
-/

namespace Kerrighed.Tools.KrgcrRun

open Kerrighed.Common Kerrighed.Krgcapset

/-- The option string. -/
def optstring : OptTable where
  short := [('v', .noArgument), ('h', .noArgument), ('b', .noArgument), ('o', .requiredArgument),
    ('q', .noArgument), ('s', .noArgument), ('n', .noArgument)]
  long := []

/-- `MAX_FILEPATH`. -/
def maxFilepath : ℕ := 256

/-- `CAP_CHECKPOINTABLE`. -/
def capCheckpointable : ℕ := 4

/-- The number of a process, as `vfork` returns it to the parent. -/
structure Pid where
  val : ℤ
  positive : 0 < val
  fits : val ≤ 2147483647
  deriving DecidableEq

/-- The globals that the options set. -/
structure Args where
  background : Bool
  syncWPipe : Bool
  setcap : Bool
  quiet : Bool
  filepath : List Char
  deriving DecidableEq, Repr

/-- The globals at the start of the tool. -/
def Args.start : Args := ⟨false, false, true, false, []⟩

/-- One option, which may end the tool with an exit status. -/
def applyOption (args : Args) (option : Char × Option Arg) : Except ℤ Args :=
  match option with
  | ('v', _) => .error 0
  | ('b', _) => .ok { args with background := true }
  | ('o', optarg) => .ok { args with filepath := (optarg.getD []).take (maxFilepath - 1) }
  | ('h', _) => .error 0
  | ('q', _) => .ok { args with quiet := true }
  | ('s', _) => .ok { args with syncWPipe := true }
  | ('n', _) => .ok { args with setcap := false }
  | _ => .error 1

/-- All options and the words of the program, or the exit status where the tool ends before. A program
in the foreground is not waited for through a pipe. -/
def parseArgs (argv : List Arg) : Except ℤ (Args × List Arg) := do
  let parsed := getoptLong optstring argv
  let args ← parsed.options.foldlM applyOption .start
  if parsed.failed then .error 1
  else
    .ok (if args.background then args else { args with syncWPipe := false }, parsed.operands)

/-- What the system answers: the capabilities of the process, whether they can be set, whether there
is a pipe, the child, whether it gets a session, which files can be opened, how much of a text gets
into a file or to the standard output, which programs can be executed, and the results of `wait`. -/
structure System where
  capget : Option KrgCap
  capset : KrgCap → ℤ
  pipe : Bool
  vfork : Option Pid
  setsid : Bool
  fopen : List Char → Bool
  fprintf : List Char → List Char → ℕ
  printf : List Char → ℕ
  execvp : List Arg → Bool
  wait : List Supervision.WaitResult

/-- What the tool does, in both of its processes. -/
inductive Action where
  | capset (caps : KrgCap)
  | setsid
  | write (path text : List Char)
  | exec (words : List Arg)
  | print (text : List Char)
  deriving DecidableEq, Repr

/-- The capabilities with the one for checkpoints, which the children inherit. -/
def checkpointable (caps : KrgCap) : KrgCap :=
  { caps with inheritableEffective := caps.inheritableEffective ||| (1#32 <<< capCheckpointable) }

/-- `give_checkpointable_capability`: whether the tool goes on, and the request made. -/
def giveCheckpointableCapability (sys : System) : Bool × List Action :=
  match sys.capget with
  | none => (false, [])
  | some caps => (sys.capset (checkpointable caps) == 0, [.capset (checkpointable caps)])

/-- What gets into a file of the number of a session. -/
def System.written (sys : System) (path : List Char) (sid : Pid) : List Char :=
  (printDecimal sid.val).take (sys.fprintf path (printDecimal sid.val))

/-- The child until it becomes the program or fails. The session has the number of the child. Whether
its text gets into the file is not looked at. -/
def child (sys : System) (args : Args) (sid : Pid) (words : List Arg) : List Action :=
  if sys.setsid = false then []
  else if args.filepath ≠ [] ∧ sys.fopen args.filepath = false then [.setsid]
  else
    let written :=
      if args.filepath = [] then []
      else [Action.write args.filepath (sys.written args.filepath sid)]
    .setsid :: written ++ if words ≠ [] ∧ sys.execvp words = true then [.exec words] else []

/-- What the parent prints. -/
def runningApplication (pid : Pid) : List Char :=
  "Running application ".toList ++ printDecimal pid.val ++ ['\n']

/-- What gets to the standard output of it. -/
def System.printed (sys : System) (pid : Pid) : List Char :=
  (runningApplication pid).take (sys.printf (runningApplication pid))

/-- The parent, which prints the number of the child and may wait for its end: its exit, unless it still
waits. What it reads from the pipe is not looked at. -/
def parent (sys : System) (args : Args) (pid : Pid) : Option Supervision.Exit × List Action :=
  (if args.background then some .success else (Supervision.krgcrRunParent sys.wait).map (·.exit),
    if args.quiet then [] else [.print (sys.printed pid)])

/-- The tool: how it ends, unless it still waits, and what its processes do. The parent goes on when the
child has become the program or has failed. -/
def main (sys : System) (argv : List Arg) : Option Supervision.Exit × List Action :=
  if argv = [] then (some .failure, [])
  else
    match parseArgs argv with
    | .error status => (some (.ofStatus (some status)), [])
    | .ok (args, words) =>
      let (given, requests) :=
        if args.setcap then giveCheckpointableCapability sys else (true, [])
      if given = false then (some .failure, requests)
      else if args.syncWPipe ∧ sys.pipe = false then (some .failure, requests)
      else
        match sys.vfork with
        | none => (some .failure, requests)
        | some pid =>
          let (exit, printed) := parent sys args pid
          (exit, requests ++ child sys args pid words ++ printed)

/-- An option is among those given. -/
def Given (argv : List Arg) (c : Char) : Bool := (getoptLong optstring argv).options.any (·.1 = c)

/-- The name of the file for the session, which is empty where no file is asked for. -/
def sessionFile (argv : List Arg) : List Char :=
  ((valuesOf 'o' (getoptLong optstring argv).options).getLast?.getD []).take (maxFilepath - 1)

/-- The capability for checkpoints becomes one that is inherited, and no other is changed. -/
structure Raises (old new : KrgCap) : Prop where
  effective : new.effective = old.effective
  permitted : new.permitted = old.permitted
  inheritablePermitted : new.inheritablePermitted = old.inheritablePermitted
  inheritableEffective : ∀ cap < 32, capRaised new.inheritableEffective cap =
    (capRaised old.inheritableEffective cap || decide (cap = capCheckpointable))

/-- A program is started as the command line says. -/
structure Launched (sys : System) (argv : List Arg) (words : List Arg) (pid : Pid) : Prop where
  forked : sys.vfork = some pid
  operands : (getoptLong optstring argv).operands = words
  actions : ∃ requests, (main sys argv).2 =
    requests ++ .setsid ::
      (if sessionFile argv = [] then []
        else [.write (sessionFile argv) (sys.written (sessionFile argv) pid)]) ++
      .exec words ::
      (if Given argv 'q' then [] else [.print (sys.printed pid)]) ∧
    if Given argv 'n' then requests = []
    else ∃ caps new, sys.capget = some caps ∧ Raises caps new ∧ sys.capset new = 0 ∧
      requests = [.capset new]
  written : sys.written (sessionFile argv) pid <+: printDecimal pid.val ∧
    ((printDecimal pid.val).length ≤ sys.fprintf (sessionFile argv) (printDecimal pid.val) →
      sys.written (sessionFile argv) pid = printDecimal pid.val)
  printed : sys.printed pid <+: runningApplication pid ∧
    ((runningApplication pid).length ≤ sys.printf (runningApplication pid) →
      sys.printed pid = runningApplication pid)
  exit : (main sys argv).1 =
    if Given argv 'b' then some .success else (Supervision.krgcrRunParent sys.wait).map (·.exit)

/-- A capability is raised when its bit is set. -/
theorem capRaised_eq_getLsbD (capVector : BitVec 32) {cap : ℕ} (hcap : cap < 32) :
    capRaised capVector cap = capVector.getLsbD cap := by
  have hbit : (BitVec.twoPow 32 cap).getLsbD cap = true := by
    rw [BitVec.getLsbD_twoPow]
    simpa using hcap
  have hne : BitVec.twoPow 32 cap ≠ 0#32 := fun hzero => by
    rw [hzero, BitVec.getLsbD_zero] at hbit
    contradiction
  rw [capRaised, ← BitVec.twoPow_eq, BitVec.and_twoPow]
  cases capVector.getLsbD cap with
  | true => simpa using hne
  | false => simp

/-- The request raises the capability for checkpoints. -/
theorem raises_checkpointable (caps : KrgCap) : Raises caps (checkpointable caps) where
  effective := rfl
  permitted := rfl
  inheritablePermitted := rfl
  inheritableEffective cap hcap := by
    rw [capRaised_eq_getLsbD _ hcap, capRaised_eq_getLsbD _ hcap, checkpointable, BitVec.getLsbD_or,
      ← BitVec.twoPow_eq, BitVec.getLsbD_twoPow]
    by_cases heq : cap = capCheckpointable
    · rw [heq]
      rfl
    · simp [heq, Ne.symm heq]

/-- The options that are accepted set the globals as they say. -/
theorem options_of_foldlM {options : List (Char × Option Arg)} {args : Args}
    (h : options.foldlM applyOption .start = .ok args) :
    args.background = options.any (·.1 = 'b') ∧ args.quiet = options.any (·.1 = 'q') ∧
      (!args.setcap) = options.any (·.1 = 'n') ∧
      args.filepath = ((valuesOf 'o' options).getLast?.getD []).take (maxFilepath - 1) := by
  have hstep (s : Args) (o : Char × Option Arg) (s' : Args) (h : applyOption s o = .ok s') :
      s'.background = (s.background || decide (o.1 = 'b')) ∧
        s'.quiet = (s.quiet || decide (o.1 = 'q')) ∧
        (!s'.setcap) = (!s.setcap || decide (o.1 = 'n')) ∧
        s'.filepath = if o.1 = 'o' then (o.2.getD []).take (maxFilepath - 1) else s.filepath := by
    unfold applyOption at h
    split at h
    all_goals first
      | contradiction
      | cases Except.ok.inj h
        simp
  refine ⟨?_, ?_, ?_, ?_⟩
  · exact flag_foldlM (·.background) 'b' (fun s o s' h => (hstep s o s' h).1) h
  · exact flag_foldlM (·.quiet) 'q' (fun s o s' h => (hstep s o s' h).2.1) h
  · exact flag_foldlM (fun s => !s.setcap) 'n' (fun s o s' h => (hstep s o s' h).2.2.1) h
  · have hlast := value_foldlM (·.filepath) 'o' (fun value => value.take (maxFilepath - 1))
      (fun s o s' h => (hstep s o s' h).2.2.2) h
    rw [hlast]
    cases (valuesOf 'o' options).getLast? with
    | none => rfl
    | some value => rfl

/-- An accepted command line sets the globals as its options say. -/
theorem parseArgs_ok {argv : List Arg} {args : Args} {words : List Arg}
    (h : parseArgs argv = .ok (args, words)) :
    args.background = Given argv 'b' ∧ args.quiet = Given argv 'q' ∧ args.setcap = !Given argv 'n' ∧
      args.filepath = sessionFile argv ∧ (getoptLong optstring argv).operands = words := by
  simp only [parseArgs] at h
  cases hfold : (getoptLong optstring argv).options.foldlM applyOption .start with
  | error status =>
    rw [hfold] at h
    contradiction
  | ok args' =>
    obtain ⟨hbackground, hquiet, hsetcap, hfile⟩ := options_of_foldlM hfold
    rw [hfold] at h
    cases hfailed : (getoptLong optstring argv).failed with
    | true => simp [hfailed, bind, Except.bind] at h
    | false =>
      simp only [hfailed, bind, Except.bind, Bool.false_eq_true, if_false] at h
      obtain ⟨rfl, rfl⟩ := Prod.mk.inj (Except.ok.inj h)
      rw [Given, Given, Given, ← hbackground, ← hquiet, ← hsetcap, Bool.not_not, sessionFile, ← hfile]
      split
      · exact ⟨rfl, rfl, rfl, rfl, rfl⟩
      · exact ⟨rfl, rfl, rfl, rfl, rfl⟩

/-- The program starts in a session of its own, when its file is written as far as it gets. -/
theorem child_of_exec {sys : System} {args : Args} {pid : Pid} {operands words : List Arg}
    (h : .exec words ∈ child sys args pid operands) :
    operands = words ∧ child sys args pid operands =
      .setsid :: (if args.filepath = [] then []
          else [.write args.filepath (sys.written args.filepath pid)]) ++ [.exec words] := by
  unfold child at h ⊢
  split at h
  · contradiction
  · rename_i hsession
    rw [if_neg hsession]
    split at h
    · simp at h
    · rename_i hfile
      rw [if_neg hfile]
      dsimp only at h ⊢
      by_cases hstarted : operands ≠ [] ∧ sys.execvp operands = true
      · rw [if_pos hstarted] at h ⊢
        have hwords : operands = words := by
          rcases List.mem_append.mp h with hmem | hmem
          · split at hmem <;> simp at hmem
          · exact (Action.exec.inj (List.mem_singleton.mp hmem)).symm
        exact ⟨hwords, by rw [hwords]⟩
      · rw [if_neg hstarted, List.append_nil] at h
        split at h <;> simp at h

/-- Only the request for the capability comes before the child, and where it is made and the tool goes
on, the kernel has granted it. -/
theorem capability_spec (sys : System) (setcap : Bool) :
    ∃ given requests,
      (if setcap then giveCheckpointableCapability sys else (true, [])) = (given, requests) ∧
      (∀ words, .exec words ∉ requests) ∧
      (given = true → if setcap then ∃ caps new, sys.capget = some caps ∧ Raises caps new ∧
          sys.capset new = 0 ∧ requests = [.capset new]
        else requests = []) := by
  cases setcap with
  | false => exact ⟨true, [], rfl, fun _ => List.not_mem_nil, fun _ => rfl⟩
  | true =>
    rw [if_pos rfl, giveCheckpointableCapability]
    cases hcaps : sys.capget with
    | none => exact ⟨false, [], rfl, fun _ => List.not_mem_nil, fun h => by contradiction⟩
    | some caps =>
      refine ⟨_, _, rfl, fun words h => ?_, fun h => ?_⟩
      · cases List.mem_singleton.mp h
      · exact ⟨caps, _, rfl, raises_checkpointable caps, beq_iff_eq.mp h, rfl⟩

/-- A program that was started was started as the command line says. -/
theorem launched_of_exec {sys : System} {argv words : List Arg}
    (h : .exec words ∈ (main sys argv).2) : ∃ pid, Launched sys argv words pid := by
  have hargv : argv ≠ [] := by
    rintro rfl
    simp [main] at h
  cases hparse : parseArgs argv with
  | error status => simp [main, hargv, hparse] at h
  | ok parsed =>
    obtain ⟨args, operands⟩ := parsed
    obtain ⟨hbackground, hquiet, hsetcap, hfile, hoperands⟩ := parseArgs_ok hparse
    obtain ⟨given, requests, hgate, hnone, hgranted⟩ := capability_spec sys args.setcap
    have hmain : main sys argv =
        if given = false then (some .failure, requests)
        else if args.syncWPipe ∧ sys.pipe = false then (some .failure, requests)
        else
          match sys.vfork with
          | none => (some .failure, requests)
          | some pid =>
            ((parent sys args pid).1,
              requests ++ child sys args pid operands ++ (parent sys args pid).2) := by
      simp only [main, hargv, if_false, hparse, hgate]
    cases given with
    | false =>
      rw [hmain] at h
      exact absurd h (hnone words)
    | true =>
      by_cases hpipe : args.syncWPipe ∧ sys.pipe = false
      · rw [hmain, if_neg (by decide), if_pos hpipe] at h
        exact absurd h (hnone words)
      · rw [if_neg (by decide), if_neg hpipe] at hmain
        cases hfork : sys.vfork with
        | none =>
          rw [hmain, hfork] at h
          exact absurd h (hnone words)
        | some pid =>
          simp only [hfork] at hmain
          have hexec : .exec words ∈ child sys args pid operands := by
            rw [hmain] at h
            rcases List.mem_append.mp h with h | h
            · exact (List.mem_append.mp h).resolve_left (hnone words)
            · simp only [parent] at h
              split at h <;> simp at h
          obtain ⟨hwords, hchild⟩ := child_of_exec hexec
          refine ⟨pid, hfork, hoperands.trans hwords, ⟨requests, ?_, ?_⟩,
            ⟨List.take_prefix _ _, List.take_of_length_le⟩,
            ⟨List.take_prefix _ _, List.take_of_length_le⟩, ?_⟩
          · rw [hmain, hchild, ← hfile, ← hquiet, parent]
            simp only [List.append_assoc, List.cons_append, List.nil_append]
          · have hrequests := hgranted rfl
            rw [hsetcap] at hrequests
            cases hgiven : Given argv 'n' with
            | true => simpa [hgiven] using hrequests
            | false => simpa [hgiven] using hrequests
          · rw [hmain, ← hbackground, parent]

/-- The number of a process is read back as a `long`. -/
theorem atol_printDecimal (pid : Pid) : atol (printDecimal pid.val) = pid.val := by
  have hlow := pid.positive
  have hhigh := pid.fits
  rw [atol, strtol_decimal (decimalValue_printDecimal pid.val), clampLong, longMin, longMax,
    min_eq_left (by omega), max_eq_right (by omega)]

/-- The number of a process is a `pid_t`. -/
theorem toInt_pid (pid : Pid) : toInt pid.val = pid.val := by
  have hlow := pid.positive
  have hhigh := pid.fits
  exact Int.bmod_eq_of_le (by omega) (by omega)

/-- The text of a number is no option. -/
theorem element_printDecimal (table : OptTable) (pid : Pid) :
    element table (printDecimal pid.val) = .operand := by
  have hdigits : printDecimal pid.val = Nat.toDigits 10 pid.val.natAbs := by
    rw [printDecimal, if_neg (not_lt.mpr pid.positive.le), List.nil_append]
  have hminus : '-' ∉ printDecimal pid.val := by
    rw [hdigits]
    intro hmem
    have hdigit : '-'.isDigit = true := Nat.isDigit_of_mem_toDigits (by decide) (by decide) hmem
    contradiction
  unfold element
  split
  · rename_i heq
    exact absurd (heq ▸ List.mem_cons_self) hminus
  · rename_i heq
    exact absurd (heq ▸ List.mem_cons_self) hminus
  · rename_i heq
    exact absurd (heq ▸ List.mem_cons_self) hminus
  · rfl

/-- In the default mode the requests of freezing are made. -/
theorem mem_freezeCheckpointUnfreeze {g : Checkpoint.Globals} {env : Checkpoint.Environment} {pid : ℤ}
    {quiet : Bool} {r : Checkpoint.Request}
    (h : r ∈ (Checkpoint.freezeApp { g with action := .all } env pid quiet .start).2.requests)
    (flags : ℕ) (signal : ℤ) :
    r ∈ (Checkpoint.freezeCheckpointUnfreeze { g with action := .all } env pid flags signal quiet
      .start).2.requests := by
  have hckpt : r ∈ (Checkpoint.checkpointApp { g with action := .all } env pid flags quiet
      (Checkpoint.freezeApp { g with action := .all } env pid quiet .start).2).2.requests := by
    rcases Checkpoint.checkpointApp_spec { g with action := .all } env pid flags quiet
      (Checkpoint.freezeApp { g with action := .all } env pid quiet .start).2 with
      ⟨-, hsame⟩ | ⟨info, -, hsome⟩
    · rwa [hsame]
    · rw [hsome]
      exact List.mem_append_left _ h
  simp only [Checkpoint.freezeCheckpointUnfreeze]
  split
  · exact h
  · split
    · simp only [Checkpoint.unfreezeApp_requests]
      exact List.mem_append_left _ (List.mem_append_left _ hckpt)
    · rw [Checkpoint.unfreezeApp_requests]
      exact List.mem_append_left _ (List.mem_append_left _ hckpt)

/-- With the text of a process alone, the checkpoint tool freezes the application of this process. -/
theorem checkpoint_freezes {pid : Pid} (hpid : 2 ≤ pid.val) {env : Checkpoint.Environment}
    (hsignal : env.interruptAt = none) (hround : env.answer (.chkptCallbacks pid.val false) = 0) :
    .service .appFreeze ⟨pid.val, Checkpoint.appFromPid, 0⟩ ∈
      (Checkpoint.main env true [printDecimal pid.val]).2.requests := by
  have hparse : Checkpoint.parseArgs [printDecimal pid.val] = .ok (.start, printDecimal pid.val) := by
    simp only [Checkpoint.parseArgs, getoptLong, element_printDecimal]
    rfl
  have hlarge : ¬ pid.val < 2 := by omega
  have hfreeze : .service .appFreeze ⟨pid.val, Checkpoint.appFromPid, 0⟩ ∈
      (Checkpoint.freezeApp { (⟨false, false, .all⟩ : Checkpoint.Globals) with action := .all } env
        pid.val false .start).2.requests := by
    simp [Checkpoint.freezeApp, Checkpoint.interruptedBySignal, hsignal, hround,
      Checkpoint.applicationFreezeFromPid, Checkpoint.pidT_eq, toInt_pid]
  have hmain := mem_freezeCheckpointUnfreeze hfreeze 0 0
  simp only [Checkpoint.main, hparse, atol_printDecimal, hlarge, if_false, Bool.true_eq_false]
  exact hmain

/-- What the other tools make of a text that stands for a process. -/
structure Names (text : List Char) (pid : Pid) : Prop where
  checkpoint : ∀ env checkEnvironment argv args, Checkpoint.parseArgs argv = .ok (args, text) →
    ∀ service info,
      .service service info ∈ (Checkpoint.main env checkEnvironment argv).2.requests →
        info.appId = pid.val
  freeze : 2 ≤ pid.val → ∀ env : Checkpoint.Environment, env.interruptAt = none →
    env.answer (.chkptCallbacks pid.val false) = 0 →
      .service .appFreeze ⟨pid.val, Checkpoint.appFromPid, 0⟩ ∈
        (Checkpoint.main env true [text]).2.requests
  restart : ∀ fcntl kernel env argv version,
    (getoptLong Restart.longOptions argv).operands = [text, version] →
      ∀ outcome requests, Restart.restart fcntl kernel env argv = some (outcome, requests) →
        ∀ request ∈ requests, request.appId = pid.val
  migrate : ∀ call argv nodeid, (getoptLong Migrate.longOptions argv).operands = [text, nodeid] →
    ∀ request ∈ (Migrate.main call argv).requests,
      request.migrationInfos.toMigrate = pid.val

/-- The other tools take the text of a process for the process. -/
theorem names_printDecimal (pid : Pid) : Names (printDecimal pid.val) pid where
  checkpoint env checkEnvironment argv args hparse service info hmem := by
    obtain ⟨args', operand, hparse', -, happid⟩ := Checkpoint.main_request hmem
    rw [hparse] at hparse'
    obtain ⟨-, rfl⟩ := Prod.mk.inj (Except.ok.inj hparse')
    rw [happid, atol_printDecimal, Checkpoint.target]
    split
    · rfl
    · rw [Checkpoint.pidT_eq, toInt_pid]
  freeze hpid env hsignal hround := checkpoint_freezes hpid hsignal hround
  restart fcntl kernel env argv version hoperands outcome requests h request hmem := by
    obtain ⟨appid, version', hoperands', happid⟩ := Restart.restart_request h hmem
    rw [hoperands] at hoperands'
    obtain ⟨rfl, -⟩ := List.cons.inj hoperands'
    rw [happid, atol_printDecimal]
  migrate call argv nodeid hoperands request hmem := by
    rw [Migrate.main] at hmem
    cases hparse : Migrate.parseArgs argv with
    | error status => simp [hparse] at hmem
    | ok given =>
      rw [hparse] at hmem
      obtain rfl := List.mem_singleton.mp hmem
      simp only [Migrate.parseArgs, hoperands] at hparse
      split at hparse
      · contradiction
      · contradiction
      · contradiction
      · split at hparse
        · contradiction
        · obtain rfl := Except.ok.inj hparse
          change atoi (printDecimal pid.val) = pid.val
          rw [atoi, ← atol, atol_printDecimal, toInt_pid]

/-- Whatever the system answers, a program that is started has its own session and the capability for
checkpoints. What is printed and written is the number of its process, or a first part of the text
where the system does not take all of it; the whole number is read back unchanged by `checkpoint`,
`restart` and `migrate`; and the words behind `--` are the words that are executed. -/
theorem application_named {sys : System} {argv words : List Arg}
    (h : .exec words ∈ (main sys argv).2) :
    ∃ pid, Launched sys argv words pid ∧ Names (printDecimal pid.val) pid ∧
      ∀ given program, argv = given ++ ['-', '-'] :: program → ['-', '-'] ∉ given →
        (getoptLong optstring given).failed = false →
          words = (getoptLong optstring given).operands ++ program := by
  obtain ⟨pid, hlaunched⟩ := launched_of_exec h
  refine ⟨pid, hlaunched, names_printDecimal pid, fun given program hargv hstop hok => ?_⟩
  rw [← hlaunched.operands, hargv, getoptLong_append_stop optstring hstop hok]

/-- A system where process 100 becomes the program. -/
def willing : System where
  capget := some ⟨0#32, 0#32, 0#32, 0#32⟩
  capset _ := 0
  pipe := true
  vfork := some ⟨100, by decide, by decide⟩
  setsid := true
  fopen _ := true
  fprintf _ text := text.length
  printf text := text.length
  execvp _ := true
  wait := []

/-- A program in the background with an option of its own, and a file for its session. -/
theorem background_application_named :
    ∃ pid, Launched willing ["-bo".toList, "sid".toList, "--".toList, "sleep".toList, "-n".toList]
        ["sleep".toList, "-n".toList] pid ∧ Names (printDecimal pid.val) pid ∧
      ∀ given program,
        ["-bo".toList, "sid".toList, "--".toList, "sleep".toList, "-n".toList] =
          given ++ ['-', '-'] :: program → ['-', '-'] ∉ given →
        (getoptLong optstring given).failed = false →
          ["sleep".toList, "-n".toList] = (getoptLong optstring given).operands ++ program :=
  application_named (by decide +kernel)

end Kerrighed.Tools.KrgcrRun
