import Kerrighed.Common.CNumbers
import Kerrighed.Common.Getopt

/-!
# The substitution array of restart

`restart` collects the files to substitute in an array: one entry for each option `-s`, and the
three standard streams where the terminal is replaced. The array grows by blocks. An entry is
counted before it is written, and its memory holds nothing in between.

The answers of the kernel, of the memory allocation and of the lookups in the checkpoint directory
are parameters. The outcome tells with which array the application is restarted and which array is
cleaned at the end.
-/

namespace Kerrighed.Tools.Restart

open Kerrighed.Common

/-- `struct cr_subst_file`; a field is `none` until it is written. -/
structure SubstFile where
  fd : Option ℤ
  fileId : Option (List Char)
  deriving DecidableEq, Repr

/-- An entry of memory just allocated. -/
def SubstFile.unwritten : SubstFile := ⟨none, none⟩

/-- `struct cr_subst_files_array`, with the entries that are allocated. -/
structure SubstFilesArray where
  nr : ℕ
  files : List SubstFile
  deriving DecidableEq, Repr

/-- The globals `substitution` and `array_size`. -/
structure Store where
  substitution : SubstFilesArray
  arraySize : ℕ
  deriving DecidableEq, Repr

/-- The globals at the start of the tool. -/
def Store.start : Store := ⟨⟨0, []⟩, 0⟩

/-- `ARRAY_SIZE_INC`. -/
def arraySizeInc : ℕ := 32

/-- `ENOENT`, `EBADF`, `ENOMEM` and `EINVAL`. -/
def enoent : ℤ := 2
@[inherit_doc enoent] def ebadf : ℤ := 9
@[inherit_doc enoent] def enomem : ℤ := 12
@[inherit_doc enoent] def einval : ℤ := 22

/-- The standard streams. -/
inductive Stream where
  | stdin
  | stdout
  | stderr
  deriving DecidableEq, Repr

/-- What the tool is answered. -/
structure Environment where
  /-- Whether there is memory for an array of so many entries. -/
  realloc : ℕ → Bool
  /-- Whether `sscanf` gets memory for the identifier of an entry. -/
  scanMemory : ℕ → Bool
  /-- The pid read from a checkpoint directory. -/
  getRootPid : List Char → Option (List Char)
  /-- The key read from a checkpoint directory for a pid and a descriptor. -/
  getFdKey : List Char → List Char → ℤ → Option (List Char)
  fileno : Stream → ℤ
  checkEnvironment : Bool
  applicationRestart : ℤ
  restartCallbacks : ℤ
  applicationUnfreeze : ℤ
  /-- Whether the wait for the application comes back. -/
  applicationExits : Bool

/-- `inc_substitution_array_size`: the new number of allocated entries or a negated error, and the
array, which counts one more entry. -/
def incSubstitutionArraySize (env : Environment) (substArray : SubstFilesArray) (arraySize : ℕ) :
    ℤ × SubstFilesArray :=
  if substArray.nr + 1 > arraySize then
    let arraySize := arraySize + arraySizeInc
    if env.realloc arraySize then
      let grown := arraySize - substArray.files.length
      (arraySize, ⟨substArray.nr + 1,
        substArray.files ++ List.replicate grown SubstFile.unwritten⟩)
    else (-enomem, substArray)
  else (arraySize, ⟨substArray.nr + 1, substArray.files⟩)

/-- What `sscanf` has read: nothing, or the identifier, or the identifier and the descriptor. -/
inductive Scanned where
  | failed (r : ℤ)
  | fileId (fileId : List Char)
  | both (fileId : List Char) (fd : ℤ)
  deriving DecidableEq, Repr

/-- A character of `[0-9A-F]`. -/
def isKeyChar (c : Char) : Bool := ('0' ≤ c ∧ c ≤ '9') ∨ ('A' ≤ c ∧ c ≤ 'F')

/-- `sscanf` with the format `%a[0-9A-F],%d`. -/
def scanFileInfo (memory : Bool) (text : List Char) : Scanned :=
  let key := text.takeWhile isKeyChar
  if text = [] then .failed (-1)
  else if key = [] then .failed 0
  else if memory = false then .failed (-1)
  else
    match text.dropWhile isKeyChar with
    | ',' :: number =>
      let r := strtol 10 number
      if r.2 = number then .fileId key else .both key (toInt r.1)
    | _ => .fileId key

/-- `parse_file_substitution`: 0 or a negated error, and the globals. -/
def parseFileSubstitution (env : Environment) (fileinfoStr : Arg) (s : Store) : ℤ × Store :=
  let i := s.substitution.nr
  let r := incSubstitutionArraySize env s.substitution s.arraySize
  if r.1 < 0 then (r.1, { s with substitution := r.2 })
  else
    let nr := r.2.nr
    let files := r.2.files
    let arraySize := r.1.toNat
    match scanFileInfo (env.scanMemory i) fileinfoStr with
    | .both fileId fd => (0, ⟨⟨nr, files.set i ⟨some fd, some fileId⟩⟩, arraySize⟩)
    | .fileId fileId =>
      (-einval, ⟨⟨nr, files.modify i fun file => { file with fileId := some fileId }⟩, arraySize⟩)
    | .failed _ => (-einval, ⟨⟨nr, files⟩, arraySize⟩)

/-- `replace_fd`: 0 or a negated error, and the globals. -/
def replaceFd (env : Environment) (checkpointDir rootPid : List Char) (file : Stream) (s : Store) :
    ℤ × Store :=
  let fd := env.fileno file
  if fd = -1 then (-ebadf, s)
  else
    match env.getFdKey checkpointDir rootPid fd with
    | none => (-enoent, s)
    | some [] => (-enoent, s)
    | some fdKey =>
      let i := s.substitution.nr
      let r := incSubstitutionArraySize env s.substitution s.arraySize
      if r.1 < 0 then (r.1, { s with substitution := r.2 })
      else (0, ⟨⟨r.2.nr, r.2.files.set i ⟨some fd, some fdKey⟩⟩, r.1.toNat⟩)

/-- `replace_stdin_stdout_stderr`: 0 or a negated error, and the globals. -/
def replaceStdinStdoutStderr (env : Environment) (checkpointDir : List Char) (s : Store) :
    ℤ × Store :=
  match env.getRootPid checkpointDir with
  | none => (-einval, s)
  | some rootPid =>
    let r := replaceFd env checkpointDir rootPid .stdin s
    if r.1 ≠ 0 then r
    else
      let r := replaceFd env checkpointDir rootPid .stdout r.2
      if r.1 ≠ 0 then r
      else replaceFd env checkpointDir rootPid .stderr r.2

/-- `clean_file_substitution`: the pointers that are freed, `none` for an entry that does not exist
or was never written. -/
def cleanFileSubstitution (substArray : SubstFilesArray) : List (Option (List Char)) :=
  (List.range substArray.nr).map fun i => substArray.files[i]?.bind (·.fileId)

/-- The option string and the table of long options. -/
def longOptions : OptTable where
  short := [('h', .noArgument), ('v', .noArgument), ('f', .noArgument), ('t', .noArgument),
    ('p', .noArgument), ('s', .requiredArgument), ('U', .noArgument), ('q', .noArgument),
    ('d', .noArgument)]
  long := [⟨"help".toList, .noArgument, 'h'⟩, ⟨"version".toList, .noArgument, 'v'⟩,
    ⟨"foreground".toList, .noArgument, 'f'⟩, ⟨"tty".toList, .noArgument, 't'⟩,
    ⟨"pids".toList, .noArgument, 'p'⟩, ⟨"substitute-file".toList, .requiredArgument, 's'⟩,
    ⟨"no-unfreeze".toList, .noArgument, 'U'⟩, ⟨"quiet".toList, .noArgument, 'q'⟩,
    ⟨"debug".toList, .noArgument, 'd'⟩]

/-- The globals that the options set. -/
structure Args where
  foreground : Bool
  stdinOutErr : Bool
  noUnfreeze : Bool
  replacePgrpSid : Bool
  store : Store
  deriving DecidableEq, Repr

/-- The globals at the start of the tool. -/
def Args.start : Args := ⟨false, false, false, false, .start⟩

/-- One option, which may end the tool with an exit status. -/
def applyOption (env : Environment) (args : Args) (option : Char × Option Arg) : Except ℤ Args :=
  match option with
  | ('h', _) => .error 0
  | ('v', _) => .error 0
  | ('f', _) => .ok { args with foreground := true, stdinOutErr := true }
  | ('t', _) => .ok { args with stdinOutErr := true }
  | ('p', _) => .ok { args with replacePgrpSid := true }
  | ('s', optarg) =>
    let r := parseFileSubstitution env (optarg.getD []) args.store
    if r.1 ≠ 0 then .error 1 else .ok { args with store := r.2 }
  | ('q', _) => .ok args
  | ('d', _) => .ok args
  | ('U', _) => .ok { args with noUnfreeze := true }
  | _ => .error 1

/-- The directory of a checkpoint. -/
def checkpointDir (appid version : ℤ) : List Char :=
  "/var/chkpt/".toList ++ printDecimal appid ++ "/v".toList ++ printDecimal version ++ "/".toList

/-- What the command line asks for: the application and the version, and what the options set. -/
structure Command where
  appid : ℤ
  version : ℤ
  args : Args
  deriving DecidableEq, Repr

/-- All options, the two operands and the standard streams: 0 or a negated error, and the command;
or the exit status where the tool ends before. -/
def parseArgs (env : Environment) (argv : List Arg) : Except ℤ (ℤ × Command) := do
  let parsed := getoptLong longOptions argv
  let args ← parsed.options.foldlM (applyOption env) .start
  if parsed.failed then .error 1
  else
    match parsed.operands with
    | [appid, version] =>
      let appid := atol appid
      let version := atoi version
      let r := if args.stdinOutErr then
          replaceStdinStdoutStderr env (checkpointDir appid version) args.store
        else (0, args.store)
      .ok (r.1, ⟨appid, version, { args with store := r.2 }⟩)
    | _ => .error 1

/-- The exit status, what `application_restart` is called with, and the array at the call of
`clean_file_substitution`. -/
structure Outcome where
  status : ℤ
  restarted : Option Command
  cleaned : Option Store
  deriving DecidableEq, Repr

/-- The tool behind the restart of the application, up to its end. -/
def afterRestart (env : Environment) (cmd : Command) : Outcome :=
  let cleanUp : ℤ → Outcome := fun r => ⟨if r ≠ 0 then 1 else 0, some cmd, some cmd.args.store⟩
  if env.applicationRestart < 0 then cleanUp env.applicationRestart
  else if env.restartCallbacks ≠ 0 then cleanUp env.restartCallbacks
  else if cmd.args.noUnfreeze = false ∧ env.applicationUnfreeze ≠ 0 then
    cleanUp env.applicationUnfreeze
  else if cmd.args.foreground ∧ env.applicationExits = false then ⟨1, some cmd, none⟩
  else cleanUp 0

/-- The tool on the arguments behind its name. -/
def main (env : Environment) (argv : List Arg) : Outcome :=
  match parseArgs env argv with
  | .error status => ⟨status, none, none⟩
  | .ok (r, cmd) =>
    if r ≠ 0 then ⟨1, none, some cmd.args.store⟩
    else if env.checkEnvironment = false then ⟨1, none, none⟩
    else afterRestart env cmd

/-- The pair that a value of `-s` gives. -/
def fileInfo (text : Arg) : Option (List Char × ℤ) :=
  match scanFileInfo true text with
  | .both fileId fd => some (fileId, fd)
  | _ => none

/-- The pair for a standard stream: the key of its descriptor in the checkpoint. -/
def streamInfo (env : Environment) (dir : List Char) (file : Stream) : Option (List Char × ℤ) := do
  let rootPid ← env.getRootPid dir
  let fdKey ← env.getFdKey dir rootPid (env.fileno file)
  return (fdKey, env.fileno file)

/-- The standard streams in the order of their substitution. -/
def streams : List Stream := [.stdin, .stdout, .stderr]

/-- The entry of a pair. -/
def entryOf (pair : List Char × ℤ) : SubstFile := ⟨some pair.2, some pair.1⟩

/-- The array holds exactly some pairs: as many entries are counted, they fit into the allocated
ones, and they are written in this order. -/
structure Holds (s : Store) (pairs : List (List Char × ℤ)) : Prop where
  count : s.substitution.nr = pairs.length
  capacity : pairs.length ≤ s.arraySize
  allocated : s.substitution.files.length = s.arraySize
  written : s.substitution.files.take pairs.length = pairs.map entryOf

/-- The entries counted are allocated, and each of the pointers freed has been written. -/
def Owned (s : Store) : Prop :=
  s.substitution.nr ≤ s.arraySize ∧ s.substitution.files.length = s.arraySize ∧
    none ∉ cleanFileSubstitution s.substitution

/-- At the start the array holds nothing. -/
theorem holds_start : Holds .start [] := ⟨rfl, le_rfl, rfl, rfl⟩

/-- The entries up to the one behind the written ones, after it is written as well. -/
theorem take_set_succ {α : Type*} {l : List α} {i : ℕ} (hi : i < l.length) (a : α) :
    (l.set i a).take (i + 1) = l.take i ++ [a] := by
  have hset : (l.set i a)[i]? = some a := by simp [hi]
  rw [List.take_add_one, List.take_set_of_le le_rfl, hset]
  rfl

/-- One more entry fits, unless there is no memory and the array stays as it is. -/
theorem Holds.inc {s : Store} {pairs : List (List Char × ℤ)} (h : Holds s pairs)
    (env : Environment) :
    incSubstitutionArraySize env s.substitution s.arraySize = (-enomem, s.substitution) ∨
      ∃ (size : ℕ) (files : List SubstFile),
        incSubstitutionArraySize env s.substitution s.arraySize =
          ((size : ℤ), ⟨pairs.length + 1, files⟩) ∧
        pairs.length < size ∧ files.length = size ∧
        files.take pairs.length = pairs.map entryOf := by
  have hlength : s.substitution.files.length = s.arraySize := h.allocated
  have hcapacity := h.capacity
  simp only [incSubstitutionArraySize, h.count]
  by_cases hfull : pairs.length + 1 > s.arraySize
  · rw [if_pos hfull]
    by_cases hmemory : env.realloc (s.arraySize + arraySizeInc) = true
    · rw [if_pos hmemory]
      refine .inr ⟨s.arraySize + arraySizeInc, _, rfl, ?_, ?_, ?_⟩
      · rw [arraySizeInc]
        omega
      · rw [List.length_append, List.length_replicate]
        omega
      · rw [List.take_append_of_le_length (by omega), h.written]
    · rw [if_neg hmemory]
      exact .inl rfl
  · rw [if_neg hfull]
    exact .inr ⟨s.arraySize, _, rfl, by omega, hlength, h.written⟩

/-- Writing the entry counted last adds its pair. -/
theorem holds_set {pairs : List (List Char × ℤ)} {size : ℕ} {files : List SubstFile}
    (hsize : pairs.length < size) (hlength : files.length = size)
    (hwritten : files.take pairs.length = pairs.map entryOf) (pair : List Char × ℤ) :
    Holds ⟨⟨pairs.length + 1, files.set pairs.length (entryOf pair)⟩, size⟩ (pairs ++ [pair]) where
  count := by simp
  capacity := by
    rw [List.length_append, List.length_singleton]
    exact hsize
  allocated := by simpa using hlength
  written := by
    rw [List.length_append, List.length_singleton, take_set_succ (hlength ▸ hsize), hwritten,
      List.map_append, List.map_singleton]

/-- What is read does not depend on the memory where there is enough. -/
theorem fileInfo_of_scan {memory : Bool} {text fileId : List Char} {fd : ℤ}
    (h : scanFileInfo memory text = .both fileId fd) : fileInfo text = some (fileId, fd) := by
  cases memory with
  | true => rw [fileInfo, h]
  | false =>
    simp only [scanFileInfo] at h
    split_ifs at h

/-- A value of `-s` without an error adds its pair. -/
theorem Holds.of_parse {s : Store} {pairs : List (List Char × ℤ)} (h : Holds s pairs)
    {env : Environment} {text : Arg} (hr : (parseFileSubstitution env text s).1 = 0) :
    ∃ pair, fileInfo text = some pair ∧
      Holds (parseFileSubstitution env text s).2 (pairs ++ [pair]) := by
  unfold parseFileSubstitution at hr ⊢
  rcases h.inc env with hinc | ⟨size, files, hinc, hsize, hlength, hwritten⟩
  · simp [hinc, enomem] at hr
  · have hpos : ¬ (size : ℤ) < 0 := by omega
    simp only [hinc, hpos, if_false, Int.toNat_natCast] at hr ⊢
    cases hscan : scanFileInfo (env.scanMemory s.substitution.nr) text with
    | failed r => simp [hscan, einval] at hr
    | fileId fileId => simp [hscan, einval] at hr
    | both fileId fd =>
      refine ⟨(fileId, fd), fileInfo_of_scan hscan, ?_⟩
      rw [h.count]
      exact holds_set hsize hlength hwritten (fileId, fd)

/-- A replaced stream adds its pair, and one that is not replaced leaves the array as it is. -/
theorem Holds.of_replaceFd {s : Store} {pairs : List (List Char × ℤ)} (h : Holds s pairs)
    {env : Environment} {dir rootPid : List Char} (hpid : env.getRootPid dir = some rootPid)
    (file : Stream) :
    ((replaceFd env dir rootPid file s).1 ≠ 0 ∧ Holds (replaceFd env dir rootPid file s).2 pairs) ∨
      (replaceFd env dir rootPid file s).1 = 0 ∧ ∃ pair, streamInfo env dir file = some pair ∧
        Holds (replaceFd env dir rootPid file s).2 (pairs ++ [pair]) := by
  simp only [replaceFd]
  by_cases hfd : env.fileno file = -1
  · rw [if_pos hfd]
    exact .inl ⟨(by decide : -ebadf ≠ 0), h⟩
  rw [if_neg hfd]
  cases hkey : env.getFdKey dir rootPid (env.fileno file) with
  | none => exact .inl ⟨(by decide : -enoent ≠ 0), h⟩
  | some fdKey =>
    cases fdKey with
    | nil => exact .inl ⟨(by decide : -enoent ≠ 0), h⟩
    | cons c key =>
      rcases h.inc env with hinc | ⟨size, files, hinc, hsize, hlength, hwritten⟩
      · simp only [hinc]
        exact .inl ⟨(by decide : -enomem ≠ 0), h⟩
      · have hpos : ¬ (size : ℤ) < 0 := by omega
        simp only [hinc, hpos, if_false, Int.toNat_natCast, h.count]
        refine .inr ⟨trivial, (c :: key, env.fileno file), ?_,
          holds_set hsize hlength hwritten (c :: key, env.fileno file)⟩
        simp [streamInfo, hpid, hkey]

/-- The three streams add their pairs if all of them are replaced, and otherwise those of the
streams before. -/
theorem Holds.of_replaceStreams {s : Store} {pairs : List (List Char × ℤ)}
    (h : Holds s pairs) (env : Environment) (dir : List Char) :
    ∃ added, Holds (replaceStdinStdoutStderr env dir s).2 (pairs ++ added) ∧
      ((replaceStdinStdoutStderr env dir s).1 = 0 →
        added.map some = streams.map (streamInfo env dir)) := by
  simp only [replaceStdinStdoutStderr]
  cases hpid : env.getRootPid dir with
  | none =>
    exact ⟨[], by simpa using h, fun hzero => absurd hzero (by decide : -einval ≠ 0)⟩
  | some rootPid =>
    rcases h.of_replaceFd hpid .stdin with ⟨hr, hkept⟩ | ⟨hr, stdin, hin, hadded⟩
    · simp only [if_pos hr]
      exact ⟨[], by simpa using hkept, fun hzero => absurd hzero hr⟩
    simp only [if_neg (not_not.mpr hr)]
    rcases hadded.of_replaceFd hpid .stdout with ⟨hr, hkept⟩ | ⟨hr, stdout, hout, hadded⟩
    · simp only [if_pos hr]
      exact ⟨[stdin], hkept, fun hzero => absurd hzero hr⟩
    simp only [if_neg (not_not.mpr hr)]
    rw [List.append_assoc] at hadded
    rcases hadded.of_replaceFd hpid .stderr with ⟨hr, hkept⟩ | ⟨hr, stderr, herr, hadded⟩
    · exact ⟨[stdin, stdout], hkept, fun hzero => absurd hzero hr⟩
    · rw [List.append_assoc] at hadded
      refine ⟨[stdin, stdout, stderr], hadded, fun _ => ?_⟩
      simp [streams, hin, hout, herr]

/-- One accepted option adds its pair if it is `-s`. -/
theorem Holds.of_option {args args' : Args} {pairs : List (List Char × ℤ)}
    (h : Holds args.store pairs) {env : Environment} {o : Char × Option Arg}
    (hr : applyOption env args o = .ok args') :
    ∃ added, Holds args'.store (pairs ++ added) ∧
      added.map some = (valuesOf 's' [o]).map fileInfo ∧
      args'.stdinOutErr = (args.stdinOutErr || (o.1 = 'f' || o.1 = 't')) := by
  unfold applyOption at hr
  split at hr
  case h_6 optarg =>
    simp only at hr
    split at hr
    · contradiction
    · rename_i hzero
      obtain ⟨pair, hpair, hadded⟩ := h.of_parse (not_not.mp hzero)
      cases Except.ok.inj hr
      exact ⟨[pair], hadded, by simp [hpair], by simp⟩
  all_goals first
    | contradiction
    | cases Except.ok.inj hr
      exact ⟨[], by simpa using h, by simp, by simp⟩

/-- The options add the pairs of the values of `-s`, in their order. -/
theorem Holds.of_options {env : Environment} {options : List (Char × Option Arg)} {args args' : Args}
    {pairs : List (List Char × ℤ)} (h : Holds args.store pairs)
    (hr : options.foldlM (applyOption env) args = .ok args') :
    ∃ added, Holds args'.store (pairs ++ added) ∧
      added.map some = (valuesOf 's' options).map fileInfo ∧
      args'.stdinOutErr = (args.stdinOutErr || options.any fun o => o.1 = 'f' || o.1 = 't') := by
  induction options generalizing args pairs with
  | nil =>
    cases Except.ok.inj hr
    exact ⟨[], by simpa using h, rfl, by simp⟩
  | cons o options ih =>
    rw [List.foldlM_cons] at hr
    cases hfirst : applyOption env args o with
    | error status =>
      rw [hfirst] at hr
      contradiction
    | ok first =>
      rw [hfirst] at hr
      obtain ⟨one, hone, honeInfo, hflag⟩ := h.of_option hfirst
      obtain ⟨more, hmore, hmoreInfo, hflags⟩ := ih hone hr
      refine ⟨one ++ more, by rwa [← List.append_assoc], ?_, ?_⟩
      · rw [List.map_append, honeInfo, hmoreInfo, valuesOf_cons, valuesOf_cons]
        split <;> simp
      · rw [hflags, hflag, List.any_cons, Bool.or_assoc]

/-- An array that holds exactly some pairs is owned. -/
theorem Holds.owned {s : Store} {pairs : List (List Char × ℤ)} (h : Holds s pairs) : Owned s := by
  refine ⟨h.count ▸ h.capacity, h.allocated, fun hmem => ?_⟩
  obtain ⟨i, hi, hnone⟩ := List.mem_map.mp hmem
  rw [List.mem_range, h.count] at hi
  have hentry : s.substitution.files[i]? = (pairs.map entryOf)[i]? := by
    rw [← h.written, List.getElem?_take_of_lt hi]
  rw [hentry, List.getElem?_map, List.getElem?_eq_getElem hi] at hnone
  contradiction

/-- The pairs that a command line asks for, in their order: those of the options `-s`, and those of
the standard streams if they are substituted. -/
def requestedInfos (env : Environment) (argv : List Arg) (cmd : Command) :
    List (Option (List Char × ℤ)) :=
  let options := (getoptLong longOptions argv).options
  (valuesOf 's' options).map fileInfo ++
    if options.any fun o => o.1 = 'f' || o.1 = 't' then
      streams.map (streamInfo env (checkpointDir cmd.appid cmd.version))
    else []

/-- Where the arguments are accepted, the array holds exactly some pairs, and without an error they
are those asked for. -/
theorem parseArgs_holds {env : Environment} {argv : List Arg} {r : ℤ} {cmd : Command}
    (h : parseArgs env argv = .ok (r, cmd)) :
    ∃ pairs, Holds cmd.args.store pairs ∧
      (r = 0 → pairs.map some = requestedInfos env argv cmd) := by
  unfold parseArgs at h
  cases hfold : (getoptLong longOptions argv).options.foldlM (applyOption env) .start with
  | error status =>
    simp only [hfold] at h
    contradiction
  | ok args =>
    obtain ⟨given, hgiven, hinfos, hflag⟩ := holds_start.of_options hfold
    rw [List.nil_append] at hgiven
    rw [Args.start, Bool.false_or] at hflag
    simp only [hfold] at h
    change (if _ then _ else _) = _ at h
    split at h
    · contradiction
    · split at h
      · rename_i appid version hoperands
        cases Except.ok.inj h
        simp only [requestedInfos, ← hinfos, ← hflag]
        cases args.stdinOutErr with
        | false => exact ⟨given, hgiven, fun _ => (List.append_nil _).symm⟩
        | true =>
          obtain ⟨added, hadded, hstreams⟩ :=
            hgiven.of_replaceStreams env (checkpointDir (atol appid) (atoi version))
          refine ⟨given ++ added, hadded, fun hzero => ?_⟩
          rw [List.map_append, hstreams hzero]
          rfl
      · contradiction

/-- After the restart the array is cleaned as it was at the restart. -/
theorem afterRestart_eq (env : Environment) (cmd : Command) :
    (afterRestart env cmd).restarted = some cmd ∧
      ∀ s, (afterRestart env cmd).cleaned = some s → s = cmd.args.store := by
  simp only [afterRestart]
  split_ifs <;> simp [eq_comm]

/-- Wherever the array is cleaned, it is owned. Wherever the application is restarted, the array is
owned and its entries are, in their order, those of the options `-s` and then those of the standard
streams if they are substituted. -/
theorem substitution_complete (env : Environment) (argv : List Arg) :
    (∀ s, (main env argv).cleaned = some s → Owned s) ∧
      ∀ cmd, (main env argv).restarted = some cmd → Owned cmd.args.store ∧
        ∃ pairs : List (List Char × ℤ), pairs.map some = requestedInfos env argv cmd ∧
          cmd.args.store.substitution.files.take cmd.args.store.substitution.nr =
            pairs.map entryOf := by
  unfold main
  cases hparse : parseArgs env argv with
  | error status => exact ⟨fun s hs => by contradiction, fun cmd hcmd => by contradiction⟩
  | ok parsed =>
    obtain ⟨r, cmd⟩ := parsed
    obtain ⟨pairs, hpairs, hinfos⟩ := parseArgs_holds hparse
    dsimp only
    by_cases hr : r = 0
    · rw [if_neg (not_not.mpr hr)]
      split
      · exact ⟨fun s hs => by contradiction, fun cmd hcmd => by contradiction⟩
      · obtain ⟨hrestarted, hcleaned⟩ := afterRestart_eq env cmd
        refine ⟨fun s hs => ?_, fun cmd' hcmd => ?_⟩
        · rw [hcleaned s hs]
          exact hpairs.owned
        · cases Option.some.inj (hrestarted.symm.trans hcmd)
          refine ⟨hpairs.owned, pairs, hinfos hr, ?_⟩
          rw [hpairs.count, hpairs.written]
    · rw [if_pos hr]
      refine ⟨fun s hs => ?_, fun cmd' hcmd => by contradiction⟩
      cases Option.some.inj hs
      exact hpairs.owned

/-- The answers where nothing fails, and the same file was open in each stream. -/
def terminalEnvironment : Environment where
  realloc _ := true
  scanMemory _ := true
  getRootPid _ := some "100".toList
  getFdKey _ _ _ := some "0123456789ABCDEF0123".toList
  fileno
    | .stdin => 0
    | .stdout => 1
    | .stderr => 2
  checkEnvironment := true
  applicationRestart := 0
  restartCallbacks := 0
  applicationUnfreeze := 0
  applicationExits := true

/-- A file of an option, and the three streams. -/
def terminalPairs : List (List Char × ℤ) :=
  ("AB".toList, 7) :: [0, 1, 2].map fun fd => ("0123456789ABCDEF0123".toList, fd)

/-- The four files are all in the array. -/
theorem substitution_complete_terminal :
    ∃ cmd, (main terminalEnvironment
        ["-s".toList, "AB,7".toList, "-t".toList, "5".toList, "2".toList]).restarted = some cmd ∧
      Owned cmd.args.store ∧
      cmd.args.store.substitution.files.take cmd.args.store.substitution.nr =
        terminalPairs.map entryOf := by
  obtain ⟨howned, pairs, hinfos, hfiles⟩ := (substitution_complete terminalEnvironment
    ["-s".toList, "AB,7".toList, "-t".toList, "5".toList, "2".toList]).2 _ rfl
  have hpairs : pairs = terminalPairs :=
    List.map_injective_iff.mpr (Option.some_injective _) (hinfos.trans (by decide))
  exact ⟨_, rfl, howned, by rw [hfiles, hpairs]⟩

end Kerrighed.Tools.Restart
