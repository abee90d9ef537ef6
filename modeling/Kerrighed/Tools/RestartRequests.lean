import Kerrighed.Tools.Restart

/-!
# What the kernel is asked to restart

`application_restart` looks at every file that is to be substituted before it asks the kernel: its
identifier has the length of a node and an address in hexadecimal digits, and its descriptor is open.
One entry that fails is enough, and the kernel is not asked at all.

Together with the tool this says what a command line becomes: one request with the files of the options
and of the standard streams in their order, an error without a request, or the help. `Answerable` says
what a request needs, in terms of the command line and of what is found for it. The library never reads
an entry that was not written, and never meets an empty array that is allocated, which it would refuse.
-/

namespace Kerrighed.Tools.Restart

open Kerrighed.Common

/-- `struct restart_request`, without the pid that the kernel fills in. -/
structure RestartRequest where
  appId : ℤ
  chkptSn : ℤ
  flags : ℕ
  substitution : SubstFilesArray
  deriving DecidableEq, Repr

/-- The size of a node number twice and that of an address twice. -/
def substStrLen : ℕ := 2 * 2 + 8 * 2

/-- `APP_REPLACE_PGRP_SID`. -/
def appReplacePgrpSid : ℕ := 1

/-- The loop over the files to substitute. It has no result where it would read memory that was not
written. -/
def checkFiles (fcntl : ℤ → Bool) (files : List SubstFile) : List ℕ → Option Bool
  | [] => some true
  | i :: rest => do
    let file ← files[i]?
    let fileId ← file.fileId
    if fileId.length ≠ substStrLen then some false
    else
      let fd ← file.fd
      if fcntl fd then checkFiles fcntl files rest else some false

/-- `application_restart`: a negative number or the pid of the root process, and the requests made. -/
def applicationRestart (fcntl : ℤ → Bool) (kernel : RestartRequest → ℤ × ℤ) (appId chkptSn : ℤ)
    (flags : ℕ) (substitution : SubstFilesArray) : Option (ℤ × List RestartRequest) :=
  let request : RestartRequest := ⟨appId, chkptSn, flags, substitution⟩
  let ask : ℤ × List RestartRequest :=
    (if (kernel request).1 = 0 then (kernel request).2 else (kernel request).1, [request])
  if substitution.nr ≠ 0 then
    (checkFiles fcntl substitution.files (List.range substitution.nr)).map fun valid =>
      if valid then ask else (-1, [])
  else if substitution.files ≠ [] then some (-1, [])
  else some ask

/-- The flags of the request. -/
def Args.flags (args : Args) : ℕ := if args.replacePgrpSid then appReplacePgrpSid else 0

/-- The tool with the library: its outcome and the requests made. -/
def restart (fcntl : ℤ → Bool) (kernel : RestartRequest → ℤ × ℤ) (env : Environment)
    (argv : List Arg) : Option (Outcome × List RestartRequest) :=
  match parseArgs env argv with
  | .error status => some (⟨status, none, none⟩, [])
  | .ok (r, cmd) =>
    if r ≠ 0 then some (⟨1, none, some cmd.args.store⟩, [])
    else if env.checkEnvironment = false then some (⟨1, none, none⟩, [])
    else
      (applicationRestart fcntl kernel cmd.appid cmd.version cmd.args.flags
        cmd.args.store.substitution).map fun answer =>
          (afterRestart { env with applicationRestart := answer.1 } cmd, answer.2)

/-- A file that the library accepts. -/
def Acceptable (fcntl : ℤ → Bool) (pair : List Char × ℤ) : Prop :=
  pair.1.length = substStrLen ∧ fcntl pair.2 = true

instance (fcntl : ℤ → Bool) : DecidablePred (Acceptable fcntl) := fun pair =>
  inferInstanceAs (Decidable (pair.1.length = substStrLen ∧ fcntl pair.2 = true))

/-- An array without entries has no memory. -/
def Bare (s : Store) : Prop := s.substitution.nr = 0 → s.substitution.files = []

/-- The loop reads the entries that hold pairs, and finds whether all of them are acceptable. -/
theorem checkFiles_eq (fcntl : ℤ → Bool) {files : List SubstFile} {pairs : List (List Char × ℤ)}
    (hwritten : files.take pairs.length = pairs.map entryOf) (indices : List ℕ)
    (hindices : ∀ i ∈ indices, i < pairs.length) :
    checkFiles fcntl files indices =
      some (decide (∀ i ∈ indices, ∀ pair ∈ pairs[i]?, Acceptable fcntl pair)) := by
  induction indices with
  | nil => simp [checkFiles]
  | cons i rest ih =>
    have hi := hindices i List.mem_cons_self
    have hentry : files[i]? = some (entryOf pairs[i]) := by
      rw [← List.getElem?_take_of_lt hi, hwritten, List.getElem?_map, List.getElem?_eq_getElem hi,
        Option.map_some]
    have hrest := ih fun j hj => hindices j (List.mem_cons_of_mem i hj)
    have hsplit : (∀ j ∈ i :: rest, ∀ pair ∈ pairs[j]?, Acceptable fcntl pair) ↔
        Acceptable fcntl pairs[i] ∧ ∀ j ∈ rest, ∀ pair ∈ pairs[j]?, Acceptable fcntl pair := by
      rw [List.forall_mem_cons, List.getElem?_eq_getElem hi]
      simp
    rw [decide_eq_decide.mpr hsplit, Bool.decide_and, checkFiles, hentry]
    simp only [entryOf, Option.bind_eq_bind, Option.bind_some, hrest]
    by_cases hlength : pairs[i].1.length = substStrLen
    · by_cases hfd : fcntl pairs[i].2 = true
      · simp [hlength, hfd, Acceptable]
      · simp [hlength, hfd, Acceptable]
    · simp [hlength, Acceptable]

/-- A request is made exactly when all files are acceptable. -/
theorem applicationRestart_eq (fcntl : ℤ → Bool) (kernel : RestartRequest → ℤ × ℤ)
    (appId chkptSn : ℤ) (flags : ℕ) {s : Store} {pairs : List (List Char × ℤ)} (h : Holds s pairs)
    (hbare : Bare s) :
    applicationRestart fcntl kernel appId chkptSn flags s.substitution =
      let request : RestartRequest := ⟨appId, chkptSn, flags, s.substitution⟩
      some (if ∀ pair ∈ pairs, Acceptable fcntl pair then
          (if (kernel request).1 = 0 then (kernel request).2 else (kernel request).1, [request])
        else (-1, [])) := by
  rw [applicationRestart]
  by_cases hnr : s.substitution.nr = 0
  · have hpairs : pairs = [] := List.length_eq_zero_iff.mp (h.count ▸ hnr)
    simp [hnr, hbare hnr, hpairs]
  · have hindices (i : ℕ) (hi : i ∈ List.range s.substitution.nr) : i < pairs.length :=
      h.count ▸ List.mem_range.mp hi
    have hchecked := checkFiles_eq fcntl h.written (List.range s.substitution.nr) hindices
    have hall : (∀ i ∈ List.range s.substitution.nr, ∀ pair ∈ pairs[i]?, Acceptable fcntl pair) ↔
        ∀ pair ∈ pairs, Acceptable fcntl pair := by
      rw [h.count]
      constructor
      · intro hindices pair hpair
        obtain ⟨i, hi, hget⟩ := List.mem_iff_getElem.mp hpair
        exact hindices i (List.mem_range.mpr hi) pair (by simp [hi, hget])
      · intro hpairs i hi pair hpair
        exact hpairs pair (List.mem_of_getElem? hpair)
    simp only [hnr, ne_eq, not_false_eq_true, if_true, hchecked, Option.map_some, hall,
      decide_eq_true_eq]

/-- One more entry is counted, unless there is no memory and the array stays as it is. -/
theorem incSubstitutionArraySize_nr (env : Environment) (substArray : SubstFilesArray) (arraySize : ℕ) :
    ((incSubstitutionArraySize env substArray arraySize).1 < 0 ∧
        (incSubstitutionArraySize env substArray arraySize).2 = substArray) ∨
      (incSubstitutionArraySize env substArray arraySize).2.nr = substArray.nr + 1 := by
  unfold incSubstitutionArraySize
  split
  · dsimp only
    split
    · exact Or.inr rfl
    · exact Or.inl ⟨(by decide : -enomem < 0), rfl⟩
  · exact Or.inr rfl

/-- A value of `-s` leaves no bare array with memory. -/
theorem Bare.of_parse {s : Store} (h : Bare s) (env : Environment) (text : Arg) :
    Bare (parseFileSubstitution env text s).2 := by
  unfold parseFileSubstitution
  rcases incSubstitutionArraySize_nr env s.substitution s.arraySize with ⟨hfailed, hsame⟩ | hnr
  · simp only [hfailed, if_true, hsame]
    exact h
  · dsimp only
    split
    · intro hzero
      simp only [hnr] at hzero
      contradiction
    · split <;> intro hzero <;> simp only [hnr] at hzero <;> contradiction

/-- A stream leaves no bare array with memory. -/
theorem Bare.of_replaceFd {s : Store} (h : Bare s) (env : Environment) (dir rootPid : List Char)
    (file : Stream) : Bare (replaceFd env dir rootPid file s).2 := by
  simp only [replaceFd]
  split
  · exact h
  · split
    · exact h
    · exact h
    · rcases incSubstitutionArraySize_nr env s.substitution s.arraySize with ⟨hfailed, hsame⟩ | hnr
      · rw [if_pos hfailed, hsame]
        exact h
      · split
        · intro hzero
          rw [hnr] at hzero
          contradiction
        · intro hzero
          rw [hnr] at hzero
          contradiction

/-- The three streams leave no bare array with memory. -/
theorem Bare.of_replaceStreams {s : Store} (h : Bare s) (env : Environment) (dir : List Char) :
    Bare (replaceStdinStdoutStderr env dir s).2 := by
  simp only [replaceStdinStdoutStderr]
  split
  · exact h
  · rename_i rootPid hpid
    have hin := h.of_replaceFd env dir rootPid .stdin
    have hout := hin.of_replaceFd env dir rootPid .stdout
    split
    · exact hin
    · split
      · exact hout
      · exact hout.of_replaceFd env dir rootPid .stderr

/-- The options leave no bare array with memory. -/
theorem Bare.of_options {env : Environment} {options : List (Char × Option Arg)} {args args' : Args}
    (h : Bare args.store) (hr : options.foldlM (applyOption env) args = .ok args') :
    Bare args'.store := by
  induction options generalizing args with
  | nil =>
    cases Except.ok.inj hr
    exact h
  | cons o options ih =>
    rw [List.foldlM_cons] at hr
    cases hfirst : applyOption env args o with
    | error status =>
      rw [hfirst] at hr
      contradiction
    | ok first =>
      rw [hfirst] at hr
      refine ih ?_ hr
      unfold applyOption at hfirst
      split at hfirst
      case h_6 optarg =>
        simp only at hfirst
        split at hfirst
        · contradiction
        · cases Except.ok.inj hfirst
          exact h.of_parse env _
      all_goals first
        | contradiction
        | cases Except.ok.inj hfirst
          exact h

/-- An accepted command line has options that are all accepted and two operands. -/
theorem parseArgs_ok {env : Environment} {argv : List Arg} {r : ℤ} {cmd : Command}
    (h : parseArgs env argv = .ok (r, cmd)) :
    ∃ args appid version, (getoptLong longOptions argv).options.foldlM (applyOption env) .start =
        .ok args ∧ (getoptLong longOptions argv).operands = [appid, version] ∧
      cmd.appid = atol appid ∧ cmd.version = atoi version ∧
      cmd.args.replacePgrpSid = args.replacePgrpSid ∧
      (cmd.args.store = args.store ∨ cmd.args.store = (replaceStdinStdoutStderr env
        (checkpointDir (atol appid) (atoi version)) args.store).2) := by
  unfold parseArgs at h
  cases hfold : (getoptLong longOptions argv).options.foldlM (applyOption env) .start with
  | error status =>
    simp only [hfold] at h
    contradiction
  | ok args =>
    simp only [hfold] at h
    change (if _ then _ else _) = _ at h
    split at h
    · contradiction
    · split at h
      · rename_i appid version hoperands
        cases Except.ok.inj h
        refine ⟨args, appid, version, rfl, hoperands, rfl, rfl, rfl, ?_⟩
        dsimp only
        split
        · exact Or.inr rfl
        · exact Or.inl rfl
      · contradiction

/-- The command line leaves no bare array with memory. -/
theorem parseArgs_bare {env : Environment} {argv : List Arg} {r : ℤ} {cmd : Command}
    (h : parseArgs env argv = .ok (r, cmd)) : Bare cmd.args.store := by
  obtain ⟨args, appid, version, hfold, -, -, -, -, hstore⟩ := parseArgs_ok h
  have hbare : Bare args.store := Bare.of_options (fun _ => rfl) hfold
  rcases hstore with hstore | hstore
  · rwa [hstore]
  · rw [hstore]
    exact hbare.of_replaceStreams env _

/-- The session and the group are replaced where an option says so. -/
theorem flags_of_options {env : Environment} {options : List (Char × Option Arg)} {args args' : Args}
    (hr : options.foldlM (applyOption env) args = .ok args') :
    args'.replacePgrpSid = (args.replacePgrpSid || options.any (·.1 = 'p')) := by
  refine flag_foldlM (·.replacePgrpSid) 'p' (fun s o s' h => ?_) hr
  unfold applyOption at h
  split at h
  case h_6 optarg =>
    simp only at h
    split at h
    · contradiction
    · cases Except.ok.inj h
      simp
  all_goals first
    | contradiction
    | cases Except.ok.inj h
      simp

/-- A request is what a command line asks for, with the files that are found for it. -/
structure Wanted (env : Environment) (argv : List Arg) (request : RestartRequest)
    (pairs : List (List Char × ℤ)) : Prop where
  operands : ∃ appid version, (getoptLong longOptions argv).operands = [appid, version] ∧
    request.appId = atol appid ∧ request.chkptSn = atoi version
  flags : request.flags =
    if (getoptLong longOptions argv).options.any (·.1 = 'p') then appReplacePgrpSid else 0
  infos : ∀ args, pairs.map some = requestedInfos env argv ⟨request.appId, request.chkptSn, args⟩
  count : request.substitution.nr = pairs.length
  written : request.substitution.files.take pairs.length = pairs.map entryOf

/-- An accepted command line is what the request says. -/
theorem parseArgs_wanted {env : Environment} {argv : List Arg} {cmd : Command}
    (h : parseArgs env argv = .ok (0, cmd)) {pairs : List (List Char × ℤ)}
    (hpairs : Holds cmd.args.store pairs) (hinfos : pairs.map some = requestedInfos env argv cmd) :
    Wanted env argv ⟨cmd.appid, cmd.version, cmd.args.flags, cmd.args.store.substitution⟩ pairs where
  operands := by
    obtain ⟨-, appid, version, -, hoperands, happid, hversion, -⟩ := parseArgs_ok h
    exact ⟨appid, version, hoperands, happid, hversion⟩
  flags := by
    obtain ⟨args, -, -, hfold, -, -, -, hflag, -⟩ := parseArgs_ok h
    rw [Args.flags, hflag, flags_of_options hfold, Args.start, Bool.false_or]
  infos _ := hinfos
  count := hpairs.count
  written := hpairs.written

/-- The library asks for what it was called for, or not at all. -/
theorem mem_applicationRestart {fcntl : ℤ → Bool} {kernel : RestartRequest → ℤ × ℤ}
    {appId chkptSn : ℤ} {flags : ℕ} {substitution : SubstFilesArray} {answer : ℤ}
    {requests : List RestartRequest}
    (h : applicationRestart fcntl kernel appId chkptSn flags substitution = some (answer, requests))
    {request : RestartRequest} (hmem : request ∈ requests) :
    request = ⟨appId, chkptSn, flags, substitution⟩ := by
  rw [applicationRestart] at h
  split at h
  · obtain ⟨valid, -, h⟩ := Option.map_eq_some_iff.mp h
    split at h
    · obtain ⟨-, rfl⟩ := Prod.mk.inj h
      exact List.mem_singleton.mp hmem
    · obtain ⟨-, rfl⟩ := Prod.mk.inj h
      contradiction
  · split at h
    · obtain ⟨-, rfl⟩ := Prod.mk.inj (Option.some.inj h)
      contradiction
    · obtain ⟨-, rfl⟩ := Prod.mk.inj (Option.some.inj h)
      exact List.mem_singleton.mp hmem

/-- A request names the application by the first of two operands. -/
theorem restart_request {fcntl : ℤ → Bool} {kernel : RestartRequest → ℤ × ℤ} {env : Environment}
    {argv : List Arg} {outcome : Outcome} {requests : List RestartRequest}
    (h : restart fcntl kernel env argv = some (outcome, requests)) {request : RestartRequest}
    (hmem : request ∈ requests) :
    ∃ appid version, (getoptLong longOptions argv).operands = [appid, version] ∧
      request.appId = atol appid := by
  rw [restart] at h
  cases hparse : parseArgs env argv with
  | error status =>
    rw [hparse] at h
    obtain ⟨-, rfl⟩ := Prod.mk.inj (Option.some.inj h)
    contradiction
  | ok parsed =>
    obtain ⟨r, cmd⟩ := parsed
    rw [hparse] at h
    dsimp only at h
    split at h
    · obtain ⟨-, rfl⟩ := Prod.mk.inj (Option.some.inj h)
      contradiction
    · split at h
      · obtain ⟨-, rfl⟩ := Prod.mk.inj (Option.some.inj h)
        contradiction
      · obtain ⟨answer, hanswer, h⟩ := Option.map_eq_some_iff.mp h
        obtain ⟨-, rfl⟩ := Prod.mk.inj h
        obtain ⟨args, appid, version, -, hoperands, happid, -⟩ := parseArgs_ok hparse
        refine ⟨appid, version, hoperands, ?_⟩
        rw [mem_applicationRestart hanswer hmem, happid]

/-- There is memory for every array and for every identifier. -/
def Environment.HasMemory (env : Environment) : Prop :=
  (∀ size, env.realloc size = true) ∧ ∀ i, env.scanMemory i = true

/-- An option that neither ends the tool nor fails: a known one, with a file behind `-s`. -/
def Passes (o : Char × Option Arg) : Prop :=
  o.1 ∈ ['f', 't', 'p', 's', 'q', 'd', 'U'] ∧ (o.1 = 's' → (fileInfo (o.2.getD [])).isSome = true)

instance : DecidablePred Passes := fun o => inferInstanceAs (Decidable (o.1 ∈ _ ∧ (o.1 = 's' → _)))

/-- The help or the version is asked for, and nothing before it fails. -/
def HelpFirst (options : List (Char × Option Arg)) : Prop :=
  ∃ before o after, options = before ++ o :: after ∧ (o.1 = 'h' ∨ o.1 = 'v') ∧
    ∀ other ∈ before, Passes other

/-- The standard streams shall be replaced. -/
def replacesStreams (argv : List Arg) : Bool :=
  (getoptLong longOptions argv).options.any fun o => o.1 = 'f' || o.1 = 't'

/-- Everything that a command line needs for a request: options that pass, two operands, the
environment, and files that are all found and acceptable. -/
structure Answerable (fcntl : ℤ → Bool) (env : Environment) (argv : List Arg) : Prop where
  options : ∀ o ∈ (getoptLong longOptions argv).options, Passes o
  complete : (getoptLong longOptions argv).failed = false
  environment : env.checkEnvironment = true
  opened : replacesStreams argv = true → ∀ file ∈ streams, env.fileno file ≠ -1
  files : ∃ appid version, (getoptLong longOptions argv).operands = [appid, version] ∧
    ∃ pairs : List (List Char × ℤ), (∀ args, pairs.map some =
        requestedInfos env argv ⟨atol appid, atoi version, args⟩) ∧
      ∀ pair ∈ pairs, Acceptable fcntl pair

/-- An accepted option passes. -/
theorem passes_of_ok {env : Environment} {args args' : Args} {o : Char × Option Arg}
    (h : applyOption env args o = .ok args') : Passes o := by
  unfold applyOption at h
  split at h
  case h_6 optarg =>
    simp only at h
    split at h
    · contradiction
    · rename_i hzero
      refine ⟨by simp, fun _ => ?_⟩
      unfold parseFileSubstitution at hzero
      dsimp only at hzero ⊢
      split at hzero
      · rename_i hneg
        exact absurd hneg (not_lt.mpr (not_not.mp hzero).ge)
      · cases hscan : scanFileInfo (env.scanMemory args.store.substitution.nr) (optarg.getD []) with
        | failed r => simp [hscan, einval] at hzero
        | fileId fileId => simp [hscan, einval] at hzero
        | both fileId fd => simp [fileInfo_of_scan hscan]
  all_goals first
    | contradiction
    | exact ⟨by simp, by simp⟩

/-- An option fails with an error, or asks for the help or the version and ends with success. -/
theorem applyOption_error {env : Environment} {args : Args} {o : Char × Option Arg} {status : ℤ}
    (h : applyOption env args o = .error status) :
    status = 1 ∨ status = 0 ∧ (o.1 = 'h' ∨ o.1 = 'v') := by
  unfold applyOption at h
  split at h
  case h_1 => exact .inr ⟨(Except.error.inj h).symm, .inl rfl⟩
  case h_2 => exact .inr ⟨(Except.error.inj h).symm, .inr rfl⟩
  case h_6 optarg =>
    simp only at h
    split at h
    · exact .inl (Except.error.inj h).symm
    · contradiction
  all_goals first
    | contradiction
    | exact .inl (Except.error.inj h).symm

/-- With memory, one more entry always fits. -/
theorem incSubstitutionArraySize_of_memory {env : Environment} (hmemory : env.HasMemory)
    (substArray : SubstFilesArray) (arraySize : ℕ) :
    ¬ (incSubstitutionArraySize env substArray arraySize).1 < 0 := by
  unfold incSubstitutionArraySize
  dsimp only
  split
  · rw [if_pos (hmemory.1 _)]
    exact not_lt.mpr (Int.natCast_nonneg _)
  · exact not_lt.mpr (Int.natCast_nonneg _)

/-- With memory, an option that passes is accepted. -/
theorem ok_of_passes {env : Environment} (hmemory : env.HasMemory) {o : Char × Option Arg}
    (h : Passes o) (args : Args) : ∃ args', applyOption env args o = .ok args' := by
  obtain ⟨c, optarg⟩ := o
  obtain ⟨hknown, hinfo⟩ := h
  simp only [List.mem_cons, List.not_mem_nil, or_false] at hknown
  rcases hknown with rfl | rfl | rfl | rfl | rfl | rfl | rfl
  case inr.inr.inr.inl =>
    obtain ⟨pair, hpair⟩ := Option.isSome_iff_exists.mp (hinfo rfl)
    have hzero : (parseFileSubstitution env (optarg.getD []) args.store).1 = 0 := by
      unfold parseFileSubstitution
      unfold fileInfo at hpair
      rw [if_neg (incSubstitutionArraySize_of_memory hmemory _ _), hmemory.2]
      split at hpair
      · rename_i fileId fd hscan
        rw [hscan]
      · contradiction
    exact ⟨_, if_neg (not_not.mpr hzero)⟩
  all_goals exact ⟨_, rfl⟩

/-- Options that are all accepted all pass. -/
theorem passes_of_foldlM {env : Environment} {options : List (Char × Option Arg)} {args args' : Args}
    (h : options.foldlM (applyOption env) args = .ok args') : ∀ o ∈ options, Passes o := by
  induction options generalizing args with
  | nil => simp
  | cons o rest ih =>
    rw [List.foldlM_cons] at h
    cases hfirst : applyOption env args o with
    | error status =>
      rw [hfirst] at h
      contradiction
    | ok first =>
      rw [hfirst] at h
      exact List.forall_mem_cons.mpr ⟨passes_of_ok hfirst, ih h⟩

/-- With memory, options that pass are accepted one after the other. -/
theorem foldlM_of_passes {env : Environment} (hmemory : env.HasMemory)
    {options : List (Char × Option Arg)} (h : ∀ o ∈ options, Passes o) (args : Args) :
    ∃ args', options.foldlM (applyOption env) args = .ok args' := by
  induction options generalizing args with
  | nil => exact ⟨args, rfl⟩
  | cons o rest ih =>
    obtain ⟨ho, hrest⟩ := List.forall_mem_cons.mp h
    obtain ⟨first, hfirst⟩ := ok_of_passes hmemory ho args
    obtain ⟨last, hlast⟩ := ih hrest first
    refine ⟨last, ?_⟩
    rw [List.foldlM_cons, hfirst]
    exact hlast

/-- Options fail with an error, or with success where the help or the version is reached. -/
theorem foldlM_error {env : Environment} {options : List (Char × Option Arg)} {args : Args}
    {status : ℤ} (h : options.foldlM (applyOption env) args = .error status) :
    status = 1 ∨ status = 0 ∧ HelpFirst options := by
  induction options generalizing args with
  | nil => contradiction
  | cons o rest ih =>
    rw [List.foldlM_cons] at h
    cases hfirst : applyOption env args o with
    | error status' =>
      rw [hfirst] at h
      obtain rfl := Except.error.inj h
      exact (applyOption_error hfirst).imp id fun hhelp =>
        ⟨hhelp.1, [], o, rest, rfl, hhelp.2, by simp⟩
    | ok first =>
      rw [hfirst] at h
      refine (ih h).imp id fun ⟨hstatus, before, help, after, hrest, hhelp, hpass⟩ => ⟨hstatus, ?_⟩
      exact ⟨o :: before, help, after, by rw [hrest]; rfl, hhelp,
        List.forall_mem_cons.mpr ⟨passes_of_ok hfirst, hpass⟩⟩

/-- With memory, the help or the version ends the tool with success where it is reached. -/
theorem foldlM_help {env : Environment} (hmemory : env.HasMemory)
    {options : List (Char × Option Arg)} (h : HelpFirst options) (args : Args) :
    options.foldlM (applyOption env) args = .error 0 := by
  obtain ⟨before, ⟨c, optarg⟩, after, rfl, hhelp, hpass⟩ := h
  obtain ⟨reached, hbefore⟩ := foldlM_of_passes hmemory hpass args
  rw [List.foldlM_append, hbefore]
  rcases hhelp with hc | hc <;> (cases hc; rfl)

/-- A stream that is replaced is open. -/
theorem fileno_of_replaceFd {env : Environment} {dir rootPid : List Char} {file : Stream} {s : Store}
    (h : (replaceFd env dir rootPid file s).1 = 0) : env.fileno file ≠ -1 := by
  intro hfd
  simp only [replaceFd, if_pos hfd] at h
  exact absurd h (by decide)

/-- All streams that are replaced are open. -/
theorem fileno_of_replaceStreams {env : Environment} {dir : List Char} {s : Store}
    (h : (replaceStdinStdoutStderr env dir s).1 = 0) : ∀ file ∈ streams, env.fileno file ≠ -1 := by
  simp only [replaceStdinStdoutStderr] at h
  split at h
  · exact absurd h (by simp [einval])
  · split at h
    · rename_i hin
      exact absurd h hin
    · rename_i hin
      split at h
      · rename_i hout
        exact absurd h hout
      · rename_i hout
        simp only [streams, List.mem_cons, List.not_mem_nil, or_false, forall_eq_or_imp, forall_eq]
        exact ⟨fileno_of_replaceFd (not_not.mp hin), fileno_of_replaceFd (not_not.mp hout),
          fileno_of_replaceFd h⟩

/-- With memory, an open stream is replaced where its key is found. -/
theorem replaceFd_of_found {env : Environment} (hmemory : env.HasMemory) {dir rootPid : List Char}
    (hpid : env.getRootPid dir = some rootPid) {file : Stream} (hfd : env.fileno file ≠ -1)
    {pair : List Char × ℤ} (hpair : streamInfo env dir file = some pair) (hkey : pair.1 ≠ [])
    (s : Store) : (replaceFd env dir rootPid file s).1 = 0 := by
  simp only [streamInfo, hpid, Option.bind_eq_bind, Option.bind_some, Option.bind_eq_some_iff] at hpair
  obtain ⟨fdKey, hfound, heq⟩ := hpair
  obtain rfl := Option.some.inj heq
  simp only [replaceFd, if_neg hfd, hfound]
  cases fdKey with
  | nil => exact absurd rfl hkey
  | cons c key => rw [if_neg (incSubstitutionArraySize_of_memory hmemory _ _)]

/-- With memory, the streams are replaced where they are open and their keys are found. -/
theorem replaceStreams_of_found {env : Environment} (hmemory : env.HasMemory) {dir : List Char}
    (hopened : ∀ file ∈ streams, env.fileno file ≠ -1)
    (hfound : ∀ file ∈ streams, ∃ pair, streamInfo env dir file = some pair ∧ pair.1 ≠ [])
    (s : Store) : (replaceStdinStdoutStderr env dir s).1 = 0 := by
  have hreplaced {rootPid : List Char} (hpid : env.getRootPid dir = some rootPid) (file : Stream)
      (hfile : file ∈ streams) (s : Store) : (replaceFd env dir rootPid file s).1 = 0 := by
    obtain ⟨pair, hpair, hkey⟩ := hfound file hfile
    exact replaceFd_of_found hmemory hpid (hopened file hfile) hpair hkey s
  rw [replaceStdinStdoutStderr]
  cases hpid : env.getRootPid dir with
  | none =>
    obtain ⟨pair, hpair, -⟩ := hfound .stdin (by decide)
    simp [streamInfo, hpid] at hpair
  | some rootPid =>
    have hin := hreplaced hpid .stdin (by decide) s
    have hout := hreplaced hpid .stdout (by decide) (replaceFd env dir rootPid .stdin s).2
    simp only [hin, hout, ne_eq, not_true_eq_false, if_false]
    exact hreplaced hpid .stderr (by decide) _

/-- A command line that is accepted, with acceptable files, has everything that it needs. -/
theorem answerable_of_parseArgs {fcntl : ℤ → Bool} {env : Environment} {argv : List Arg}
    {cmd : Command} (h : parseArgs env argv = .ok (0, cmd)) (henv : env.checkEnvironment = true)
    {pairs : List (List Char × ℤ)} (hinfos : pairs.map some = requestedInfos env argv cmd)
    (hacceptable : ∀ pair ∈ pairs, Acceptable fcntl pair) : Answerable fcntl env argv := by
  obtain ⟨args, appid, version, hfold, hoperands, happid, hversion, -, -⟩ := parseArgs_ok h
  obtain ⟨-, -, -, hstreams⟩ := holds_start.of_options hfold
  rw [Args.start, Bool.false_or] at hstreams
  unfold parseArgs at h
  simp only [hfold] at h
  change (if _ then _ else _) = _ at h
  split at h
  · contradiction
  · rename_i hfailed
    refine ⟨passes_of_foldlM hfold, by simpa using hfailed, henv, fun hreplaces => ?_,
      appid, version, hoperands, pairs, fun _ => ?_, hacceptable⟩
    · rw [hoperands] at h
      obtain ⟨hzero, -⟩ := Prod.mk.inj (Except.ok.inj h)
      rw [if_pos (hstreams.trans hreplaces)] at hzero
      exact fileno_of_replaceStreams hzero
    · rw [hinfos, requestedInfos, requestedInfos, happid, hversion]

/-- The files of an accepted command line that has everything it needs are acceptable. -/
theorem acceptable_of_answerable {fcntl : ℤ → Bool} {env : Environment} {argv : List Arg}
    (h : Answerable fcntl env argv) {cmd : Command} (hparse : parseArgs env argv = .ok (0, cmd))
    {pairs : List (List Char × ℤ)} (hinfos : pairs.map some = requestedInfos env argv cmd) :
    ∀ pair ∈ pairs, Acceptable fcntl pair := by
  obtain ⟨-, appid, version, -, hoperands, happid, hversion, -, -⟩ := parseArgs_ok hparse
  obtain ⟨appid', version', hoperands', pairs', hinfos', hacceptable⟩ := h.files
  obtain ⟨rfl, hrest⟩ := List.cons.inj (hoperands.symm.trans hoperands')
  obtain ⟨rfl, -⟩ := List.cons.inj hrest
  have hsame : pairs.map some = pairs'.map some := by
    rw [hinfos, hinfos' cmd.args, requestedInfos, requestedInfos, happid, hversion]
  rwa [List.map_injective_iff.mpr (Option.some_injective _) hsame]

/-- With memory, a command line that has everything it needs is accepted. -/
theorem parseArgs_of_answerable {fcntl : ℤ → Bool} {env : Environment} {argv : List Arg}
    (hmemory : env.HasMemory) (h : Answerable fcntl env argv) :
    ∃ cmd, parseArgs env argv = .ok (0, cmd) := by
  obtain ⟨appid, version, hoperands, pairs, hinfos, hacceptable⟩ := h.files
  obtain ⟨args, hfold⟩ := foldlM_of_passes hmemory h.options .start
  obtain ⟨-, -, -, hstreams⟩ := holds_start.of_options hfold
  rw [Args.start, Bool.false_or] at hstreams
  unfold parseArgs
  simp only [hfold, hoperands]
  change ∃ cmd, (if (getoptLong longOptions argv).failed = true then _ else _) = _
  rw [h.complete, if_neg Bool.false_ne_true]
  cases hreplaces : args.stdinOutErr with
  | false => exact ⟨_, rfl⟩
  | true =>
    have hwanted : replacesStreams argv = true := hstreams.symm.trans hreplaces
    have hfound : ∀ file ∈ streams, ∃ pair,
        streamInfo env (checkpointDir (atol appid) (atoi version)) file = some pair ∧
          pair.1 ≠ [] := by
      intro file hfile
      have hmem : streamInfo env (checkpointDir (atol appid) (atoi version)) file ∈
          pairs.map some := by
        unfold replacesStreams at hwanted
        rw [hinfos args, requestedInfos, if_pos hwanted]
        exact List.mem_append_right _ (List.mem_map_of_mem hfile)
      obtain ⟨pair, hpair, heq⟩ := List.mem_map.mp hmem
      refine ⟨pair, heq.symm, fun hempty => ?_⟩
      have hlength := (hacceptable pair hpair).1
      rw [hempty] at hlength
      exact absurd hlength (by decide)
    have hzero := replaceStreams_of_found hmemory (h.opened hwanted) hfound args.store
    exact ⟨_, congrArg Except.ok (Prod.ext hzero rfl)⟩

/-- A command line that is rejected ends the tool with an error, or with success where the help or the
version is reached. -/
theorem parseArgs_error {env : Environment} {argv : List Arg} {status : ℤ}
    (h : parseArgs env argv = .error status) :
    status = 1 ∨ status = 0 ∧ HelpFirst (getoptLong longOptions argv).options := by
  unfold parseArgs at h
  cases hfold : (getoptLong longOptions argv).options.foldlM (applyOption env) .start with
  | error status' =>
    simp only [hfold] at h
    obtain rfl := Except.error.inj h
    exact foldlM_error hfold
  | ok args =>
    simp only [hfold] at h
    change (if _ then _ else _) = _ at h
    split at h
    · exact .inl (Except.error.inj h).symm
    · split at h
      · contradiction
      · exact .inl (Except.error.inj h).symm

/-- With memory, the help or the version ends the tool with success where it is reached. -/
theorem parseArgs_help {env : Environment} {argv : List Arg} (hmemory : env.HasMemory)
    (h : HelpFirst (getoptLong longOptions argv).options) : parseArgs env argv = .error 0 := by
  unfold parseArgs
  simp only [foldlM_help hmemory h .start]
  rfl

/-- For every command line the library reads only entries that were written. The kernel is asked at
most once, and for what the command line asks for, with the files of the options and of the standard
streams in their order. It is asked only where everything the command line needs is there, and with
memory it is asked then. Otherwise the tool ends with an error, or with success where the help or the
version is reached before anything fails. -/
theorem restart_requests (fcntl : ℤ → Bool) (kernel : RestartRequest → ℤ × ℤ) (env : Environment)
    (argv : List Arg) :
    ∃ outcome requests, restart fcntl kernel env argv = some (outcome, requests) ∧
      requests.length ≤ 1 ∧
      (∀ request ∈ requests, ∃ pairs, Wanted env argv request pairs) ∧
      (requests ≠ [] → Answerable fcntl env argv) ∧
      (requests = [] → outcome.status = 1 ∨
        outcome.status = 0 ∧ HelpFirst (getoptLong longOptions argv).options) ∧
      (env.HasMemory → (Answerable fcntl env argv → requests ≠ []) ∧
        (HelpFirst (getoptLong longOptions argv).options →
          outcome.status = 0 ∧ requests = [])) := by
  have hhelp (hmemory : env.HasMemory) (h : HelpFirst (getoptLong longOptions argv).options)
      {parsed : ℤ × Command} (hparse : parseArgs env argv = .ok parsed) : False := by
    rw [parseArgs_help hmemory h] at hparse
    contradiction
  rw [restart]
  cases hparse : parseArgs env argv with
  | error status =>
    refine ⟨_, _, rfl, by simp, by simp, by simp, fun _ => parseArgs_error hparse,
      fun hmemory => ⟨fun h => ?_, fun h => ⟨?_, rfl⟩⟩⟩
    · obtain ⟨cmd, hcmd⟩ := parseArgs_of_answerable hmemory h
      rw [hparse] at hcmd
      contradiction
    · exact (Except.error.inj ((parseArgs_help hmemory h).symm.trans hparse)).symm
  | ok parsed =>
    obtain ⟨r, cmd⟩ := parsed
    dsimp only
    by_cases hr : r = 0
    · subst hr
      rw [if_neg (by decide)]
      by_cases henv : env.checkEnvironment = false
      · rw [if_pos henv]
        refine ⟨_, _, rfl, by simp, by simp, by simp, fun _ => .inl rfl,
          fun hmemory => ⟨fun h => ?_, fun h => (hhelp hmemory h hparse).elim⟩⟩
        rw [h.environment] at henv
        contradiction
      · rw [if_neg henv]
        obtain ⟨pairs, hpairs, hinfos⟩ := parseArgs_holds hparse
        have hrequest := applicationRestart_eq fcntl kernel cmd.appid cmd.version
          cmd.args.flags hpairs (parseArgs_bare hparse)
        simp only [hrequest, Option.map_some]
        refine ⟨_, _, rfl, ?_, fun request hmem => ⟨pairs, ?_⟩, fun hasked => ?_, fun hnone => ?_,
          fun hmemory => ⟨fun h => ?_, fun h => (hhelp hmemory h hparse).elim⟩⟩
        · split <;> simp
        · split at hmem
          · obtain rfl := List.mem_singleton.mp hmem
            exact parseArgs_wanted hparse hpairs (hinfos rfl)
          · exact absurd hmem List.not_mem_nil
        · split at hasked
          · rename_i hall
            exact answerable_of_parseArgs hparse (by simpa using henv) (hinfos rfl) hall
          · exact absurd rfl hasked
        · split at hnone
          · cases hnone
          · rename_i hall
            rw [if_neg hall]
            exact .inl (by simp [afterRestart])
        · rw [if_pos (acceptable_of_answerable h hparse (hinfos rfl))]
          exact List.cons_ne_nil _ _
    · rw [if_pos hr]
      refine ⟨_, _, rfl, by simp, by simp, by simp, fun _ => .inl rfl,
        fun hmemory => ⟨fun h => ?_, fun h => (hhelp hmemory h hparse).elim⟩⟩
      obtain ⟨cmd', hcmd⟩ := parseArgs_of_answerable hmemory h
      rw [hparse] at hcmd
      exact absurd (Prod.mk.inj (Except.ok.inj hcmd)).1 hr

/-- A file for descriptor 7 and the application 5 in its version 2. -/
def oneFile : List Arg := ["-s".toList, "0123456789ABCDEF0123,7".toList, "5".toList, "2".toList]

/-- The kernel is asked to restart the application with the file. -/
theorem restart_requests_file :
    ∃ outcome request, restart (fun _ => true) (fun _ => (0, 1000)) terminalEnvironment oneFile =
        some (outcome, [request]) ∧
      request.appId = 5 ∧ request.chkptSn = 2 ∧
      request.substitution.files.take 1 = [⟨some 7, some "0123456789ABCDEF0123".toList⟩] := by
  obtain ⟨outcome, requests, hrestart, hone, hwanted, -, -, hmemory⟩ :=
    restart_requests (fun _ => true) (fun _ => (0, 1000)) terminalEnvironment oneFile
  have hanswerable : Answerable (fun _ => true) terminalEnvironment oneFile :=
    ⟨by decide, by decide, rfl, by decide, "5".toList, "2".toList, by decide,
      [("0123456789ABCDEF0123".toList, 7)], fun _ => rfl, by decide⟩
  have hasked := (hmemory ⟨fun _ => rfl, fun _ => rfl⟩).1 hanswerable
  obtain ⟨request, rfl⟩ : ∃ request, requests = [request] :=
    List.length_eq_one_iff.mp (by
      have hpos := List.length_pos_iff.mpr hasked
      omega)
  obtain ⟨pairs, hpairs⟩ := hwanted request (List.mem_singleton_self request)
  obtain ⟨appid, version, hoperands, happid, hversion⟩ := hpairs.operands
  obtain ⟨rfl, rfl⟩ : appid = "5".toList ∧ version = "2".toList := by
    have hgiven : (getoptLong longOptions oneFile).operands = ["5".toList, "2".toList] := by decide
    simpa [hgiven, eq_comm] using hoperands
  have hinfos := hpairs.infos .start
  rw [happid, hversion] at hinfos
  have hpair : pairs = [("0123456789ABCDEF0123".toList, 7)] :=
    List.map_injective_iff.mpr (Option.some_injective _) (hinfos.trans (by decide))
  refine ⟨outcome, request, hrestart, by rw [happid]; decide, by rw [hversion]; decide, ?_⟩
  have hwritten := hpairs.written
  rw [hpair] at hwritten
  exact hwritten

end Kerrighed.Tools.Restart
