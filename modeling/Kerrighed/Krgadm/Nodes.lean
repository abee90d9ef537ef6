import Kerrighed.Common.Getopt
import Kerrighed.Krgadm.Add
import Kerrighed.Krgadm.NodeList

/-!
# The nodes command

`krgadm nodes` takes an action, which defaults to the status, and at most one of the options
for a list of nodes, a count, a total and all nodes. The first element of its arguments stands
where `getopt_long` expects the name of the program.

`parseCommand` is the part of `nodes` up to the choice of the action, and `nodes` carries the
action out. The kernel and the memory are parameters; help and error texts are left out.
-/

namespace Kerrighed.Krgadm

open Kerrighed.Common Kerrighed.Hotplug

variable {maxNodes : ℕ}

/-- The actions of `nodes`. -/
inductive Action where
  | none
  | status
  | add
  | del
  deriving DecidableEq, Repr

/-- The option string and `nodes_mode_options`. -/
def nodesModeOptions : OptTable where
  short := [('n', .requiredArgument), ('c', .requiredArgument), ('t', .requiredArgument),
    ('a', .noArgument)]
  long := [⟨"nodes".toList, .requiredArgument, 'n'⟩, ⟨"count".toList, .requiredArgument, 'c'⟩,
    ⟨"total".toList, .requiredArgument, 't'⟩, ⟨"all".toList, .noArgument, 'a'⟩]

/-- How a run ends without a command: with `EXIT_FAILURE`, or not at all. -/
inductive Stop where
  | exitFailure
  | fault (fault : Fault)
  deriving DecidableEq, Repr

/-- The local variables of `nodes` that the options set. -/
structure NodesCommand (maxNodes : ℕ) where
  action : Action
  nodeSet : Option (KrgNodeSet maxNodes)
  nbNodes : ℤ
  mode : NodesMode
  deriving DecidableEq, Repr

/-- The action named by the first argument. -/
def actionOf : List Arg → Action
  | [] => .status
  | arg :: _ =>
    if arg = "status".toList then .status
    else if arg = "add".toList then .add
    else if arg = "del".toList then .del
    else .none

/-- The variables before the first option. -/
def NodesCommand.start (action : Action) : NodesCommand maxNodes :=
  ⟨action, none, -1, .nodesModeUnset⟩

/-- The option for a list of nodes. -/
def applyNodes (malloc : Option (KrgNodeSet maxNodes)) (optarg : Arg) (cmd : NodesCommand maxNodes) :
    Except Stop (NodesCommand maxNodes) :=
  if cmd.mode ≠ .nodesModeUnset then .error .exitFailure
  else
    match krgNodeSetCreate malloc with
    | none => .error .exitFailure
    | some nodeSet =>
      match parseNodes optarg nodeSet with
      | .error fault => .error (.fault fault)
      | .ok (r, nodeSet) =>
        if r = -1 then .error .exitFailure
        else .ok { cmd with mode := .nodesModeList, nodeSet := some nodeSet }

/-- The option for a count or a total. -/
def applyNumber (mode : NodesMode) (optarg : Arg) (cmd : NodesCommand maxNodes) :
    Except Stop (NodesCommand maxNodes) :=
  if cmd.mode ≠ .nodesModeUnset then .error .exitFailure
  else if cmd.action = .status then .error .exitFailure
  else
    let number := strtol 10 optarg
    if number.2 = optarg ∨ number.2 ≠ [] then .error .exitFailure
    else .ok { cmd with mode := mode, nbNodes := toInt number.1 }

/-- One option. -/
def applyOption (malloc : Option (KrgNodeSet maxNodes)) (cmd : NodesCommand maxNodes)
    (option : Char × Option Arg) : Except Stop (NodesCommand maxNodes) :=
  match option with
  | ('n', some optarg) => applyNodes malloc optarg cmd
  | ('c', some optarg) => applyNumber .nodesModeCount optarg cmd
  | ('t', some optarg) => applyNumber .nodesModeTotal optarg cmd
  | ('a', _) =>
    if cmd.mode ≠ .nodesModeUnset then .error .exitFailure
    else .ok { cmd with mode := .nodesModeAll }
  | _ => .error .exitFailure

/-- Everything that the command line sets, or how the run ends before. -/
def parseCommand (malloc : Option (KrgNodeSet maxNodes)) (argv : List Arg) :
    Except Stop (NodesCommand maxNodes) := do
  let parsed := getoptLong nodesModeOptions argv.tail
  let cmd ← parsed.options.foldlM (applyOption malloc) (.start (actionOf argv))
  if parsed.failed then .error .exitFailure
  else if (cmd.action = .add ∨ cmd.action = .del) ∧ cmd.mode = .nodesModeUnset then
    .error .exitFailure
  else .ok cmd

/-- Print the status of all nodes or of those in a list: the value returned and the nodes
printed, with their status. It has no result where the program reads through a null pointer. -/
def nodesStatus (status : Option (KrgNodes maxNodes)) (malloc nodeSet : Option (KrgNodeSet maxNodes))
    (mode : NodesMode) : Option (ℤ × List (ℤ × Int8)) :=
  match status with
  | none => some (-1, [])
  | some status => do
    let nodeSet ←
      if mode = .nodesModeAll then
        (krgNodeSetCreate malloc).map (addWhere fun bcl => 1 < (status.char bcl).toInt)
      else do
        let (_, nodeSet) ← visit krgNodeSetNext
          (dropWhere fun node => (status.char node.toNat).toInt < 2) (maxNodes + 1) (← nodeSet)
        some nodeSet
    let printed ← walk (krgNodeSetNext nodeSet) (maxNodes + 1)
    some (0, printed.map fun node => (node, status.char node.toNat))

/-- What the program does not decide itself: whether Kerrighed runs, the memory, the answers of
`krg_nodes_status` and `get_node_id`, and those of the hotplug requests. -/
structure Machine (maxNodes : ℕ) where
  checkHotplug : Bool
  malloc : Option (KrgNodeSet maxNodes)
  answers : Answers maxNodes
  nodeId : ℤ
  krgNodesAdd : KrgNodeSet maxNodes → ℤ
  krgNodesRemove : KrgNodeSet maxNodes → ℤ

/-- The exit status and the node sets handed to the kernel. The command has no result while it
waits for nodes, nor where its behaviour is undefined. -/
def nodes (machine : Machine maxNodes) (argv : List Arg) : Option (ℤ × List (KrgNodeSet maxNodes)) :=
  if machine.checkHotplug = false then some (1, [])
  else
    match parseCommand machine.malloc argv with
    | .error .exitFailure => some (1, [])
    | .error (.fault _) => none
    | .ok cmd =>
      match cmd.action with
      | .none => some (0, [])
      | .status => do
        let mode := if cmd.mode = .nodesModeUnset then .nodesModeAll else cmd.mode
        let (r, _) ← nodesStatus (← machine.answers.head?) machine.malloc cmd.nodeSet mode
        some (if r = -1 then 1 else 0, [])
      | .add => do
        let (_, o) ← nodesAdd machine.answers machine.malloc machine.krgNodesAdd cmd.nodeSet
          cmd.nbNodes cmd.mode
        some (if o.ret = -1 then 1 else 0, o.requests)
      | .del => do
        let o ← nodesRemove (← machine.answers.head?) machine.malloc machine.nodeId
          machine.krgNodesRemove cmd.nodeSet cmd.nbNodes cmd.mode
        some (if o.ret = -1 then 1 else 0, o.requests)

/-- A list of nodes is taken only as the first mode. -/
theorem applyNodes_ok {malloc : Option (KrgNodeSet maxNodes)} {optarg : Arg}
    {cmd cmd' : NodesCommand maxNodes} (h : applyNodes malloc optarg cmd = .ok cmd') :
    cmd.mode = .nodesModeUnset ∧ cmd'.mode = .nodesModeList := by
  rw [applyNodes] at h
  split at h
  · contradiction
  · rename_i hmode
    refine ⟨not_not.mp hmode, ?_⟩
    split at h
    · contradiction
    · split at h
      · contradiction
      · split at h
        · contradiction
        · rw [← Except.ok.inj h]

/-- A number is taken only as the first mode, when the whole text was read. -/
theorem applyNumber_ok {mode : NodesMode} {optarg : Arg} {cmd cmd' : NodesCommand maxNodes}
    (h : applyNumber mode optarg cmd = .ok cmd') :
    cmd.mode = .nodesModeUnset ∧ (strtol 10 optarg).2 = [] ∧
      cmd' = { cmd with mode := mode, nbNodes := toInt (strtol 10 optarg).1 } := by
  rw [applyNumber] at h
  split at h
  · contradiction
  · rename_i hmode
    split at h
    · contradiction
    · simp only at h
      split at h
      · contradiction
      · rename_i hread
        rw [not_or, not_not] at hread
        exact ⟨not_not.mp hmode, hread.2, (Except.ok.inj h).symm⟩

/-- Every option is taken only as the first mode. -/
theorem applyOption_ok {malloc : Option (KrgNodeSet maxNodes)} {cmd cmd' : NodesCommand maxNodes}
    {option : Char × Option Arg} (h : applyOption malloc cmd option = .ok cmd') :
    cmd.mode = .nodesModeUnset ∧ cmd'.mode ≠ .nodesModeUnset := by
  unfold applyOption at h
  split at h
  · obtain ⟨hmode, hmode'⟩ := applyNodes_ok h
    exact ⟨hmode, by simp [hmode']⟩
  · obtain ⟨hmode, -, rfl⟩ := applyNumber_ok h
    exact ⟨hmode, by simp⟩
  · obtain ⟨hmode, -, rfl⟩ := applyNumber_ok h
    exact ⟨hmode, by simp⟩
  · split at h
    · contradiction
    · rename_i hmode
      obtain rfl := Except.ok.inj h
      exact ⟨not_not.mp hmode, by simp⟩
  · contradiction

/-- A command line that is accepted has at most one option. -/
theorem eq_singleton_of_foldlM {malloc : Option (KrgNodeSet maxNodes)}
    {options : List (Char × Option Arg)} {cmd cmd' : NodesCommand maxNodes}
    (h : options.foldlM (applyOption malloc) cmd = .ok cmd') {option : Char × Option Arg}
    (hmem : option ∈ options) : options = [option] ∧ applyOption malloc cmd option = .ok cmd' := by
  cases options with
  | nil => exact absurd hmem List.not_mem_nil
  | cons first rest =>
    rw [List.foldlM_cons] at h
    cases hfirst : applyOption malloc cmd first with
    | error stop =>
      rw [hfirst] at h
      contradiction
    | ok next =>
      rw [hfirst] at h
      cases rest with
      | nil =>
        obtain rfl := List.mem_singleton.mp hmem
        obtain rfl : next = cmd' := Except.ok.inj h
        exact ⟨rfl, hfirst⟩
      | cons second rest =>
        change (second :: rest).foldlM (applyOption malloc) next = _ at h
        rw [List.foldlM_cons] at h
        cases hsecond : applyOption malloc next second with
        | error stop =>
          rw [hsecond] at h
          contradiction
        | ok last => exact absurd (applyOption_ok hsecond).1 (applyOption_ok hfirst).2

/-- A command is what the fold over its options leaves. -/
theorem foldlM_of_parseCommand {malloc : Option (KrgNodeSet maxNodes)} {argv : List Arg}
    {cmd : NodesCommand maxNodes} (h : parseCommand malloc argv = .ok cmd) :
    (getoptLong nodesModeOptions argv.tail).options.foldlM (applyOption malloc)
      (.start (actionOf argv)) = .ok cmd := by
  rw [parseCommand] at h
  cases hfold : (getoptLong nodesModeOptions argv.tail).options.foldlM (applyOption malloc)
      (.start (actionOf argv)) with
  | error stop =>
    simp only [hfold] at h
    contradiction
  | ok cmd' =>
    simp only [hfold] at h
    change (if _ then _ else if _ then _ else Except.ok cmd') = _ at h
    split at h
    · contradiction
    · split at h
      · contradiction
      · exact h

/-- A command with a count or a total has read its whole text, and carries the number given
exactly when an `int` can hold it. -/
theorem parseCommand_nbNodes_iff {malloc : Option (KrgNodeSet maxNodes)} {argv : List Arg}
    {cmd : NodesCommand maxNodes} (h : parseCommand malloc argv = .ok cmd) {c : Char} {optarg : Arg}
    (hc : c = 'c' ∨ c = 't')
    (hmem : (c, some optarg) ∈ (getoptLong nodesModeOptions argv.tail).options) :
    (strtol 10 optarg).2 = [] ∧ ∀ v, decimalValue optarg = some v →
      (cmd.nbNodes = v ↔ -2147483648 ≤ v ∧ v ≤ 2147483647) := by
  obtain ⟨-, happly⟩ := eq_singleton_of_foldlM (foldlM_of_parseCommand h) hmem
  have hnumber : ∃ mode, applyNumber mode optarg (.start (actionOf argv)) = .ok cmd := by
    rcases hc with rfl | rfl
    · exact ⟨_, happly⟩
    · exact ⟨_, happly⟩
  obtain ⟨mode, hnumber⟩ := hnumber
  obtain ⟨-, hread, rfl⟩ := applyNumber_ok hnumber
  refine ⟨hread, fun v hv => ?_⟩
  rw [strtol_decimal hv, toInt_clampLong_eq_iff]

/-- Without a command there is no request. -/
theorem nodes_refused {machine : Machine maxNodes} {argv : List Arg}
    (hrefused : ∀ cmd, parseCommand machine.malloc argv ≠ .ok cmd) {status : ℤ}
    {requests : List (KrgNodeSet maxNodes)} (h : nodes machine argv = some (status, requests)) :
    requests = [] := by
  rw [nodes] at h
  split at h
  · exact (Prod.mk.inj (Option.some.inj h)).2.symm
  · cases hparse : parseCommand machine.malloc argv with
    | ok cmd => exact absurd hparse (hrefused cmd)
    | error stop =>
      rw [hparse] at h
      cases stop with
      | exitFailure => exact (Prod.mk.inj (Option.some.inj h)).2.symm
      | fault fault => contradiction

end Kerrighed.Krgadm
