import Kerrighed.Krgadm.Nodes
import Kerrighed.Tools.CheckpointMain
import Kerrighed.Tools.Migrate

/-!
# Numbers on the command lines

Three tools take a number as text and hand it to the kernel or to the cluster commands, through
`long`, `int`, `pid_t` and `short`. None of them checks the range at the width it uses, so a
number arrives unchanged exactly when the narrowest type on its way can hold it.
-/

namespace Kerrighed.Tools

open Kerrighed.Common Kerrighed.Hotplug Kerrighed.Krgadm

/-- The node of a migration is the number given exactly when a `short` can hold it, the
identifier of the checkpoint tool for a process exactly when a `pid_t` can, and the number of
nodes of a cluster command exactly when an `int` can. -/
theorem numbers_unchanged_iff (maxNodes : ℕ) (v : ℤ) :
    (∀ call argv pid nodeid, (getoptLong Migrate.longOptions argv).operands = [pid, nodeid] →
      decimalValue nodeid = some v → ∀ r ∈ (Migrate.main call argv).requests,
        (r.migrationInfos.destinationNodeId = v ↔ -32768 ≤ v ∧ v ≤ 32767)) ∧
    (∀ pid, ∀ r ∈ [Migrate.migrate pid v, Migrate.migrateSelf pid v, Migrate.threadMigrate pid v],
      (r.migrationInfos.destinationNodeId = v ↔ -32768 ≤ v ∧ v ≤ 32767)) ∧
    (∀ env checkEnvironment argv args operand,
      Checkpoint.parseArgs argv = .ok (args, operand) → args.globals.fromAppid = false →
      decimalValue operand = some v →
        (v < 2 → ∀ service info,
          .service service info ∉ (Checkpoint.main env checkEnvironment argv).2.requests) ∧
        ∀ service info,
          .service service info ∈ (Checkpoint.main env checkEnvironment argv).2.requests →
            (info.appId = v ↔ v ≤ 2147483647)) ∧
    ∀ (machine : Machine maxNodes) argv c optarg, c = 'c' ∨ c = 't' →
      (c, some optarg) ∈ (getoptLong nodesModeOptions argv.tail).options →
        ((∀ cmd, parseCommand machine.malloc argv ≠ .ok cmd) →
          ∀ status requests, nodes machine argv = some (status, requests) → requests = []) ∧
        ∀ cmd, parseCommand machine.malloc argv = .ok cmd → (strtol 10 optarg).2 = [] ∧
          (decimalValue optarg = some v →
            (cmd.nbNodes = v ↔ -2147483648 ≤ v ∧ v ≤ 2147483647)) := by
  refine ⟨fun call argv pid nodeid hoperands hv r hr => ?_, fun pid r hr => ?_, ?_, ?_⟩
  · exact Migrate.main_destination_iff hoperands hv hr
  · simp only [List.mem_cons, List.not_mem_nil, or_false] at hr
    rcases hr with rfl | rfl | rfl <;> exact toShort_eq_iff
  · intro env checkEnvironment argv args operand hparse hmode hv
    exact Checkpoint.main_appId_iff hparse hmode hv env checkEnvironment
  · intro machine argv c optarg hc hmem
    refine ⟨fun hrefused status requests h => nodes_refused hrefused h, fun cmd h => ?_⟩
    obtain ⟨hread, hnumber⟩ := parseCommand_nbNodes_iff h hc hmem
    exact ⟨hread, hnumber v⟩

/-- Node 65537 becomes node 1, process 4294967298 becomes process 2, and 4294967297 nodes become
one node. -/
theorem large_numbers_are_changed :
    (Migrate.main (fun _ => 0) ["100".toList, "65537".toList]).requests =
      [⟨.processMigration, ⟨1, 100⟩⟩] ∧
    decimalValue "65537".toList = some 65537 ∧
    (Checkpoint.main ⟨fun _ => 0, 0, none⟩ true ["-q".toList, "-b".toList, "-f".toList,
      "4294967298".toList]).2.requests = [.service .appFreeze ⟨2, Checkpoint.appFromPid, 0⟩] ∧
    decimalValue "4294967298".toList = some 4294967298 ∧
    parseCommand (none : Option (KrgNodeSet 4)) ["add".toList, "-c".toList, "4294967297".toList] =
      .ok ⟨.add, none, 1, .nodesModeCount⟩ ∧
    decimalValue "4294967297".toList = some 4294967297 := by
  decide

end Kerrighed.Tools
