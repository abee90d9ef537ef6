import Kerrighed.Common.CNumbers
import Kerrighed.Common.Getopt

/-!
# Migrating processes and threads

The library fills a record for the kernel whose node field is a `short`, from the `int` its
callers give. The `migrate` tool reads both of its operands with `atoi`. The answer of the
kernel is a parameter; the outcome is the exit status with the requests made.
-/

namespace Kerrighed.Tools.Migrate

open Kerrighed.Common

/-- `KSYS_PROCESS_MIGRATION` and `KSYS_THREAD_MIGRATION`. -/
inductive Service where
  | processMigration
  | threadMigration
  deriving DecidableEq, Repr

/-- `migration_infos_t`; process and thread share a field. -/
structure MigrationInfos where
  destinationNodeId : ℤ
  toMigrate : ℤ
  deriving DecidableEq, Repr

/-- A kernel request. -/
structure Request where
  service : Service
  migrationInfos : MigrationInfos
  deriving DecidableEq, Repr

/-- The request that migrates a process. -/
def migrate (pid destinationNode : ℤ) : Request :=
  ⟨.processMigration, ⟨toShort destinationNode, pid⟩⟩

/-- The request that migrates the calling process. -/
def migrateSelf (getpid destinationNode : ℤ) : Request :=
  ⟨.processMigration, ⟨toShort destinationNode, getpid⟩⟩

/-- The request that migrates a thread. -/
def threadMigrate (threadId destinationNode : ℤ) : Request :=
  ⟨.threadMigration, ⟨toShort destinationNode, threadId⟩⟩

/-- The options of the tool. -/
def longOptions : OptTable where
  short := [('h', .noArgument), ('v', .noArgument)]
  long := [⟨"help".toList, .noArgument, 'h'⟩, ⟨"version".toList, .noArgument, 'v'⟩]

/-- The exit status and the requests made. -/
structure Outcome where
  status : ℤ
  requests : List Request
  deriving DecidableEq, Repr

/-- The pid and the node given, or the exit status where the tool ends before. -/
def parseArgs (argv : List Arg) : Except ℤ (ℤ × ℤ) :=
  let parsed := getoptLong longOptions argv
  match parsed.options with
  | ('h', _) :: _ => .error 0
  | ('v', _) :: _ => .error 0
  | _ :: _ => .error 1
  | [] =>
    if parsed.failed then .error 1
    else
      match parsed.operands with
      | [pid, nodeid] => .ok (atoi pid, atoi nodeid)
      | _ => .error 1

/-- The tool, given how the kernel answers. -/
def main (call : Request → ℤ) (argv : List Arg) : Outcome :=
  match parseArgs argv with
  | .error status => ⟨status, []⟩
  | .ok (pid, nodeid) => ⟨if call (migrate pid nodeid) ≠ 0 then 1 else 0, [migrate pid nodeid]⟩

/-- A run that makes a request has read its node from the second of two operands. -/
theorem main_request {call : Request → ℤ} {argv : List Arg} {r : Request}
    (hr : r ∈ (main call argv).requests) :
    ∃ pid nodeid, (getoptLong longOptions argv).operands = [pid, nodeid] ∧
      r.migrationInfos.destinationNodeId = toShort (atoi nodeid) := by
  rw [main] at hr
  cases hparse : parseArgs argv with
  | error status => simp [hparse] at hr
  | ok given =>
    rw [hparse] at hr
    obtain rfl := List.mem_singleton.mp hr
    simp only [parseArgs] at hparse
    split at hparse
    · contradiction
    · contradiction
    · contradiction
    · split at hparse
      · contradiction
      · split at hparse
        · rename_i pid nodeid hoperands
          obtain rfl := Except.ok.inj hparse
          exact ⟨pid, nodeid, hoperands, rfl⟩
        · contradiction

/-- The node of a request is the number given exactly when a `short` can hold it. -/
theorem main_destination_iff {call : Request → ℤ} {argv : List Arg} {pid nodeid : Arg} {v : ℤ}
    (hoperands : (getoptLong longOptions argv).operands = [pid, nodeid])
    (hv : decimalValue nodeid = some v) {r : Request} (hr : r ∈ (main call argv).requests) :
    r.migrationInfos.destinationNodeId = v ↔ -32768 ≤ v ∧ v ≤ 32767 := by
  obtain ⟨pid', nodeid', hoperands', hnode⟩ := main_request hr
  obtain ⟨-, rfl⟩ : pid = pid' ∧ nodeid = nodeid' := by simpa [hoperands] using hoperands'
  rw [hnode, atoi, strtol_decimal hv, toShort_toInt_clampLong_eq_iff]

end Kerrighed.Tools.Migrate
