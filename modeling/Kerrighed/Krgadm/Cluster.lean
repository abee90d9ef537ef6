import Kerrighed.Common.Getopt
import Kerrighed.Hotplug.Status

/-!
# The cluster command

`krgadm cluster` prints the state of the cluster, powers it off or reboots it. The last two first
look at the state: the number of online nodes if cluster 0 is up, 0 if it is not, and -1 if the
state is not known. They compare it with 0 only, so an unknown state counts as a running cluster.

The answers of the kernel and of the memory allocation are parameters: a query that fails has no
result.
-/

namespace Kerrighed.Krgadm.Cluster

open Kerrighed.Common Kerrighed.Hotplug

variable {maxNodes : ℕ}

/-- `struct krg_clusters`: a char for each of `kerrighed_max_clusters` clusters. -/
structure KrgClusters (maxClusters : ℤ) where
  clusters : Vector Int8 maxClusters.toNat
  deriving DecidableEq, Repr

/-- Whether a cluster is up, with -1 for a number out of range. -/
def krgClustersIsUp {maxClusters : ℤ} (item : KrgClusters maxClusters) (n : ℤ) : ℤ :=
  if 0 ≤ n ∧ n < maxClusters then
    if item.clusters[n.toNat]?.getD 0 ≠ 0 then 1 else 0
  else -1

/-- A hotplug request for a subcluster. -/
inductive Request where
  | shutdown (subclusterid : ℤ)
  | restart (subclusterid : ℤ)
  deriving DecidableEq, Repr

/-- What the command is answered: the check for Kerrighed, `kerrighed_max_clusters`, the two status
queries, and the hotplug requests. -/
structure Machine (maxNodes : ℕ) where
  checkHotplug : ℤ
  maxClusters : ℤ
  krgClusterStatus : Option (KrgClusters maxClusters)
  krgNodesStatus : Option (KrgNodes maxNodes)
  answer : Request → ℤ

/-- `krg_nodes_num_online` on the result of the query. There is no result where it reads through
the null pointer of a failed one. -/
def krgNodesNumOnline (nodes : Option (KrgNodes maxNodes)) : Option ℤ :=
  match nodes with
  | some nodes => some (Hotplug.krgNodesNumOnline nodes)
  | none => if maxNodes = 0 then some 0 else none

/-- The number of nodes in the cluster if it is up, 0 if not, and -1 on failure. -/
def clusterStatus (m : Machine maxNodes) : Option ℤ :=
  match m.krgClusterStatus with
  | none => some (-1)
  | some clusterStatus =>
    if krgClustersIsUp clusterStatus 0 ≠ 0 then krgNodesNumOnline m.krgNodesStatus else some 0

/-- The actions of the command. -/
inductive Action where
  | none
  | status
  | poweroff
  | reboot
  deriving DecidableEq, Repr

/-- The action named by the first argument. -/
def actionOf : List Arg → Action
  | [] => .status
  | arg :: _ =>
    if arg = "status".toList then .status
    else if arg = "poweroff".toList then .poweroff
    else if arg = "reboot".toList then .reboot
    else .none

/-- The exit status and the requests made. -/
structure Outcome where
  status : ℤ
  requests : List Request
  deriving DecidableEq, Repr

/-- Make a request unless the state of the cluster is 0. -/
def unlessDown (m : Machine maxNodes) (request : Request) : Option Outcome := do
  let r ← clusterStatus m
  if r = 0 then some ⟨1, []⟩
  else some ⟨if m.answer request = -1 then 1 else 0, [request]⟩

/-- The command on the arguments behind its name. It has no outcome where it reads through a null
pointer. -/
def cluster (m : Machine maxNodes) (argv : List Arg) : Option Outcome :=
  if m.checkHotplug ≠ 0 then some ⟨1, []⟩
  else
    match actionOf argv with
    | .status => do
      let r ← clusterStatus m
      some ⟨if r = -1 then 1 else 0, []⟩
    | .poweroff => unlessDown m (.shutdown 0)
    | .reboot => unlessDown m (.restart 0)
    | .none => some ⟨0, []⟩

/-- The cluster is known to be up: its query succeeds and reports cluster 0 as up, and a node is
online. -/
def KnownUp (m : Machine maxNodes) : Prop :=
  ∃ item, m.krgClusterStatus = some item ∧ krgClustersIsUp item 0 = 1 ∧
    ∃ nodes, m.krgNodesStatus = some nodes ∧ 0 < Hotplug.krgNodesNumOnline nodes

/-- The state could not be determined: a query fails, or does not tell of cluster 0. -/
def Undetermined (m : Machine maxNodes) : Prop :=
  ∀ item, m.krgClusterStatus = some item → krgClustersIsUp item 0 = -1 ∨
    krgClustersIsUp item 0 = 1 ∧ m.krgNodesStatus = none

/-- Requests are made only if the cluster is known to be up, and where its state could not be
determined the command fails without one. -/
def Guarded (m : Machine maxNodes) (outcome : Option Outcome) : Prop :=
  (∀ o, outcome = some o → o.requests ≠ [] → KnownUp m) ∧
    (Undetermined m → ∃ o, outcome = some o ∧ o.status ≠ 0 ∧ o.requests = [])

/-- The cluster query succeeds, and it reports cluster 0 as down, or the node query succeeds too and
there is a cluster 0 or no online node. Where no node is possible the node query does not matter. -/
def QueriesTell (m : Machine maxNodes) : Prop :=
  ∃ item, m.krgClusterStatus = some item ∧
    (krgClustersIsUp item 0 = 0 ∨
      match m.krgNodesStatus with
      | some nodes => 0 < m.maxClusters ∨ Hotplug.krgNodesNumOnline nodes = 0
      | none => maxNodes = 0)

/-- The answers about a cluster. -/
theorem krgClustersIsUp_cases {maxClusters : ℤ} (item : KrgClusters maxClusters) :
    (0 < maxClusters ∧ krgClustersIsUp item 0 = 1) ∨ krgClustersIsUp item 0 = 0 ∨
      (maxClusters ≤ 0 ∧ krgClustersIsUp item 0 = -1) := by
  unfold krgClustersIsUp
  by_cases hmax : 0 < maxClusters
  · rw [if_pos ⟨le_rfl, hmax⟩]
    split
    · exact .inl ⟨hmax, rfl⟩
    · exact .inr (.inl rfl)
  · rw [if_neg fun h => hmax h.2]
    exact .inr (.inr ⟨not_lt.mp hmax, rfl⟩)

/-- The command that reads through a null pointer does not know the state. -/
theorem undetermined_of_status_none {m : Machine maxNodes} (h : clusterStatus m = none) :
    Undetermined m := by
  intro item hitem
  simp only [clusterStatus, hitem] at h
  rcases krgClustersIsUp_cases item with ⟨-, hup⟩ | hup | ⟨-, hup⟩
  · cases hnodes : m.krgNodesStatus with
    | some nodes => simp [hup, hnodes, krgNodesNumOnline] at h
    | none => exact .inr ⟨hup, rfl⟩
  · simp [hup] at h
  · exact .inl hup

/-- A cluster known to be up has a state that could be determined. -/
theorem KnownUp.not_undetermined {m : Machine maxNodes} (h : KnownUp m) : ¬ Undetermined m := by
  obtain ⟨item, hitem, hup, nodes, hnodes, -⟩ := h
  intro hundetermined
  rcases hundetermined item hitem with hunknown | ⟨-, hfailed⟩
  · rw [hup] at hunknown
    contradiction
  · rw [hnodes] at hfailed
    contradiction

/-- The request is guarded exactly when the state is found to be 0 or the cluster is known to be
up. -/
theorem unlessDown_guarded_iff (m : Machine maxNodes) (request : Request) :
    Guarded m (unlessDown m request) ↔ clusterStatus m = some 0 ∨ KnownUp m := by
  unfold unlessDown
  cases hstatus : clusterStatus m with
  | none =>
    have hundetermined := undetermined_of_status_none hstatus
    refine iff_of_false (fun h => ?_) ?_
    · obtain ⟨o, ho, -⟩ := h.2 hundetermined
      contradiction
    · rintro (hzero | hup)
      · contradiction
      · exact hup.not_undetermined hundetermined
  | some r =>
    by_cases hr : r = 0
    · refine iff_of_true ⟨fun o ho hrequests => ?_, fun _ => ⟨⟨1, []⟩, ?_, by decide, rfl⟩⟩ ?_
      · simp [hr] at ho
        simp [← ho] at hrequests
      · simp [hr]
      · exact .inl (congrArg some hr)
    · have hzero : ¬ some r = some 0 := fun h => hr (Option.some.inj h)
      rw [or_iff_right hzero]
      constructor
      · intro h
        refine h.1 ⟨if m.answer request = -1 then 1 else 0, [request]⟩ ?_ (by simp)
        simp [hr]
      · intro hup
        exact ⟨fun _ _ _ => hup, fun h => absurd h hup.not_undetermined⟩

/-- The number of online nodes is not negative. -/
theorem krgNodesNumOnline_nonneg (nodes : KrgNodes maxNodes) :
    0 ≤ Hotplug.krgNodesNumOnline nodes := by
  rw [Hotplug.krgNodesNumOnline, nodesNum_eq]
  exact Int.natCast_nonneg _

/-- What the state is found to be behind a cluster query with some answer. -/
theorem clusterStatus_of_some {m : Machine maxNodes} {item : KrgClusters m.maxClusters}
    (hitem : m.krgClusterStatus = some item) :
    clusterStatus m =
      if krgClustersIsUp item 0 ≠ 0 then krgNodesNumOnline m.krgNodesStatus else some 0 := by
  rw [clusterStatus, hitem]

/-- The state is found to be 0 or the cluster is known to be up exactly when the queries tell. -/
theorem status_zero_or_up_iff (m : Machine maxNodes) :
    clusterStatus m = some 0 ∨ KnownUp m ↔ QueriesTell m := by
  unfold KnownUp QueriesTell
  cases hitem : m.krgClusterStatus with
  | none => simp [clusterStatus, hitem]
  | some item =>
    rw [clusterStatus_of_some hitem]
    simp only [Option.some.injEq, exists_eq_left']
    rcases krgClustersIsUp_cases item with ⟨hmax, hup⟩ | hup | ⟨hmax, hup⟩
    · cases hnodes : m.krgNodesStatus with
      | none => simp [hup, krgNodesNumOnline]
      | some nodes =>
        have hnum := krgNodesNumOnline_nonneg nodes
        simp [hup, krgNodesNumOnline, hmax]
        omega
    · simp [hup]
    · cases hnodes : m.krgNodesStatus with
      | none => simp [hup, krgNodesNumOnline]
      | some nodes => simp [hup, krgNodesNumOnline, not_lt.mpr hmax]

/-- Powering off and rebooting are guarded exactly when Kerrighed does not run or the queries
tell. -/
theorem cluster_guarded_iff (m : Machine maxNodes) {argv : List Arg}
    (haction : actionOf argv = .poweroff ∨ actionOf argv = .reboot) :
    Guarded m (cluster m argv) ↔ m.checkHotplug ≠ 0 ∨ QueriesTell m := by
  unfold cluster
  split
  · rename_i hcheck
    refine iff_of_true ⟨fun o ho hrequests => ?_, fun _ => ⟨_, rfl, ?_, rfl⟩⟩ (.inl hcheck)
    · rw [← Option.some.inj ho] at hrequests
      contradiction
    · exact one_ne_zero
  · rename_i hcheck
    rw [or_iff_right hcheck, ← status_zero_or_up_iff]
    rcases haction with haction | haction
    · rw [haction]
      exact unlessDown_guarded_iff m (.shutdown 0)
    · rw [haction]
      exact unlessDown_guarded_iff m (.restart 0)

/-- A cluster that is up on one node is rebooted. -/
theorem running_cluster_rebooted :
    Guarded ⟨0, 1, some ⟨#v[1]⟩, some (⟨#v[3]⟩ : KrgNodes 1), fun _ => 0⟩
      (cluster ⟨0, 1, some ⟨#v[1]⟩, some (⟨#v[3]⟩ : KrgNodes 1), fun _ => 0⟩
        ["reboot".toList]) :=
  (cluster_guarded_iff _ (.inr (by decide))).mpr (.inr ⟨_, rfl, .inr (.inl (by decide))⟩)

/-- Where the cluster query fails, the power is switched off and the command succeeds. -/
theorem unknown_cluster_powered_off :
    cluster ⟨0, 1, none, some (⟨#v[3]⟩ : KrgNodes 1), fun _ => 0⟩ ["poweroff".toList] =
        some ⟨0, [.shutdown 0]⟩ ∧
      Undetermined ⟨0, 1, none, some (⟨#v[3]⟩ : KrgNodes 1), fun _ => 0⟩ ∧
      ¬ Guarded ⟨0, 1, none, some (⟨#v[3]⟩ : KrgNodes 1), fun _ => 0⟩
        (cluster ⟨0, 1, none, some (⟨#v[3]⟩ : KrgNodes 1), fun _ => 0⟩ ["poweroff".toList]) := by
  have hsent : cluster ⟨0, 1, none, some (⟨#v[3]⟩ : KrgNodes 1), fun _ => 0⟩ ["poweroff".toList] =
      some ⟨0, [.shutdown 0]⟩ := by decide
  refine ⟨hsent, fun item hitem => by contradiction, fun hguarded => ?_⟩
  obtain ⟨item, hitem, -⟩ := hguarded.1 _ hsent (by decide)
  contradiction

end Kerrighed.Krgadm.Cluster
