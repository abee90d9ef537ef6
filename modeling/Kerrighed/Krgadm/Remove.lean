import Kerrighed.Common.CNumbers
import Kerrighed.Hotplug.Status

/-!
# Removing nodes from the cluster

`nodes del` removes a list of nodes, all nodes, or a number of them. The function below is
`nodes_remove` over a status vector, the answer of `get_node_id`, and a node set for the list
mode; its outcome is the value returned with the sets handed to `krg_nodes_remove`.

Without output the four modes only differ in how they build the set to remove.
-/

namespace Kerrighed.Krgadm

open Kerrighed.Common Kerrighed.Hotplug

/-- `enum mode_t`. -/
inductive NodesMode where
  | nodesModeUnset
  | nodesModeAll
  | nodesModeCount
  | nodesModeTotal
  | nodesModeList
  deriving DecidableEq, Repr

/-- The value a command returns and the node sets it has handed to the kernel, in order. -/
structure Outcome (maxNodes : ℕ) where
  ret : ℤ
  requests : List (KrgNodeSet maxNodes)
  deriving DecidableEq, Repr

variable {maxNodes : ℕ}

/-- Hand a node set to the kernel unless it is empty. -/
def request (call : KrgNodeSet maxNodes → ℤ) (nodeSet : KrgNodeSet maxNodes) : Outcome maxNodes :=
  if 0 < krgNodeSetWeight nodeSet then ⟨call nodeSet, [nodeSet]⟩ else ⟨0, []⟩

/-- The end of a command without a request. -/
def refused : Outcome maxNodes := ⟨-1, []⟩

/-- The list mode drops a node that is not online, and the current node. -/
def removeListBody (status : KrgNodes maxNodes) (nodeId : ℤ) (nodeSet : KrgNodeSet maxNodes)
    (node : ℤ) : KrgNodeSet maxNodes :=
  if krgNodesIsOnline status node = 0 then (krgNodeSetRemove nodeSet node).2
  else if nodeId = node then (krgNodeSetRemove nodeSet node).2
  else nodeSet

/-- The count mode keeps the first `n` nodes other than the current one. -/
def removeCountBody (n nodeId : ℤ) (st : ℤ × KrgNodeSet maxNodes) (node : ℤ) :
    ℤ × KrgNodeSet maxNodes :=
  if st.1 < n then
    if nodeId = node then (st.1, (krgNodeSetRemove st.2 node).2) else (st.1 + 1, st.2)
  else (st.1, (krgNodeSetRemove st.2 node).2)

/-- Remove `n` of the online nodes. -/
def removeCount (status : KrgNodes maxNodes) (malloc : Option (KrgNodeSet maxNodes)) (nodeId : ℤ)
    (krgNodesRemove : KrgNodeSet maxNodes → ℤ) (n : ℤ) : Option (Outcome maxNodes) := do
  let nodeSet ← krgNodesGetOnline malloc status
  if n < krgNodeSetWeight nodeSet then
    let (_, _, nodeSet) ← visit (fun st => krgNodeSetNext st.2) (removeCountBody n nodeId)
      (maxNodes + 1) (0, nodeSet)
    some (request krgNodesRemove nodeSet)
  else some refused

/-- The command, with what `krg_nodes_status`, `malloc`, `get_node_id` and `krg_nodes_remove`
answer. It has no outcome where the program reads through a null pointer, nor where the
subtraction of the total mode overflows. -/
def nodesRemove (status : Option (KrgNodes maxNodes)) (malloc : Option (KrgNodeSet maxNodes))
    (nodeId : ℤ) (krgNodesRemove : KrgNodeSet maxNodes → ℤ) (nodeSet : Option (KrgNodeSet maxNodes))
    (n : ℤ) (mode : NodesMode) : Option (Outcome maxNodes) :=
  match status with
  | none => some refused
  | some status =>
    match mode with
    | .nodesModeAll => do
      let nodeSet ← krgNodeSetCreate malloc
      some (request krgNodesRemove
        (addWhere (fun bcl => krgNodesIsOnline status bcl ≠ 0 ∧ nodeId ≠ bcl) nodeSet))
    | .nodesModeList => do
      let (_, nodeSet) ← visit krgNodeSetNext (removeListBody status nodeId) (maxNodes + 1)
        (← nodeSet)
      some (request krgNodesRemove nodeSet)
    | .nodesModeTotal => do
      removeCount status malloc nodeId krgNodesRemove (← subInt (krgNodesNumOnline status) n)
    | .nodesModeCount => removeCount status malloc nodeId krgNodesRemove n
    | .nodesModeUnset => some refused

/-- The only set that is handed over is the one built, and only when it has members. -/
theorem mem_request {call : KrgNodeSet maxNodes → ℤ} {nodeSet r : KrgNodeSet maxNodes} :
    r ∈ (request call nodeSet).requests ↔ r = nodeSet ∧ 0 < krgNodeSetWeight nodeSet := by
  rw [request]
  split <;> simp [*]

/-- The command makes one request, for the wanted nodes, or none when there are none. -/
def Outcome.Asks (o : Outcome maxNodes) (wanted : Finset ℤ) : Prop :=
  o.requests.map KrgNodeSet.members = if wanted = ∅ then [] else [wanted]

/-- A request carries the wanted nodes. -/
theorem Outcome.Asks.members_eq {o : Outcome maxNodes} {wanted : Finset ℤ} (ho : o.Asks wanted)
    {r : KrgNodeSet maxNodes} (hr : r ∈ o.requests) : r.members = wanted := by
  have hmem : r.members ∈ if wanted = ∅ then [] else [wanted] := by
    rw [← ho]
    exact List.mem_map_of_mem hr
  split at hmem
  · simp at hmem
  · exact List.mem_singleton.mp hmem

/-- Handing over a node set asks for its members. -/
theorem request_asks (call : KrgNodeSet maxNodes → ℤ) (nodeSet : KrgNodeSet maxNodes) :
    (request call nodeSet).Asks nodeSet.members := by
  rw [Outcome.Asks, request, weight_eq]
  by_cases hempty : nodeSet.members = ∅
  · simp [hempty]
  · have hpos := Finset.card_pos.mpr (Finset.nonempty_iff_ne_empty.mpr hempty)
    rw [if_pos (by omega), if_neg hempty]
    rfl

/-- The list mode takes out exactly the nodes that are not online and the current one. -/
theorem removeListBody_eq (status : KrgNodes maxNodes) (nodeId : ℤ) :
    removeListBody status nodeId =
      dropWhere fun node => krgNodesIsOnline status node = 0 ∨ nodeId = node := by
  funext nodeSet node
  rw [removeListBody, dropWhere]
  split
  · simp [*]
  · split <;> simp [*]

/-- The list mode asks to remove the requested nodes that are online, without the current one. -/
theorem nodesRemove_list (status : KrgNodes maxNodes) (malloc : Option (KrgNodeSet maxNodes))
    (nodeId : ℤ) (krgNodesRemove : KrgNodeSet maxNodes → ℤ) (nodeSet : KrgNodeSet maxNodes) (n : ℤ) :
    ∃ chosen, nodesRemove (some status) malloc nodeId krgNodesRemove (some nodeSet) n
        .nodesModeList = some (request krgNodesRemove chosen) ∧
      chosen.members = (nodeSet.members ∩ status.withStatus .hotplugNodeOnline).erase nodeId := by
  obtain ⟨chosen, hvisit, hchosen⟩ := visit_dropWhere
    (fun node => krgNodesIsOnline status node = 0 ∨ nodeId = node) nodeSet (Nat.lt_succ_self maxNodes)
  refine ⟨chosen, ?_, ?_⟩
  · change (visit krgNodeSetNext (removeListBody status nodeId) (maxNodes + 1) nodeSet).bind _ = _
    rw [removeListBody_eq, hvisit]
    rfl
  · ext node
    rw [hchosen, Finset.mem_erase, Finset.mem_inter]
    by_cases hmem : node ∈ nodeSet.members
    · rw [krgNodesIsOnline, nodesIs_of_range (mem_members.mp hmem).1]
      by_cases honline : node ∈ status.withStatus .hotplugNodeOnline
      · simp [hmem, honline, eq_comm]
      · simp [honline]
    · simp [hmem]

/-- The all mode asks to remove the online nodes without the current one. -/
theorem nodesRemove_all (status : KrgNodes maxNodes) (item : KrgNodeSet maxNodes)
    (nodeId : ℤ) (krgNodesRemove : KrgNodeSet maxNodes → ℤ)
    (nodeSet : Option (KrgNodeSet maxNodes)) (n : ℤ) :
    ∃ chosen, nodesRemove (some status) (some item) nodeId krgNodesRemove nodeSet n
        .nodesModeAll = some (request krgNodesRemove chosen) ∧
      chosen.members = (status.withStatus .hotplugNodeOnline).erase nodeId := by
  refine ⟨_, rfl, ?_⟩
  rw [members_addWhere, members_clear, Finset.empty_union]
  ext node
  rw [mem_indexSet, Finset.mem_erase]
  by_cases hrange : 0 ≤ node ∧ node < maxNodes
  · have hback : ((node.toNat : ℕ) : ℤ) = node := Int.toNat_of_nonneg hrange.1
    rw [hback, krgNodesIsOnline, nodesIs_of_range hrange]
    by_cases honline : node ∈ status.withStatus .hotplugNodeOnline
    · simp only [honline, if_true, ne_eq, one_ne_zero, not_false_eq_true, true_and,
        decide_eq_true_eq, hrange, and_self, and_true]
      exact ne_comm
    · simp [honline]
  · have hout : node ∉ status.withStatus .hotplugNodeOnline :=
      fun hmem => hrange (mem_withStatus.mp hmem).1
    simp [hrange, hout]

/-- The list mode hands the kernel exactly the requested online nodes other than the current
one and the all mode all online nodes other than the current one, in one call, or none when
there is no such node. Neither ever asks to remove the current node or one that is not online. -/
theorem nodesRemove_list_all (status : KrgNodes maxNodes) (item nodeSet : KrgNodeSet maxNodes)
    (given malloc : Option (KrgNodeSet maxNodes)) (nodeId : ℤ)
    (krgNodesRemove : KrgNodeSet maxNodes → ℤ) (n : ℤ) :
    ∃ listed all,
      nodesRemove (some status) malloc nodeId krgNodesRemove (some nodeSet) n .nodesModeList =
        some listed ∧
      nodesRemove (some status) (some item) nodeId krgNodesRemove given n .nodesModeAll =
        some all ∧
      listed.Asks ((nodeSet.members ∩ status.withStatus .hotplugNodeOnline).erase nodeId) ∧
      all.Asks ((status.withStatus .hotplugNodeOnline).erase nodeId) ∧
      ∀ r ∈ listed.requests ++ all.requests,
        nodeId ∉ r.members ∧ r.members ⊆ status.withStatus .hotplugNodeOnline := by
  obtain ⟨l, hlist, hl⟩ :=
    nodesRemove_list status malloc nodeId krgNodesRemove nodeSet n
  obtain ⟨a, hall, ha⟩ :=
    nodesRemove_all status item nodeId krgNodesRemove given n
  have hlasks := request_asks krgNodesRemove l
  have haasks := request_asks krgNodesRemove a
  rw [hl] at hlasks
  rw [ha] at haasks
  refine ⟨_, _, hlist, hall, hlasks, haasks, fun r hr => ?_⟩
  rcases List.mem_append.mp hr with h | h
  · rw [hlasks.members_eq h]
    exact ⟨Finset.notMem_erase _ _, (Finset.erase_subset _ _).trans Finset.inter_subset_right⟩
  · rw [haasks.members_eq h]
    exact ⟨Finset.notMem_erase _ _, Finset.erase_subset _ _⟩

end Kerrighed.Krgadm
