import Kerrighed.Krgadm.Remove

/-!
# Removing a number of nodes

The count mode starts from the set of all online nodes and takes nodes out of it in the loop
over the set. What stays are the first online nodes other than the current one, as many as asked
for, wherever the current node stands.

The total mode subtracts the number of nodes that shall stay and falls through to the count
mode. It keeps its promise exactly when the difference is neither negative nor too large.
-/

namespace Kerrighed.Krgadm

open Kerrighed.Common Kerrighed.Hotplug

variable {maxNodes : ℕ}

/-- The online nodes other than the current one, in increasing order. -/
def removableNodes (status : KrgNodes maxNodes) (nodeId : ℤ) : List ℤ :=
  (passing (status.has .hotplugNodeOnline) maxNodes).filter (· ≠ nodeId)

/-- The number of nodes that an outcome asks to remove. -/
def Outcome.removed (o : Outcome maxNodes) : ℕ :=
  o.requests.foldl (fun k r => k + r.members.card) 0

/-- The loop keeps the first nodes other than the current one, as many as are still missing. -/
theorem mem_members_keepFirst {n nodeId b : ℤ} {nodes : List ℤ} (hnodup : nodes.Nodup)
    {nodeSet : KrgNodeSet maxNodes} {i : ℤ} :
    i ∈ (nodes.foldl (removeCountBody n nodeId) (b, nodeSet)).2.members ↔
      i ∈ nodeSet.members ∧
        (i ∈ nodes → i ∈ (nodes.filter (· ≠ nodeId)).take (n - b).toNat) := by
  induction nodes generalizing b nodeSet with
  | nil => simp
  | cons node rest ih =>
    obtain ⟨hnode, hrest⟩ := List.nodup_cons.mp hnodup
    rw [List.foldl_cons, removeCountBody]
    by_cases hmissing : b < n
    · rw [if_pos hmissing]
      by_cases hself : nodeId = node
      · -- The current node is taken out and not counted.
        rw [if_pos hself, ih hrest, members_remove, Finset.mem_erase,
          List.filter_cons_of_neg (by simp [hself])]
        by_cases hi : i = node
        · have hout : node ∉ (rest.filter (· ≠ nodeId)).take (n - b).toNat := fun hmem =>
            hnode (List.mem_of_mem_filter (List.mem_of_mem_take hmem))
          rw [hi]
          exact ⟨fun h => absurd rfl h.1.1, fun h => absurd (h.2 List.mem_cons_self) hout⟩
        · simp [hi]
      · rw [if_neg hself, ih hrest, List.filter_cons_of_pos (by simpa using Ne.symm hself)]
        have htake : (n - b).toNat = (n - (b + 1)).toNat + 1 := by omega
        rw [htake, List.take_succ_cons]
        by_cases hi : i = node
        · simp [hi, hnode]
        · simp [hi]
    · rw [if_neg hmissing, ih hrest, members_remove, Finset.mem_erase]
      have htake : (n - b).toNat = 0 := by omega
      rw [htake, List.take_zero, List.take_zero]
      by_cases hi : i = node
      · simp [hi]
      · simp [hi]

/-- The loop leaves the entries behind the node it handles alone. -/
theorem removeCountBody_keeps (n nodeId : ℤ) (st : ℤ × KrgNodeSet maxNodes) {i j : ℕ}
    (hij : i < j) : (removeCountBody n nodeId st i).2.flag j = st.2.flag j := by
  have hremove := flag_remove_of_ne st.2 (n := i) (j := j) (by omega)
  rw [removeCountBody]
  split
  · split
    · exact hremove
    · rfl
  · exact hremove

/-- The number of online nodes. -/
theorem numOnline_eq (status : KrgNodes maxNodes) :
    krgNodesNumOnline status = (status.withStatus .hotplugNodeOnline).card :=
  nodesNum_eq status .hotplugNodeOnline

/-- There are enough nodes to remove fewer than are online. -/
theorem le_length_removableNodes {status : KrgNodes maxNodes} (nodeId : ℤ) {n : ℤ}
    (hn : n < krgNodesNumOnline status) : n ≤ (removableNodes status nodeId).length := by
  have herase : removableNodes status nodeId =
      (passing (status.has .hotplugNodeOnline) maxNodes).erase nodeId := by
    rw [(passing_nodup _ _).erase_eq_filter, removableNodes]
    refine List.filter_congr fun i _ => ?_
    rw [Bool.eq_iff_iff, decide_eq_true_iff, bne_iff_ne]
  have hle := List.le_length_erase (a := nodeId)
    (l := passing (status.has .hotplugNodeOnline) maxNodes)
  rw [krgNodesNumOnline, nodesNum_eq_length] at hn
  rw [herase]
  omega

/-- The first removable nodes are as many as asked for. -/
theorem card_take_removableNodes {status : KrgNodes maxNodes} (nodeId : ℤ) {n : ℤ} (hn : 0 ≤ n)
    (hlt : n < krgNodesNumOnline status) :
    (((removableNodes status nodeId).take n.toNat).toFinset.card : ℤ) = n :=
  card_take_toFinset ((passing_nodup _ _).filter _) hn (le_length_removableNodes nodeId hlt)

/-- The set of online nodes, and its weight. -/
theorem weight_getOnline (status : KrgNodes maxNodes) (item : KrgNodeSet maxNodes) :
    krgNodeSetWeight (addWhere (status.has .hotplugNodeOnline) (krgNodeSetClear item)) =
      krgNodesNumOnline status := by
  rw [weight_eq, members_addWhere, members_clear, Finset.empty_union, numOnline_eq,
    KrgNodes.withStatus]

/-- The request is for the first removable nodes, as many as are asked for. -/
theorem removeCount_eq (status : KrgNodes maxNodes) (item : KrgNodeSet maxNodes) (nodeId : ℤ)
    (krgNodesRemove : KrgNodeSet maxNodes → ℤ) {n : ℤ} (hn : n < krgNodesNumOnline status) :
    ∃ chosen, removeCount status (some item) nodeId krgNodesRemove n =
        some (request krgNodesRemove chosen) ∧
      chosen.members = ((removableNodes status nodeId).take n.toNat).toFinset := by
  let online := addWhere (status.has .hotplugNodeOnline) (krgNodeSetClear item)
  have hvisit : visit (fun st => krgNodeSetNext st.2) (removeCountBody n nodeId) (maxNodes + 1)
      (0, online) = some (passing online.flag maxNodes,
        (passing online.flag maxNodes).foldl (removeCountBody n nodeId) (0, online)) :=
    visit_eq_of_forall (fun st i j hij => removeCountBody_keeps n nodeId st hij)
      (Nat.lt_succ_self maxNodes)
  refine ⟨((passing online.flag maxNodes).foldl (removeCountBody n nodeId) (0, online)).2, ?_, ?_⟩
  · change (if n < krgNodeSetWeight online then Option.bind (visit _ _ _ (0, online)) _ else _) = _
    rw [weight_getOnline, if_pos hn, hvisit]
    rfl
  · ext i
    rw [passing_addWhere_clear, mem_members_keepFirst (passing_nodup _ _), members_addWhere,
      members_clear, Finset.empty_union, Int.sub_zero, List.mem_toFinset, ← mem_passing,
      removableNodes]
    constructor
    · rintro ⟨hmem, htake⟩
      exact htake hmem
    · intro htake
      exact ⟨List.mem_of_mem_filter (List.mem_of_mem_take htake), fun _ => htake⟩

/-- Without enough online nodes nothing is removed. -/
theorem removeCount_refused (status : KrgNodes maxNodes) (item : KrgNodeSet maxNodes) (nodeId : ℤ)
    (krgNodesRemove : KrgNodeSet maxNodes → ℤ) {n : ℤ} (hn : krgNodesNumOnline status ≤ n) :
    removeCount status (some item) nodeId krgNodesRemove n = some refused := by
  change (if n < krgNodeSetWeight (addWhere (status.has .hotplugNodeOnline)
    (krgNodeSetClear item)) then _ else _) = _
  rw [weight_getOnline, if_neg (by omega)]

/-- The request for some nodes is made when there are any. -/
theorem request_eq (call : KrgNodeSet maxNodes → ℤ) (chosen : KrgNodeSet maxNodes) :
    request call chosen =
      if 0 < (chosen.members.card : ℤ) then ⟨call chosen, [chosen]⟩ else ⟨0, []⟩ := by
  rw [request, weight_eq]

/-- The count mode refuses to remove as many nodes as are online or more. Any smaller number of
nodes is removed in one call, and they are the first online nodes other than the current one. -/
theorem nodesRemove_count (status : KrgNodes maxNodes) (item : KrgNodeSet maxNodes) (nodeId : ℤ)
    (krgNodesRemove : KrgNodeSet maxNodes → ℤ) (nodeSet : Option (KrgNodeSet maxNodes)) (n : ℕ) :
    ∃ o, nodesRemove (some status) (some item) nodeId krgNodesRemove nodeSet n .nodesModeCount =
        some o ∧
      ((status.withStatus .hotplugNodeOnline).card ≤ n → o = ⟨-1, []⟩) ∧
      (n < (status.withStatus .hotplugNodeOnline).card → ∃ chosen : KrgNodeSet maxNodes,
        chosen.members = ((removableNodes status nodeId).take n).toFinset ∧
        chosen.members.card = n ∧
        o = if 0 < n then ⟨krgNodesRemove chosen, [chosen]⟩ else ⟨0, []⟩) := by
  have honline := numOnline_eq status
  by_cases hn : (n : ℤ) < krgNodesNumOnline status
  · obtain ⟨chosen, hremove, hmembers⟩ := removeCount_eq status item nodeId krgNodesRemove hn
    have hcard := card_take_removableNodes nodeId (Int.natCast_nonneg n) hn
    rw [Int.toNat_natCast] at hmembers hcard
    rw [← hmembers] at hcard
    refine ⟨_, hremove, fun hle => by omega, fun _ => ⟨chosen, hmembers, by omega, ?_⟩⟩
    rw [request_eq, hcard]
    simp only [Int.natCast_pos]
  · exact ⟨_, removeCount_refused status item nodeId krgNodesRemove (by omega), fun _ => rfl,
      fun hlt => by omega⟩

/-- The total mode is the count mode for the difference, when that does not overflow. -/
theorem nodesRemove_total_eq_some_iff {status : KrgNodes maxNodes} {item : KrgNodeSet maxNodes}
    {nodeId n : ℤ} {krgNodesRemove : KrgNodeSet maxNodes → ℤ}
    {nodeSet : Option (KrgNodeSet maxNodes)} {o : Outcome maxNodes} :
    nodesRemove (some status) (some item) nodeId krgNodesRemove nodeSet n .nodesModeTotal =
        some o ↔
      (-2147483648 ≤ krgNodesNumOnline status - n ∧ krgNodesNumOnline status - n ≤ 2147483647) ∧
        removeCount status (some item) nodeId krgNodesRemove (krgNodesNumOnline status - n) =
          some o := by
  change (subInt _ n).bind _ = _ ↔ _
  rw [Option.bind_eq_some_iff]
  constructor
  · rintro ⟨d, hsub, hremove⟩
    obtain ⟨hrange, rfl⟩ := subInt_eq_some_iff.mp hsub
    exact ⟨hrange, hremove⟩
  · rintro ⟨hrange, hremove⟩
    exact ⟨_, subInt_eq_some_iff.mpr ⟨hrange, rfl⟩, hremove⟩

/-- The number of nodes that a request asks to remove. -/
@[simp]
theorem removed_request (call : KrgNodeSet maxNodes → ℤ) (chosen : KrgNodeSet maxNodes) :
    (request call chosen).removed = chosen.members.card := by
  rw [request_eq]
  split
  · simp [Outcome.removed]
  · simp only [Outcome.removed, List.foldl_nil]
    omega

/-- The total mode leaves the given number of nodes, or refuses, exactly when that number is at
most the number of online nodes and so large that the difference does not overflow. For a larger
total the difference is negative, and the command succeeds without having removed a node. -/
theorem nodesRemove_total_iff (status : KrgNodes maxNodes) (item : KrgNodeSet maxNodes)
    (nodeId : ℤ) (krgNodesRemove : KrgNodeSet maxNodes → ℤ)
    (nodeSet : Option (KrgNodeSet maxNodes)) (n : ℤ) :
    (∃ o, nodesRemove (some status) (some item) nodeId krgNodesRemove nodeSet n .nodesModeTotal =
        some o ∧
      (o.ret ≠ -1 → ((status.withStatus .hotplugNodeOnline).card : ℤ) - o.removed = n) ∧
      ((∀ removed ⊆ (status.withStatus .hotplugNodeOnline).erase nodeId,
        ((status.withStatus .hotplugNodeOnline).card : ℤ) - removed.card ≠ n) → o = ⟨-1, []⟩)) ↔
      ((status.withStatus .hotplugNodeOnline).card : ℤ) - 2147483647 ≤ n ∧
        n ≤ (status.withStatus .hotplugNodeOnline).card := by
  simp only [nodesRemove_total_eq_some_iff, ← numOnline_eq]
  by_cases hpos : 0 < n
  · have hlt : krgNodesNumOnline status - n < krgNodesNumOnline status := by omega
    obtain ⟨chosen, hremove, hmembers⟩ := removeCount_eq status item nodeId krgNodesRemove hlt
    simp only [hremove, Option.some.injEq]
    constructor
    · rintro ⟨o, ⟨hrange, rfl⟩, htotal, -⟩
      refine ⟨by omega, ?_⟩
      by_contra hlarge
      have hnone : chosen.members = ∅ := by
        rw [hmembers, Int.toNat_of_nonpos (by omega)]
        rfl
      rw [request_eq, hnone] at htotal
      have hsame := htotal (by simp)
      simp [Outcome.removed] at hsame
      omega
    · rintro ⟨hlower, hle⟩
      have hcard := card_take_removableNodes nodeId (n := krgNodesNumOnline status - n)
        (by omega) hlt
      rw [← hmembers] at hcard
      have hleft : krgNodesNumOnline status - chosen.members.card = n := by omega
      refine ⟨_, ⟨by omega, rfl⟩, fun _ => by rw [removed_request, hleft], fun hnone => ?_⟩
      refine absurd hleft (hnone chosen.members fun i hi => ?_)
      rw [hmembers, List.mem_toFinset] at hi
      obtain ⟨hpassing, hne⟩ := List.mem_filter.mp (List.mem_of_mem_take hi)
      exact Finset.mem_erase.mpr ⟨of_decide_eq_true hne, mem_passing.mp hpassing⟩
  · have honline : 0 ≤ krgNodesNumOnline status := by
      rw [numOnline_eq]
      omega
    rw [removeCount_refused status item nodeId krgNodesRemove (by omega)]
    simp only [Option.some.injEq]
    constructor
    · rintro ⟨o, ⟨hrange, -⟩, -⟩
      omega
    · rintro ⟨hlower, hle⟩
      exact ⟨refused, ⟨by omega, rfl⟩, fun hret => absurd rfl hret, fun _ => rfl⟩

/-- A total above the number of online nodes is no failure, and the least one overflows. -/
theorem nodesRemove_total_large :
    ((⟨#v[3]⟩ : KrgNodes 1).withStatus .hotplugNodeOnline).card = 1 ∧
      nodesRemove (some (⟨#v[3]⟩ : KrgNodes 1)) (some ⟨0, #v[0]⟩) 0 (fun _ => 0) none 2
        .nodesModeTotal = some ⟨0, []⟩ ∧
      nodesRemove (some (⟨#v[3]⟩ : KrgNodes 1)) (some ⟨0, #v[0]⟩) 0 (fun _ => 0) none (-2147483648)
        .nodesModeTotal = none :=
  ⟨by decide, by decide, by decide⟩

end Kerrighed.Krgadm
