import Kerrighed.Krgadm.Add

/-!
# Adding a number of nodes

The count mode polls the status until enough nodes are present, and then selects the first of
them without testing for the end of the vector. The selection never gets there: the poll ends
only when the count over the same vector says that there are enough.
-/

namespace Kerrighed.Krgadm

open Kerrighed.Common Kerrighed.Hotplug

variable {maxNodes : ℕ}

/-- The loop reads the answers up to the first that is ready. -/
theorem poll_eq {ready : KrgNodes maxNodes → Bool} {before : List (KrgNodes maxNodes)}
    {status : KrgNodes maxNodes} (hbefore : ∀ s ∈ before, ready s = false)
    (hstatus : ready status = true) (after : Answers maxNodes) :
    poll ready (before.map some ++ some status :: after) =
      some ((before ++ [status]).map some, some status) := by
  induction before with
  | nil =>
    change (if ready status = true then _ else _) = _
    rw [if_pos hstatus]
    rfl
  | cons first rest ih =>
    obtain ⟨hfirst, hrest⟩ := List.forall_mem_cons.mp hbefore
    rw [List.map_cons, List.cons_append, poll, hfirst, ih hrest]
    rfl

/-- The loop goes on as long as no answer is ready. -/
theorem poll_eq_none {ready : KrgNodes maxNodes → Bool} {snapshots : List (KrgNodes maxNodes)}
    (h : ∀ s ∈ snapshots, ready s = false) : poll ready (snapshots.map some) = none := by
  induction snapshots with
  | nil => rfl
  | cons first rest ih =>
    obtain ⟨hfirst, hrest⟩ := List.forall_mem_cons.mp h
    rw [List.map_cons, poll, hfirst, ih hrest]
    rfl

/-- The selection loop stands on a present node after each of its turns. -/
theorem iterate_nextPresent {status : KrgNodes maxNodes} {k : ℕ}
    (hk : k < (presentNodes status).length) :
    (krgNodesNextPresent status)^[k + 1] (-1) ∈ status.withStatus .hotplugNodePresent := by
  have hcur := (iterate_nextIndex (status.has .hotplugNodePresent) hk).1
  change (nextIndex (status.has .hotplugNodePresent) maxNodes)^[k + 1] (-1) ∈ _
  rw [hcur]
  exact mem_passing.mp (List.getElem_mem hk)

/-- The test at the end of a turn of the polling loop. -/
def enough (n : ℤ) (status : KrgNodes maxNodes) : Bool := ¬ krgNodesNumPresent status < n

/-- A number of nodes that the cluster can have is waited for. -/
theorem waitForNodesCount_eq {n : ℤ} (hn : 1 ≤ n ∧ n ≤ maxNodes) (nodeSet : KrgNodeSet maxNodes)
    (answers : Answers maxNodes) :
    waitForNodesCount n (some nodeSet) answers = (poll (enough n) answers).map fun r =>
      match r.2 with
      | none => (r.1, -1, some nodeSet)
      | some status => (r.1, 0, some (selectPresent status n.toNat (-1) nodeSet)) := by
  rw [waitForNodesCount, if_pos (by omega), if_neg (by omega)]
  change (poll (enough n) answers).bind _ = _
  obtain h | ⟨⟨polled, last⟩, h⟩ := Option.eq_none_or_eq_some (poll (enough n) answers)
  · rw [h]
    rfl
  · rw [h]
    cases last with
    | none => rfl
    | some status => rfl

/-- More nodes than the cluster can have are refused, whatever the allocation gives. -/
theorem addCount_of_gt {n : ℤ} (hn : n > maxNodes) (malloc : Option (KrgNodeSet maxNodes))
    (krgNodesAdd : KrgNodeSet maxNodes → ℤ) (answers : Answers maxNodes) :
    addCount malloc krgNodesAdd n answers = some ([], refused) := by
  rw [addCount, waitForNodesCount, if_pos (by omega), if_pos (.inr hn)]
  rfl

/-- There is nothing to do for no nodes. -/
theorem addCount_of_le {n : ℤ} (hn : n ≤ 0) (item : KrgNodeSet maxNodes)
    (krgNodesAdd : KrgNodeSet maxNodes → ℤ) (answers : Answers maxNodes) :
    addCount (some item) krgNodesAdd n answers = some ([], ⟨0, []⟩) := by
  rw [addCount, waitForNodesCount_of_le _ _ hn]
  change some (_, request krgNodesAdd (krgNodeSetClear item)) = _
  rw [request, weight_eq, members_clear]
  rfl

/-- The present nodes as a set. -/
theorem toFinset_presentNodes (status : KrgNodes maxNodes) :
    (presentNodes status).toFinset = status.withStatus .hotplugNodePresent := by
  ext i
  rw [List.mem_toFinset, presentNodes, mem_passing, KrgNodes.withStatus]

/-- The mode waits for present nodes and hands the lowest of them over. -/
theorem addCount_eq {n : ℤ} (hn : 1 ≤ n ∧ n ≤ maxNodes) (item : KrgNodeSet maxNodes)
    (krgNodesAdd : KrgNodeSet maxNodes → ℤ) {before : List (KrgNodes maxNodes)}
    {status : KrgNodes maxNodes} (hbefore : ∀ s ∈ before, krgNodesNumPresent s < n)
    (hstatus : n ≤ krgNodesNumPresent status) (after : Answers maxNodes) :
    ∃ chosen, addCount (some item) krgNodesAdd n (before.map some ++ some status :: after) =
        some ((before ++ [status]).map some, ⟨krgNodesAdd chosen, [chosen]⟩) ∧
      Lowest n (status.withStatus .hotplugNodePresent) chosen.members := by
  have hlength : n ≤ (presentNodes status).length := by
    rwa [presentNodes, ← nodesNum_eq_length]
  have hwaiting : ∀ s ∈ before, enough n s = false := fun s hs => by
    simpa [enough] using hbefore s hs
  have hready : enough n status = true := by simpa [enough] using hstatus
  have hmembers : (selectPresent status n.toNat (-1) (krgNodeSetClear item)).members =
      (krgNodeSetClear item).members ∪ ((presentNodes status).take n.toNat).toFinset :=
    members_selectPresent status _ (Int.toNat_le.mpr hlength)
  rw [members_clear, Finset.empty_union] at hmembers
  have hlowest := lowest_take (passing_pairwise (status.has .hotplugNodePresent) maxNodes)
    (by omega) hlength
  rw [← presentNodes, toFinset_presentNodes, ← hmembers] at hlowest
  refine ⟨_, ?_, hlowest⟩
  change (waitForNodesCount n (some (krgNodeSetClear item)) _).bind _ = _
  rw [waitForNodesCount_eq hn, poll_eq hwaiting hready]
  change some (_, request krgNodesAdd _) = _
  rw [request, weight_eq, hlowest.card, if_pos (by omega)]

/-- The mode waits as long as no answer has enough present nodes. -/
theorem addCount_eq_none {n : ℤ} (hn : 1 ≤ n ∧ n ≤ maxNodes) (item : KrgNodeSet maxNodes)
    (krgNodesAdd : KrgNodeSet maxNodes → ℤ) {snapshots : List (KrgNodes maxNodes)}
    (h : ∀ s ∈ snapshots, krgNodesNumPresent s < n) :
    addCount (some item) krgNodesAdd n (snapshots.map some) = none := by
  have hwaiting : ∀ s ∈ snapshots, enough n s = false := fun s hs => by
    simpa [enough] using h s hs
  change (waitForNodesCount n (some (krgNodeSetClear item)) _).bind _ = _
  rw [waitForNodesCount_eq hn, poll_eq_none hwaiting]
  rfl

/-- The count mode waits for the first answer in which at least `n` nodes are present, and asks to
add the `n` lowest nodes present in that same answer, on each of which the selection has stood. It
refuses to add more nodes than the cluster can have, and has nothing to do for none. -/
theorem nodesAdd_count (first : KrgNodes maxNodes) (item : KrgNodeSet maxNodes)
    (krgNodesAdd : KrgNodeSet maxNodes → ℤ) (nodeSet : Option (KrgNodeSet maxNodes)) (n : ℤ) :
    (1 ≤ n ∧ n ≤ maxNodes →
      (∀ before status after,
        (∀ s ∈ before, ((s.withStatus .hotplugNodePresent).card : ℤ) < n) →
        n ≤ (status.withStatus .hotplugNodePresent).card → ∃ chosen,
          nodesAdd (some first :: (before.map some ++ some status :: after)) (some item) krgNodesAdd
              nodeSet n .nodesModeCount =
            some (some first :: (before ++ [status]).map some, ⟨krgNodesAdd chosen, [chosen]⟩) ∧
          Lowest n (status.withStatus .hotplugNodePresent) chosen.members ∧
          ∀ k < n.toNat, (krgNodesNextPresent status)^[k + 1] (-1) ∈
            status.withStatus .hotplugNodePresent) ∧
      ∀ snapshots : List (KrgNodes maxNodes),
        (∀ s ∈ snapshots, ((s.withStatus .hotplugNodePresent).card : ℤ) < n) →
        nodesAdd (some first :: snapshots.map some) (some item) krgNodesAdd nodeSet n
          .nodesModeCount = none) ∧
    ∀ answers,
      (n > maxNodes → ∀ malloc, nodesAdd (some first :: answers) malloc krgNodesAdd nodeSet n
        .nodesModeCount = some ([some first], ⟨-1, []⟩)) ∧
      (n ≤ 0 → nodesAdd (some first :: answers) (some item) krgNodesAdd nodeSet n
        .nodesModeCount = some ([some first], ⟨0, []⟩)) := by
  have hmode (malloc : Option (KrgNodeSet maxNodes)) (answers : Answers maxNodes) :
      nodesAdd (some first :: answers) malloc krgNodesAdd nodeSet n .nodesModeCount =
        (addCount malloc krgNodesAdd n answers).bind fun r => some (some first :: r.1, r.2) :=
    rfl
  simp only [hmode, ← nodesNum_eq]
  refine ⟨fun hn => ⟨fun before status after hbefore hstatus => ?_, fun snapshots h => ?_⟩,
    fun answers => ⟨fun hn malloc => ?_, fun hn => ?_⟩⟩
  · obtain ⟨chosen, hadd, hlowest⟩ := addCount_eq hn item krgNodesAdd hbefore hstatus after
    refine ⟨chosen, by rw [hadd]; rfl, hlowest, fun k hk => iterate_nextPresent ?_⟩
    rw [nodesNum_eq_length] at hstatus
    rw [presentNodes]
    omega
  · rw [addCount_eq_none hn item krgNodesAdd h]
    rfl
  · rw [addCount_of_gt hn]
    rfl
  · rw [addCount_of_le hn]
    rfl

/-- One node of three is wanted: the answer without a present node is passed over, and node 0 of
the two present in the next one is asked for. -/
theorem nodesAdd_count_one :
    ∃ chosen : KrgNodeSet 3,
      nodesAdd [some ⟨#v[1, 3, 1]⟩, some ⟨#v[1, 3, 1]⟩, some ⟨#v[2, 3, 2]⟩] (some ⟨7, #v[1, 1, 1]⟩)
          (fun _ => 0) none 1 .nodesModeCount =
        some ([some ⟨#v[1, 3, 1]⟩, some ⟨#v[1, 3, 1]⟩, some ⟨#v[2, 3, 2]⟩], ⟨0, [chosen]⟩) ∧
      Lowest 1 {0, 2} chosen.members := by
  obtain ⟨chosen, hadd, hlowest, -⟩ := ((nodesAdd_count (⟨#v[1, 3, 1]⟩ : KrgNodes 3)
    ⟨7, #v[1, 1, 1]⟩ (fun _ => 0) none 1).1 (by decide)).1 [⟨#v[1, 3, 1]⟩] ⟨#v[2, 3, 2]⟩ []
    (by decide) (by decide)
  exact ⟨chosen, hadd, by
    rwa [show (⟨#v[2, 3, 2]⟩ : KrgNodes 3).withStatus .hotplugNodePresent = {0, 2} by decide]
      at hlowest⟩

end Kerrighed.Krgadm
