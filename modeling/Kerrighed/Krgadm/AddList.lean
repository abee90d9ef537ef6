import Kerrighed.Krgadm.AddCount
import Kerrighed.Krgadm.Clients

/-!
# Adding listed nodes

The list mode drops the requested nodes that are online in the first status, and then polls until
all nodes left are present in one answer. The set it hands over is the one it has waited for.

The nodes that are online are dropped once, before the wait. A node that comes online during the
wait, by the hand of another client, is no longer present, and the wait goes on for it. The second
half of the module says exactly when the wait ends although such nodes exist.
-/

namespace Kerrighed.Krgadm

open Kerrighed.Common Kerrighed.Hotplug

variable {maxNodes : ℕ}

/-- The nodes that the list mode waits for: those requested that are not online at first. -/
def awaited (requested : KrgNodeSet maxNodes) (first : KrgNodes maxNodes) : Finset ℤ :=
  requested.members \ first.withStatus .hotplugNodeOnline

/-- The body of a turn of the wait finds every node of the set present exactly when the set lies
in the set of present nodes. -/
theorem allPresent_iff {nodeSet : KrgNodeSet maxNodes} {status : KrgNodes maxNodes} :
    allPresent nodeSet status = true ↔
      nodeSet.members ⊆ status.withStatus .hotplugNodePresent := by
  have hrange {bcl : ℕ} (hbcl : bcl < maxNodes) : (0 : ℤ) ≤ bcl ∧ (bcl : ℤ) < maxNodes := by omega
  have hmember {bcl : ℕ} (hbcl : bcl < maxNodes) :
      krgNodeSetContains nodeSet bcl = 0 ↔ (bcl : ℤ) ∉ nodeSet.members := by
    rw [krgNodeSetContains, if_pos (hrange hbcl), mem_members, Int.toNat_natCast]
    simp [hrange hbcl, ← Int8.toInt_inj]
  have hpresent {bcl : ℕ} (hbcl : bcl < maxNodes) :
      krgNodesIsPresent status bcl ≠ 0 ↔ (bcl : ℤ) ∈ status.withStatus .hotplugNodePresent := by
    rw [krgNodesIsPresent, nodesIs_of_range (hrange hbcl)]
    simp
  rw [allPresent, List.all_eq_true]
  constructor
  · intro hall node hnode
    have hnat : ((node.toNat : ℕ) : ℤ) = node := Int.toNat_of_nonneg (mem_members.mp hnode).1.1
    have hlt : node.toNat < maxNodes := by
      have hbound := (mem_members.mp hnode).1
      omega
    have hbcl := of_decide_eq_true (hall node.toNat (List.mem_range.mpr hlt))
    rw [hmember hlt, hpresent hlt, hnat] at hbcl
    exact hbcl.resolve_left fun hnot => hnot hnode
  · intro hsub bcl hbcl
    have hlt := List.mem_range.mp hbcl
    rw [decide_eq_true_eq, hmember hlt, hpresent hlt]
    exact (em ((bcl : ℤ) ∈ nodeSet.members)).symm.imp_right fun hmem => hsub hmem

/-- A poll that ends has read a first part of the answers, the last of them ready and none before
it, or ends with an answer that failed. -/
theorem poll_spec {ready : KrgNodes maxNodes → Bool} {answers polled : Answers maxNodes}
    {last : Option (KrgNodes maxNodes)} (h : poll ready answers = some (polled, last)) :
    polled <+: answers ∧ ∃ before : List (KrgNodes maxNodes),
      polled = before.map some ++ [last] ∧ ∀ s ∈ before, ready s = false := by
  induction answers generalizing polled with
  | nil => simp [poll] at h
  | cons answer rest ih =>
    cases answer with
    | none =>
      obtain ⟨rfl, rfl⟩ := Prod.mk.inj (Option.some.inj h)
      exact ⟨⟨rest, rfl⟩, [], rfl, by simp⟩
    | some first =>
      rw [poll] at h
      split at h
      · obtain ⟨rfl, rfl⟩ := Prod.mk.inj (Option.some.inj h)
        exact ⟨⟨rest, rfl⟩, [], rfl, by simp⟩
      · rename_i hfirst
        obtain ⟨⟨polled', last'⟩, hrest, heq⟩ := Option.map_eq_some_iff.mp h
        obtain ⟨rfl, rfl⟩ := Prod.mk.inj heq
        obtain ⟨hread, before, hpolled, hbefore⟩ := ih hrest
        refine ⟨List.cons_prefix_cons.mpr ⟨rfl, hread⟩, first :: before,
          congrArg (some first :: ·) hpolled, ?_⟩
        exact List.forall_mem_cons.mpr ⟨Bool.eq_false_iff.mpr hfirst, hbefore⟩

/-- The list mode takes the online nodes out of the set, waits for the others and hands them
over. -/
theorem nodesAdd_list_eq (requested : KrgNodeSet maxNodes) (first : KrgNodes maxNodes) :
    ∃ left : KrgNodeSet maxNodes, left.members = awaited requested first ∧
      ∀ (rest : Answers maxNodes) malloc krgNodesAdd n,
        nodesAdd (some first :: rest) malloc krgNodesAdd (some requested) n .nodesModeList =
          (waitForNodes left rest).map fun r =>
            (some first :: r.1, if r.2 = -1 then refused else request krgNodesAdd left) := by
  obtain ⟨left, hvisit, hleft⟩ := visit_dropWhere (fun node => krgNodesIsOnline first node ≠ 0)
    requested (Nat.lt_succ_self maxNodes)
  refine ⟨left, ?_, fun rest malloc krgNodesAdd n => ?_⟩
  · ext node
    rw [hleft, awaited, Finset.mem_sdiff]
    refine and_congr_right fun hnode => ?_
    rw [krgNodesIsOnline, nodesIs_of_range (mem_members.mp hnode).1]
    simp
  · change (visit krgNodeSetNext _ (maxNodes + 1) requested).bind _ = _
    rw [hvisit]
    change (waitForNodes left rest).bind _ = _
    cases waitForNodes left rest <;> rfl

/-- A nonempty set is polled for. -/
theorem waitForNodes_eq {nodeSet : KrgNodeSet maxNodes} (h : nodeSet.members.Nonempty)
    (answers : Answers maxNodes) :
    waitForNodes nodeSet answers =
      (poll (allPresent nodeSet) answers).map fun r => (r.1, if r.2.isSome then 0 else -1) := by
  have hpos := Finset.card_pos.mpr h
  rw [waitForNodes, weight_eq, if_pos (by omega)]

/-- An empty set is not waited for. -/
theorem waitForNodes_of_empty {nodeSet : KrgNodeSet maxNodes} (h : nodeSet.members = ∅)
    (answers : Answers maxNodes) : waitForNodes nodeSet answers = some ([], 0) := by
  rw [waitForNodes, weight_eq, h]
  rfl

/-- A wait that does not fail has read a first part of the answers, of which the last one is the
only one that shows every node of the set present. -/
theorem waitForNodes_spec {nodeSet : KrgNodeSet maxNodes} (hnonempty : nodeSet.members.Nonempty)
    {answers waited : Answers maxNodes} {value : ℤ}
    (hwait : waitForNodes nodeSet answers = some (waited, value)) (hvalue : value ≠ -1) :
    waited <+: answers ∧ ∃ before last, waited = (before ++ [last]).map some ∧
      nodeSet.members ⊆ last.withStatus .hotplugNodePresent ∧
      ∀ s ∈ before, ¬ nodeSet.members ⊆ s.withStatus .hotplugNodePresent := by
  rw [waitForNodes_eq hnonempty] at hwait
  obtain ⟨⟨polled, answer⟩, hpoll, heq⟩ := Option.map_eq_some_iff.mp hwait
  obtain ⟨rfl, rfl⟩ := Prod.mk.inj heq
  obtain ⟨hread, before, hpolled, hbefore⟩ := poll_spec hpoll
  cases answer with
  | none => exact absurd rfl hvalue
  | some last =>
    refine ⟨hread, before, last, ?_, allPresent_iff.mp (poll_some hpoll).1, fun s hs hsub => ?_⟩
    · rw [hpolled, List.map_append, List.map_singleton]
    · exact Bool.eq_false_iff.mp (hbefore s hs) (allPresent_iff.mpr hsub)

/-- The list mode hands over exactly the requested nodes that are not online in the first status,
when there are some, and only after one single answer, the last one it reads, in which all of them
are present; no answer polled before is one. With every requested node online at first it
succeeds at once, without a poll and without a request. -/
theorem nodesAdd_list (requested : KrgNodeSet maxNodes) (malloc : Option (KrgNodeSet maxNodes))
    (krgNodesAdd : KrgNodeSet maxNodes → ℤ) (n : ℤ) :
    (∀ answers polled o r,
      nodesAdd answers malloc krgNodesAdd (some requested) n .nodesModeList = some (polled, o) →
      r ∈ o.requests → ∃ first before last,
        polled = (first :: before ++ [last]).map some ∧ polled <+: answers ∧ o.requests = [r] ∧
        r.members = requested.members \ first.withStatus .hotplugNodeOnline ∧ r.members.Nonempty ∧
        r.members ⊆ last.withStatus .hotplugNodePresent ∧
        ∀ s ∈ before, ¬ r.members ⊆ s.withStatus .hotplugNodePresent) ∧
    ∀ first rest, requested.members ⊆ first.withStatus .hotplugNodeOnline →
      nodesAdd (some first :: rest) malloc krgNodesAdd (some requested) n .nodesModeList =
        some ([some first], ⟨0, []⟩) := by
  constructor
  · intro answers polled o r h hr
    cases answers with
    | nil => simp [nodesAdd] at h
    | cons answer rest =>
      cases answer with
      | none =>
        obtain ⟨-, rfl⟩ := Prod.mk.inj (Option.some.inj h)
        simp [refused] at hr
      | some first =>
        obtain ⟨left, hleft, hlist⟩ := nodesAdd_list_eq requested first
        rw [hlist] at h
        obtain ⟨⟨waited, value⟩, hwait, heq⟩ := Option.map_eq_some_iff.mp h
        obtain ⟨rfl, rfl⟩ := Prod.mk.inj heq
        split at hr
        · simp [refused] at hr
        · rename_i hvalue
          obtain ⟨rfl, hweight⟩ := mem_request.mp hr
          rw [weight_eq] at hweight
          have hnonempty : r.members.Nonempty := Finset.card_pos.mp (by omega)
          obtain ⟨hread, before, last, rfl, hpresent, hbefore⟩ :=
            waitForNodes_spec hnonempty hwait hvalue
          refine ⟨first, before, last, rfl, List.cons_prefix_cons.mpr ⟨rfl, hread⟩, ?_, hleft,
            hnonempty, hpresent, hbefore⟩
          rw [if_neg hvalue, request, weight_eq, if_pos hweight]
  · intro first rest hsub
    obtain ⟨left, hleft, hlist⟩ := nodesAdd_list_eq requested first
    have hempty : left.members = ∅ := hleft.trans (Finset.sdiff_eq_empty_iff_subset.mpr hsub)
    rw [hlist, waitForNodes_of_empty hempty, Option.map_some, if_neg (by simp), request,
      weight_eq, hempty]
    rfl

/-- A poll over answers that do not fail ends exactly when one of them is ready. -/
theorem poll_isSome_iff {ready : KrgNodes maxNodes → Bool} {snapshots : List (KrgNodes maxNodes)} :
    (poll ready (snapshots.map some)).isSome = true ↔ ∃ s ∈ snapshots, ready s = true := by
  induction snapshots with
  | nil => simp [poll]
  | cons first rest ih =>
    rw [List.map_cons, poll]
    by_cases hfirst : ready first = true
    · simp [hfirst]
    · rw [if_neg hfirst, Option.isSome_map, ih]
      simp [hfirst]

/-- The wait of the list mode ends within some answers exactly when the awaited nodes are all
present in one of them. -/
theorem nodesAdd_list_isSome_iff {requested : KrgNodeSet maxNodes} {first : KrgNodes maxNodes}
    (hawaited : (awaited requested first).Nonempty) (snapshots : List (KrgNodes maxNodes))
    (malloc : Option (KrgNodeSet maxNodes)) (krgNodesAdd : KrgNodeSet maxNodes → ℤ) (n : ℤ) :
    (nodesAdd (some first :: snapshots.map some) malloc krgNodesAdd (some requested) n
        .nodesModeList).isSome = true ↔
      ∃ s ∈ snapshots, awaited requested first ⊆ s.withStatus .hotplugNodePresent := by
  obtain ⟨left, hleft, hlist⟩ := nodesAdd_list_eq requested first
  rw [← hleft] at hawaited ⊢
  rw [hlist, Option.isSome_map, waitForNodes_eq hawaited, Option.isSome_map, poll_isSome_iff]
  simp only [allPresent_iff]

/-- Nodes that are present or online are all present exactly when none of them is online. -/
theorem subset_present_iff {nodes : Finset ℤ} {status : KrgNodes maxNodes}
    (h : nodes ⊆ status.withStatus .hotplugNodePresent ∪ status.withStatus .hotplugNodeOnline) :
    nodes ⊆ status.withStatus .hotplugNodePresent ↔
      Disjoint nodes (status.withStatus .hotplugNodeOnline) := by
  constructor
  · intro hsub
    exact (withStatus_disjoint status (by decide)).mono_left hsub
  · intro hdisjoint node hnode
    exact (Finset.mem_union.mp (h hnode)).resolve_right (Finset.disjoint_left.mp hdisjoint hnode)

/-- With every awaited node present or online in the last answer, the wait of the list mode ends by
that answer exactly when none of them is online in it, or an earlier answer showed them all
present: a node that comes online during the wait is waited for in vain. -/
theorem nodesAdd_list_ends_iff (requested : KrgNodeSet maxNodes) (first : KrgNodes maxNodes)
    (before : List (KrgNodes maxNodes)) (last : KrgNodes maxNodes)
    (malloc : Option (KrgNodeSet maxNodes)) (krgNodesAdd : KrgNodeSet maxNodes → ℤ) (n : ℤ)
    (hawaited : (awaited requested first).Nonempty)
    (hlast : awaited requested first ⊆
      last.withStatus .hotplugNodePresent ∪ last.withStatus .hotplugNodeOnline) :
    (nodesAdd (some first :: (before ++ [last]).map some) malloc krgNodesAdd (some requested) n
        .nodesModeList).isSome = true ↔
      Disjoint (awaited requested first) (last.withStatus .hotplugNodeOnline) ∨
        ∃ s ∈ before, awaited requested first ⊆ s.withStatus .hotplugNodePresent := by
  rw [nodesAdd_list_isSome_iff hawaited, ← subset_present_iff hlast]
  constructor
  · rintro ⟨s, hs, hsub⟩
    rcases List.mem_append.mp hs with hbefore | hs
    · exact .inr ⟨s, hbefore, hsub⟩
    · exact .inl (List.mem_singleton.mp hs ▸ hsub)
  · rintro (hsub | ⟨s, hs, hsub⟩)
    · exact ⟨last, by simp, hsub⟩
    · exact ⟨s, List.mem_append_left _ hs, hsub⟩

/-- Node 0 online and node 1 present, in a cluster of two nodes. -/
def secondPresent : KrgNodes 2 := ⟨#v[3, 2]⟩

/-- Both nodes online. -/
def bothOnline : KrgNodes 2 := ⟨#v[3, 3]⟩

/-- The wait for node 1 ends with an answer that shows it present. -/
theorem present_node_ends :
    (nodesAdd (some secondPresent :: ([] ++ [secondPresent]).map some) none (fun _ => 0)
        (some (nodeSetOf 2 [0, 1])) 0 .nodesModeList).isSome = true ↔
      Disjoint (awaited (nodeSetOf 2 [0, 1]) secondPresent)
          (secondPresent.withStatus .hotplugNodeOnline) ∨
        ∃ s ∈ ([] : List (KrgNodes 2)),
          awaited (nodeSetOf 2 [0, 1]) secondPresent ⊆ s.withStatus .hotplugNodePresent :=
  nodesAdd_list_ends_iff (nodeSetOf 2 [0, 1]) secondPresent [] secondPresent none (fun _ => 0) 0
    (by decide) (by decide)

/-- Another client puts node 1 online before the first poll: the wait for it goes on although it
is in the cluster, however many answers show it there. -/
theorem online_node_blocks :
    awaited (nodeSetOf 2 [0, 1]) secondPresent = {1} ∧
      awaited (nodeSetOf 2 [0, 1]) secondPresent ⊆
        bothOnline.withStatus .hotplugNodePresent ∪ bothOnline.withStatus .hotplugNodeOnline ∧
      ∀ k, nodesAdd (some secondPresent :: (List.replicate (k + 1) bothOnline).map some) none
        (fun _ => 0) (some (nodeSetOf 2 [0, 1])) 0 .nodesModeList = none := by
  refine ⟨by decide, by decide, fun k => ?_⟩
  rw [← Option.not_isSome_iff_eq_none, nodesAdd_list_isSome_iff (by decide)]
  rintro ⟨s, hs, hsub⟩
  rw [List.eq_of_mem_replicate hs] at hsub
  exact absurd hsub (by decide)

end Kerrighed.Krgadm
