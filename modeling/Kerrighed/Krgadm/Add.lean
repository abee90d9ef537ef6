import Kerrighed.Krgadm.Remove
import Kerrighed.Common.Runs

/-!
# Adding nodes to the cluster

`nodes add` asks for the cluster status, decides how many or which nodes it needs, and polls
the status again until those nodes are present. The functions below are `nodes_add` and its
two waiting loops over the answers of the successive `krg_nodes_status` calls.

The total mode computes how many nodes are missing from the first answer and chooses the
nodes from the last one. It reaches its total exactly when as many nodes are online in the
one as in the other.
-/

namespace Kerrighed.Krgadm

open Kerrighed.Common Kerrighed.Hotplug

variable {maxNodes : ℕ}

/-- The answers of `krg_nodes_status`, in order, with `none` for a failure. -/
abbrev Answers (maxNodes : ℕ) := List (Option (KrgNodes maxNodes))

/-- A polling loop reads answers up to the first that is ready or missing: the answers read
and the last one. It has no result when the answers end before. -/
def poll (ready : KrgNodes maxNodes → Bool) :
    Answers maxNodes → Option (Answers maxNodes × Option (KrgNodes maxNodes))
  | [] => none
  | none :: _ => some ([none], none)
  | some status :: rest =>
    if ready status then some ([some status], some status)
    else (poll ready rest).map fun r => (some status :: r.1, r.2)

/-- The loop that adds `count` present nodes, from the one behind `cur` on. -/
def selectPresent (status : KrgNodes maxNodes) : ℕ → ℤ → KrgNodeSet maxNodes → KrgNodeSet maxNodes
  | 0, _, nodeSet => nodeSet
  | count + 1, cur, nodeSet =>
    let cur := krgNodesNextPresent status cur
    selectPresent status count cur (krgNodeSetAdd nodeSet cur).2

/-- Wait for `i` present nodes and add them to the set: the answers read, the value returned
and the set. It has no result where nodes would be added to a set that is a null pointer. -/
def waitForNodesCount (i : ℤ) (nodeSet : Option (KrgNodeSet maxNodes)) (answers : Answers maxNodes) :
    Option (Answers maxNodes × ℤ × Option (KrgNodeSet maxNodes)) :=
  if i > 0 then
    if i < 1 ∨ i > maxNodes then some ([], -1, nodeSet)
    else do
      let (polled, last) ← poll (fun status => ¬ krgNodesNumPresent status < i) answers
      match last with
      | none => some (polled, -1, nodeSet)
      | some status => some (polled, 0, some (selectPresent status i.toNat (-1) (← nodeSet)))
  else some ([], 0, nodeSet)

/-- The nodes of the set are all present. -/
def allPresent (nodeSet : KrgNodeSet maxNodes) (status : KrgNodes maxNodes) : Bool :=
  (List.range maxNodes).all fun bcl =>
    krgNodeSetContains nodeSet bcl = 0 ∨ krgNodesIsPresent status bcl ≠ 0

/-- Wait for the nodes of the set to be present: the answers read and the value returned. -/
def waitForNodes (nodeSet : KrgNodeSet maxNodes) (answers : Answers maxNodes) :
    Option (Answers maxNodes × ℤ) :=
  if krgNodeSetWeight nodeSet > 0 then
    (poll (allPresent nodeSet) answers).map fun r => (r.1, if r.2.isSome then 0 else -1)
  else some ([], 0)

/-- Wait for `n` present nodes and hand them over. The set is created before the wait and first looked
at behind it. -/
def addCount (malloc : Option (KrgNodeSet maxNodes)) (krgNodesAdd : KrgNodeSet maxNodes → ℤ)
    (n : ℤ) (answers : Answers maxNodes) : Option (Answers maxNodes × Outcome maxNodes) := do
  let (polled, r, nodeSet) ← waitForNodesCount n (krgNodeSetCreate malloc) answers
  if r = -1 then some (polled, refused) else some (polled, request krgNodesAdd (← nodeSet))

/-- The command, with what `krg_nodes_status`, `malloc` and `krg_nodes_add` answer: the answers
of `krg_nodes_status` it has read and its outcome. It has no result while it waits for more
answers, and where the program reads through a null pointer or its subtraction overflows. -/
def nodesAdd (answers : Answers maxNodes) (malloc : Option (KrgNodeSet maxNodes))
    (krgNodesAdd : KrgNodeSet maxNodes → ℤ) (nodeSet : Option (KrgNodeSet maxNodes)) (n : ℤ)
    (mode : NodesMode) : Option (Answers maxNodes × Outcome maxNodes) :=
  match answers with
  | [] => none
  | none :: _ => some ([none], refused)
  | some status :: rest =>
    match mode with
    | .nodesModeAll =>
      match krgNodesGetPresent malloc status with
      | none => some ([some status], refused)
      | some nodeSet => some ([some status], request krgNodesAdd nodeSet)
    | .nodesModeList => do
      let (_, nodeSet) ← visit krgNodeSetNext
        (dropWhere fun node => krgNodesIsOnline status node ≠ 0) (maxNodes + 1) (← nodeSet)
      let (polled, r) ← waitForNodes nodeSet rest
      some (some status :: polled, if r = -1 then refused else request krgNodesAdd nodeSet)
    | .nodesModeTotal => do
      let (polled, o) ← addCount malloc krgNodesAdd (← subInt n (krgNodesNumOnline status)) rest
      some (some status :: polled, o)
    | .nodesModeCount => do
      let (polled, o) ← addCount malloc krgNodesAdd n rest
      some (some status :: polled, o)
    | .nodesModeUnset => some ([some status], refused)

/-- A poll that succeeds ends with a ready answer, the last one it has read. -/
theorem poll_some {ready : KrgNodes maxNodes → Bool} {answers polled : Answers maxNodes}
    {status : KrgNodes maxNodes} (h : poll ready answers = some (polled, some status)) :
    ready status = true ∧ polled.getLast? = some (some status) := by
  induction answers generalizing polled with
  | nil => simp [poll] at h
  | cons answer rest ih =>
    cases answer with
    | none => simp [poll] at h
    | some first =>
      rw [poll] at h
      split at h
      · rename_i hready
        simp only [Option.some.injEq, Prod.mk.injEq] at h
        obtain ⟨rfl, rfl⟩ := h
        exact ⟨hready, rfl⟩
      · obtain ⟨⟨polled', last⟩, hrest, heq⟩ := Option.map_eq_some_iff.mp h
        simp only [Prod.mk.injEq] at heq
        obtain ⟨rfl, rfl⟩ := heq
        obtain ⟨hready, hlast⟩ := ih hrest
        refine ⟨hready, ?_⟩
        rw [List.getLast?_cons, hlast]
        rfl

/-- The selection adds the first nodes of the walk over the present nodes. -/
theorem members_selectPresent (status : KrgNodes maxNodes) {count : ℕ} {cur : ℤ}
    (nodeSet : KrgNodeSet maxNodes)
    (hcount : count ≤ (passingFrom (status.has .hotplugNodePresent) maxNodes (cur + 1).toNat).length) :
    (selectPresent status count cur nodeSet).members = nodeSet.members ∪
      ((passingFrom (status.has .hotplugNodePresent) maxNodes (cur + 1).toNat).take count).toFinset := by
  induction count generalizing cur nodeSet with
  | zero => simp [selectPresent]
  | succ count ih =>
    cases hleft : passingFrom (status.has .hotplugNodePresent) maxNodes (cur + 1).toNat with
    | nil => simp [hleft] at hcount
    | cons i rest =>
      have hnext : krgNodesNextPresent status cur = i := by
        rw [krgNodesNextPresent, krgNodesNext, nextIndex, scanFrom_eq, hleft, List.headD_cons]
      have hrest := passingFrom_tail hleft
      have hrange : 0 ≤ i ∧ i < maxNodes := by
        have hmem : i ∈ passingFrom (status.has .hotplugNodePresent) maxNodes (cur + 1).toNat := by
          rw [hleft]
          exact List.mem_cons_self
        exact (mem_indexSet.mp (mem_passingFrom.mp hmem).2).1
      rw [hleft, List.length_cons] at hcount
      rw [selectPresent, hnext, ih _ (by rw [hrest]; omega), hrest, members_add, if_pos hrange,
        List.take_succ_cons, List.toFinset_cons, Finset.insert_union, Finset.union_insert]

/-- The present nodes of a status, in increasing order. -/
def presentNodes (status : KrgNodes maxNodes) : List ℤ :=
  passing (status.has .hotplugNodePresent) maxNodes

/-- The nodes waited for are the first present nodes of the last answer read. -/
theorem waitForNodesCount_spec {i r : ℤ} {nodeSet chosen : Option (KrgNodeSet maxNodes)}
    {answers polled : Answers maxNodes}
    (h : waitForNodesCount i nodeSet answers = some (polled, r, chosen)) (hr : r ≠ -1) (hi : 0 < i) :
    ∃ before after status, nodeSet = some before ∧ chosen = some after ∧
      polled.getLast? = some (some status) ∧ i ≤ (presentNodes status).length ∧
      after.members = before.members ∪ ((presentNodes status).take i.toNat).toFinset := by
  rw [waitForNodesCount, if_pos hi] at h
  split at h
  · simp only [Option.some.injEq, Prod.mk.injEq] at h
    exact absurd h.2.1.symm hr
  · obtain ⟨⟨polled', last⟩, hpoll, h⟩ := Option.bind_eq_some_iff.mp h
    cases last with
    | none =>
      simp only [Option.some.injEq, Prod.mk.injEq] at h
      exact absurd h.2.1.symm hr
    | some status =>
      obtain ⟨before, hbefore, h⟩ := Option.bind_eq_some_iff.mp h
      simp only [Option.some.injEq, Prod.mk.injEq] at h
      obtain ⟨rfl, -, rfl⟩ := h
      obtain ⟨hready, hlast⟩ := poll_some hpoll
      have hlength : i ≤ (presentNodes status).length := by
        rw [presentNodes, ← nodesNum_eq_length]
        simpa [krgNodesNumPresent] using hready
      exact ⟨before, _, status, hbefore, rfl, hlast, hlength, members_selectPresent status before
        (by rw [presentNodes, passing] at hlength; exact Int.toNat_le.mpr hlength)⟩

/-- No node is chosen when none is to be waited for. -/
theorem waitForNodesCount_of_le {i : ℤ} (nodeSet : Option (KrgNodeSet maxNodes))
    (answers : Answers maxNodes) (hi : i ≤ 0) :
    waitForNodesCount i nodeSet answers = some ([], 0, nodeSet) :=
  if_neg (by omega)

/-- The first present nodes are as many as asked for when there are enough. -/
theorem card_take_presentNodes {status : KrgNodes maxNodes} {n : ℤ} (hn : 0 ≤ n)
    (hlength : n ≤ (presentNodes status).length) :
    (((presentNodes status).take n.toNat).toFinset.card : ℤ) = n :=
  card_take_toFinset (passing_nodup _ _) hn hlength

/-- The end of the counting modes: a refusal, or a request behind a wait that has succeeded. -/
theorem addCount_ok {malloc : Option (KrgNodeSet maxNodes)}
    {krgNodesAdd : KrgNodeSet maxNodes → ℤ} {n : ℤ} {answers polled : Answers maxNodes}
    {o : Outcome maxNodes} (h : addCount malloc krgNodesAdd n answers = some (polled, o)) :
    ∃ r nodeSet, waitForNodesCount n (krgNodeSetCreate malloc) answers = some (polled, r, nodeSet) ∧
      (r = -1 ∧ o = refused ∨
        r ≠ -1 ∧ ∃ chosen, nodeSet = some chosen ∧ o = request krgNodesAdd chosen) := by
  rw [addCount] at h
  obtain ⟨⟨polled', r, nodeSet⟩, hwait, h⟩ := Option.bind_eq_some_iff.mp h
  dsimp only at h
  split at h
  · rename_i hr
    obtain ⟨rfl, rfl⟩ := Prod.mk.inj (Option.some.inj h)
    exact ⟨r, nodeSet, hwait, .inl ⟨hr, rfl⟩⟩
  · rename_i hr
    obtain ⟨chosen, hchosen, h⟩ := Option.bind_eq_some_iff.mp h
    obtain ⟨rfl, rfl⟩ := Prod.mk.inj (Option.some.inj h)
    exact ⟨r, nodeSet, hwait, .inr ⟨hr, chosen, hchosen, rfl⟩⟩

/-- A request of the counting modes asks for the first `n` present nodes of the last answer. -/
theorem addCount_request {malloc : Option (KrgNodeSet maxNodes)}
    {krgNodesAdd : KrgNodeSet maxNodes → ℤ} {n : ℤ} {answers polled : Answers maxNodes}
    {o : Outcome maxNodes} (h : addCount malloc krgNodesAdd n answers = some (polled, o))
    {r : KrgNodeSet maxNodes} (hr : r ∈ o.requests) :
    ∃ status, polled.getLast? = some (some status) ∧
      r.members = ((presentNodes status).take n.toNat).toFinset ∧ krgNodeSetWeight r = n := by
  obtain ⟨ret, nodeSet, hwait, ⟨-, rfl⟩ | ⟨hret, chosen, rfl, rfl⟩⟩ := addCount_ok h
  · simp [refused] at hr
  · obtain ⟨rfl, hweight⟩ := mem_request.mp hr
    by_cases hn : 0 < n
    · obtain ⟨before, after, status, hcreate, hafter, hlast, hlength, hmembers⟩ :=
        waitForNodesCount_spec hwait hret hn
      obtain ⟨item, -, rfl⟩ := Option.map_eq_some_iff.mp hcreate
      obtain rfl := Option.some.inj hafter
      rw [members_clear, Finset.empty_union] at hmembers
      refine ⟨status, hlast, hmembers, ?_⟩
      rw [weight_eq, hmembers, card_take_presentNodes (by omega) hlength]
    · rw [waitForNodesCount_of_le _ _ (by omega)] at hwait
      obtain ⟨-, -, hcreate⟩ := by simpa only [Option.some.injEq, Prod.mk.injEq] using hwait
      obtain ⟨item, -, rfl⟩ := Option.map_eq_some_iff.mp hcreate
      rw [weight_eq, members_clear] at hweight
      simp at hweight

/-- The total mode is the count mode for the difference, when that does not overflow. -/
theorem nodesAdd_total_ok {first : KrgNodes maxNodes} {rest polled : Answers maxNodes}
    {malloc : Option (KrgNodeSet maxNodes)} {krgNodesAdd : KrgNodeSet maxNodes → ℤ}
    {nodeSet : Option (KrgNodeSet maxNodes)} {n : ℤ} {o : Outcome maxNodes}
    (h : nodesAdd (some first :: rest) malloc krgNodesAdd nodeSet n .nodesModeTotal =
      some (polled, o)) :
    ∃ polled', polled = some first :: polled' ∧
      addCount malloc krgNodesAdd (n - krgNodesNumOnline first) rest = some (polled', o) := by
  obtain ⟨d, hsub, h⟩ := Option.bind_eq_some_iff.mp h
  obtain ⟨-, rfl⟩ := subInt_eq_some_iff.mp hsub
  obtain ⟨⟨polled', o'⟩, hadd, h⟩ := Option.bind_eq_some_iff.mp h
  obtain ⟨rfl, rfl⟩ := Prod.mk.inj (Option.some.inj h)
  exact ⟨polled', rfl, hadd⟩

/-- A request of the total mode asks for as many present nodes of the last answer as were
missing in the first one. -/
theorem nodesAdd_total_request {answers polled : Answers maxNodes}
    {malloc : Option (KrgNodeSet maxNodes)} {krgNodesAdd : KrgNodeSet maxNodes → ℤ}
    {nodeSet : Option (KrgNodeSet maxNodes)} {n : ℤ} {o : Outcome maxNodes}
    (h : nodesAdd answers malloc krgNodesAdd nodeSet n .nodesModeTotal = some (polled, o))
    {r : KrgNodeSet maxNodes} (hr : r ∈ o.requests) :
    ∃ first chosen, answers.head? = some (some first) ∧
      polled.getLast? = some (some chosen) ∧
      r.members ⊆ chosen.withStatus .hotplugNodePresent ∧
      krgNodeSetWeight r = n - krgNodesNumOnline first := by
  cases answers with
  | nil => simp [nodesAdd] at h
  | cons answer rest =>
    cases answer with
    | none =>
      simp only [nodesAdd, Option.some.injEq, Prod.mk.injEq] at h
      simp [← h.2, refused] at hr
    | some first =>
      obtain ⟨polled', rfl, hadd⟩ := nodesAdd_total_ok h
      obtain ⟨chosen, hlast, hmembers, hweight⟩ := addCount_request hadd hr
      refine ⟨first, chosen, rfl, ?_, fun i hi => ?_, hweight⟩
      · rw [List.getLast?_cons, hlast]
        rfl
      · rw [hmembers, List.mem_toFinset] at hi
        exact mem_passing.mp (List.mem_of_mem_take hi)

end Kerrighed.Krgadm
