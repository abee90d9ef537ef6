import Kerrighed.Krgadm.Add
import Mathlib.Logic.Function.Basic

/-!
# Concurrent administrators

Several clients run `nodes add --total n` against one cluster. A client reads the cluster
status whenever it polls and sends the request that `nodes_add` makes of the answers it has
read; between two of its steps other clients move, and nodes join, leave and fail.

Nothing holds the cluster still between the first answer a client has read and its request.
A client reaches its total exactly when as many nodes are online in the answer it chooses
from as in its first one, and no run goes above the total as long as each request finds no
more nodes online than the first answer of its client.
-/

namespace Kerrighed.Krgadm

open Kerrighed.Common Kerrighed.Hotplug

variable {maxNodes : ℕ} {ι : Type*} [DecidableEq ι]

/-- The vector after a node has changed its status. -/
def putStatus (nodes : KrgNodes maxNodes) (node : ℕ) (s : KrgStatus) : KrgNodes maxNodes :=
  ⟨nodes.nodes.setIfInBounds node (Int8.ofNat s.value)⟩

/-- A client with the answers it has read so far, and whether it has sent its request. -/
structure Client (maxNodes : ℕ) where
  answers : Answers maxNodes
  sent : Bool
  deriving DecidableEq, Repr

/-- The status of the cluster and its clients. -/
structure Cluster (ι : Type*) (maxNodes : ℕ) where
  status : KrgNodes maxNodes
  client : ι → Client maxNodes

/-- What happens next: a client starts anew, asks for the status (which may fail), or sends its
request, of which the kernel puts some nodes online; or a node joins, leaves or fails. -/
inductive ClusterEvent (ι : Type*) where
  | start (c : ι)
  | poll (c : ι) (ok : Bool)
  | send (c : ι) (accepted : List ℕ)
  | change (node : ℕ) (s : KrgStatus)
  deriving DecidableEq, Repr

/-- What `nodes_add` makes of the answers a client has read. -/
def totalOutcome (item : KrgNodeSet maxNodes) (n : ℤ) (answers : Answers maxNodes) :
    Option (Answers maxNodes × Outcome maxNodes) :=
  nodesAdd answers (some item) (fun _ => 0) none n .nodesModeTotal

/-- The request a client is about to send. -/
def Client.request (item : KrgNodeSet maxNodes) (n : ℤ) (client : Client maxNodes) :
    Option (KrgNodeSet maxNodes) :=
  if client.sent then none
  else (totalOutcome item n client.answers).bind fun r => r.2.requests.head?

/-- One step of the cluster. Only a request puts nodes online. -/
def clusterStep (item : KrgNodeSet maxNodes) (n : ℤ) (st : Cluster ι maxNodes) :
    ClusterEvent ι → Option (Cluster ι maxNodes)
  | .start c => some { st with client := Function.update st.client c ⟨[], false⟩ }
  | .poll c ok =>
    if (totalOutcome item n (st.client c).answers).isSome then none
    else
      let answer := if ok then some st.status else none
      some { st with
        client := Function.update st.client c
          { st.client c with answers := (st.client c).answers ++ [answer] } }
  | .send c accepted =>
    match (st.client c).request item n with
    | none => none
    | some r =>
      if ∀ node ∈ accepted, (node : ℤ) ∈ r.members then
        some ⟨accepted.foldl (fun status node => putStatus status node .hotplugNodeOnline) st.status,
          Function.update st.client c { st.client c with sent := true }⟩
      else none
  | .change node s =>
    if s = .hotplugNodeOnline then none else some { st with status := putStatus st.status node s }

/-- A cluster whose clients have not started. -/
def clusterStart (ι : Type*) (status : KrgNodes maxNodes) : Cluster ι maxNodes :=
  ⟨status, fun _ => ⟨[], false⟩⟩

/-- No more nodes are online than the total the clients ask for. -/
def WithinTotal (n : ℤ) (st : Cluster ι maxNodes) : Prop := krgNodesNumOnline st.status ≤ n

instance (n : ℤ) : DecidablePred (WithinTotal n : Cluster ι maxNodes → Prop) := fun st =>
  inferInstanceAs (Decidable (krgNodesNumOnline st.status ≤ n))

/-- A request finds no more nodes online than the first answer of its client. -/
def FindsNoMoreOnline (st : Cluster ι maxNodes) : ClusterEvent ι → Prop
  | .send c _ =>
    match (st.client c).answers with
    | some first :: _ => krgNodesNumOnline st.status ≤ krgNodesNumOnline first
    | _ => True
  | _ => True

instance (st : Cluster ι maxNodes) : ∀ e, Decidable (FindsNoMoreOnline st e)
  | .send c _ =>
    match h : (st.client c).answers with
    | some first :: _ =>
      decidable_of_iff (krgNodesNumOnline st.status ≤ krgNodesNumOnline first)
        (by simp [FindsNoMoreOnline, h])
    | [] => isTrue (by simp [FindsNoMoreOnline, h])
    | none :: _ => isTrue (by simp [FindsNoMoreOnline, h])
  | .start _ => isTrue trivial
  | .poll _ _ => isTrue trivial
  | .change _ _ => isTrue trivial

/-- The char of a node after a change. -/
theorem char_putStatus (nodes : KrgNodes maxNodes) {node i : ℕ} (s : KrgStatus) (hi : i < maxNodes) :
    (putStatus nodes node s).char i = if i = node then Int8.ofNat s.value else nodes.char i := by
  simp only [KrgNodes.char, putStatus, Vector.getElem?_setIfInBounds]
  by_cases hnode : i = node
  · simp [← hnode, hi]
  · simp [hnode, Ne.symm hnode]

/-- A node in a status after a change was in it before or has just got it. -/
theorem mem_withStatus_put {nodes : KrgNodes maxNodes} {node : ℕ} {s t : KrgStatus} {i : ℤ}
    (h : i ∈ (putStatus nodes node s).withStatus t) :
    (i = node ∧ s = t) ∨ i ∈ nodes.withStatus t := by
  obtain ⟨hrange, hchar⟩ := mem_withStatus.mp h
  rw [char_putStatus nodes s (by omega)] at hchar
  split at hchar
  · refine .inl ⟨by omega, ?_⟩
    revert hchar
    cases s <;> cases t <;> decide
  · exact .inr (mem_withStatus.mpr ⟨hrange, hchar⟩)

/-- Only the nodes that were accepted come online. -/
theorem withStatus_accept (accepted : List ℕ) (nodes : KrgNodes maxNodes) :
    (accepted.foldl (fun status node => putStatus status node .hotplugNodeOnline)
        nodes).withStatus .hotplugNodeOnline ⊆
      nodes.withStatus .hotplugNodeOnline ∪ (accepted.map Nat.cast).toFinset := by
  induction accepted generalizing nodes with
  | nil => simp
  | cons node rest ih =>
    intro i hi
    rw [List.map_cons, List.toFinset_cons, Finset.mem_union, Finset.mem_insert]
    rcases Finset.mem_union.mp (ih _ hi) with h | h
    · rcases mem_withStatus_put h with ⟨hnode, -⟩ | hold
      · exact .inr (.inl hnode)
      · exact .inl hold
    · exact .inr (.inr h)

/-- An accepted part of a request brings no more nodes online than the request names. -/
theorem krgNodesNumOnline_accept_le {accepted : List ℕ} {r : KrgNodeSet maxNodes}
    (haccepted : ∀ node ∈ accepted, (node : ℤ) ∈ r.members) (nodes : KrgNodes maxNodes) :
    krgNodesNumOnline (accepted.foldl (fun status node => putStatus status node .hotplugNodeOnline)
        nodes) ≤ krgNodesNumOnline nodes + krgNodeSetWeight r := by
  have hsubset : (accepted.map Nat.cast).toFinset ⊆ r.members := by
    intro i hi
    obtain ⟨node, hnode, rfl⟩ := List.mem_map.mp (List.mem_toFinset.mp hi)
    exact haccepted node hnode
  have hcard := (Finset.card_le_card (withStatus_accept accepted nodes)).trans
    (Finset.card_union_le _ _)
  have hasked := Finset.card_le_card hsubset
  simp only [krgNodesNumOnline, nodesNum_eq, weight_eq]
  omega

/-- A node that gets another status than online leaves no more nodes online. -/
theorem krgNodesNumOnline_put_le {s : KrgStatus} (hs : s ≠ .hotplugNodeOnline)
    (nodes : KrgNodes maxNodes) (node : ℕ) :
    krgNodesNumOnline (putStatus nodes node s) ≤ krgNodesNumOnline nodes := by
  have hsubset : (putStatus nodes node s).withStatus .hotplugNodeOnline ⊆
      nodes.withStatus .hotplugNodeOnline := by
    intro i hi
    exact (mem_withStatus_put hi).resolve_left fun h => hs h.2
  have hcard := Finset.card_le_card hsubset
  simp only [krgNodesNumOnline, nodesNum_eq]
  omega

/-- A client that is about to send a request asks for what was missing in its first answer. -/
theorem Client.request_weight {item : KrgNodeSet maxNodes} {n : ℤ} {client : Client maxNodes}
    {r : KrgNodeSet maxNodes} (h : client.request item n = some r) :
    ∃ first rest, client.answers = some first :: rest ∧
      krgNodeSetWeight r = n - krgNodesNumOnline first := by
  rw [Client.request] at h
  split at h
  · contradiction
  · obtain ⟨⟨polled, o⟩, houtcome, hhead⟩ := Option.bind_eq_some_iff.mp h
    obtain ⟨first, -, hfirst, -, -, hweight⟩ :=
      nodesAdd_total_request houtcome (List.mem_of_head? hhead)
    obtain ⟨rest, hrest⟩ := List.head?_eq_some_iff.mp hfirst
    exact ⟨first, rest, hrest, hweight⟩

/-- A request that finds no more nodes online than the first answer does not go above the
total, and no other step puts a node online. -/
theorem clusterStep_within {item : KrgNodeSet maxNodes} {n : ℤ} {st st' : Cluster ι maxNodes}
    {e : ClusterEvent ι} (hst : WithinTotal n st) (hcond : FindsNoMoreOnline st e)
    (hstep : clusterStep item n st e = some st') : WithinTotal n st' := by
  rw [WithinTotal] at hst ⊢
  cases e with
  | start c =>
    obtain rfl := Option.some.inj hstep
    exact hst
  | poll c ok =>
    simp only [clusterStep] at hstep
    split at hstep
    · contradiction
    · obtain rfl := Option.some.inj hstep
      exact hst
  | send c accepted =>
    simp only [clusterStep] at hstep
    split at hstep
    · contradiction
    · rename_i r hrequest
      split at hstep
      · rename_i haccepted
        obtain rfl := Option.some.inj hstep
        obtain ⟨first, rest, hanswers, hweight⟩ := Client.request_weight hrequest
        simp only [FindsNoMoreOnline, hanswers] at hcond
        have honline := krgNodesNumOnline_accept_le haccepted st.status
        dsimp only
        omega
      · contradiction
  | change node s =>
    simp only [clusterStep] at hstep
    split at hstep
    · contradiction
    · rename_i hs
      obtain rfl := Option.some.inj hstep
      exact (krgNodesNumOnline_put_le hs st.status node).trans hst

/-- A request of the total mode completes the total exactly when as many nodes are online in
the answer it was chosen from, the last one read, as in the first one; and clients that all ask
for the total `n` never take the cluster above it in a run whose requests find no more nodes
online than the first answers of their clients. -/
theorem nodesAdd_total_exact :
    (∀ (answers polled : Answers maxNodes) (malloc nodeSet : Option (KrgNodeSet maxNodes))
        (krgNodesAdd : KrgNodeSet maxNodes → ℤ) (n : ℤ) (o : Outcome maxNodes),
      nodesAdd answers malloc krgNodesAdd nodeSet n .nodesModeTotal = some (polled, o) →
      ∀ r ∈ o.requests, ∃ first chosen, answers.head? = some (some first) ∧
        polled.getLast? = some (some chosen) ∧
        r.members ⊆ chosen.withStatus .hotplugNodePresent ∧
        (krgNodesNumOnline chosen + krgNodeSetWeight r = n ↔
          krgNodesNumOnline chosen = krgNodesNumOnline first)) ∧
    ∀ (item : KrgNodeSet maxNodes) (n : ℤ) (status : KrgNodes maxNodes)
        (events : List (ClusterEvent ι)),
      krgNodesNumOnline status ≤ n →
      Along (clusterStep item n) FindsNoMoreOnline (clusterStart ι status) events →
      Throughout (clusterStep item n) (WithinTotal n) (clusterStart ι status) events := by
  constructor
  · intro answers polled malloc nodeSet krgNodesAdd n o h r hr
    obtain ⟨first, chosen, hfirst, hchosen, hpresent, hweight⟩ := nodesAdd_total_request h hr
    refine ⟨first, chosen, hfirst, hchosen, hpresent, ?_⟩
    rw [hweight]
    omega
  · intro item n status events hstatus halong
    have hstart : WithinTotal n (clusterStart ι status) := hstatus
    refine throughout_of_along ?_ hstart events halong
    intro st e st' hst hcond hstep
    exact clusterStep_within hst hcond hstep

/-- Node 0 online, node 1 present and node 2 possible. -/
def oneOnline : KrgNodes 3 := ⟨#v[3, 2, 1]⟩

/-- Nodes 0 and 1 online and node 2 present. -/
def twoOnline : KrgNodes 3 := ⟨#v[3, 3, 2]⟩

/-- The node set of the given nodes. -/
def nodeSetOf (maxNodes : ℕ) (nodes : List ℤ) : KrgNodeSet maxNodes :=
  nodes.foldl (fun s n => (krgNodeSetAdd s n).2) ⟨0, Vector.replicate maxNodes 0⟩

/-- One client alone completes a total of two nodes, and another one then leaves it at that. -/
theorem one_client_reaches_total :
    (∃ first chosen, [some oneOnline, some oneOnline].head? = some (some first) ∧
      [some oneOnline, some oneOnline].getLast? = some (some chosen) ∧
      (nodeSetOf 3 [1]).members ⊆ chosen.withStatus .hotplugNodePresent ∧
      (krgNodesNumOnline chosen + krgNodeSetWeight (nodeSetOf 3 [1]) = 2 ↔
        krgNodesNumOnline chosen = krgNodesNumOnline first)) ∧
    Throughout (clusterStep (nodeSetOf 3 []) 2) (WithinTotal 2) (clusterStart Bool oneOnline)
      [.poll true true, .poll true true, .send true [1], .change 2 .hotplugNodePresent,
        .poll false true] :=
  ⟨nodesAdd_total_exact (ι := Bool).1 _ _ (some (nodeSetOf 3 [])) none (fun _ => 0) 2
      ⟨0, [nodeSetOf 3 [1]]⟩ (by decide) _ (by decide),
    nodesAdd_total_exact.2 _ 2 oneOnline _ (by decide) (by decide)⟩

/-- Two clients that both read the first status ask for one node each and take a cluster of one
node to three nodes, above their total of two; the second client chooses its node from an
answer in which the total is already reached. -/
theorem two_clients_exceed_total :
    ¬ Throughout (clusterStep (nodeSetOf 3 []) 2) (WithinTotal 2) (clusterStart Bool oneOnline)
        [.poll true true, .poll false true, .poll true true, .send true [1],
          .change 2 .hotplugNodePresent, .poll false true, .send false [2]] ∧
      nodesAdd [some oneOnline, some twoOnline] (some (nodeSetOf 3 [])) (fun _ => 0) none 2
          .nodesModeTotal =
        some ([some oneOnline, some twoOnline], ⟨0, [nodeSetOf 3 [2]]⟩) ∧
      krgNodesNumOnline twoOnline + krgNodeSetWeight (nodeSetOf 3 [2]) ≠ 2 := by
  decide

end Kerrighed.Krgadm
