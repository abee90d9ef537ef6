import Kerrighed.Krgadm.AddList
import Kerrighed.Krgadm.Clients
import Kerrighed.Krgadm.Nodes
import Kerrighed.Krgadm.RemoveCount

/-!
# Administrators on the nodes of a cluster

Any number of administrators type `krgadm nodes` commands, each on a node of its own. A command
reads the status of the nodes at its start, and again while it waits; by the time its request
reaches the kernel, other administrators may have moved the nodes it names.

A command never hands the kernel more than one set of nodes. One that adds was seen present, all
of it in one answer; one that removes was seen online, and is without the node that the command
runs on. The latter is why the administrators together cannot empty a cluster, whatever they type:
the node of the one whose request comes last stays.
-/

namespace Kerrighed.Krgadm

open Kerrighed.Common Kerrighed.Hotplug

variable {maxNodes : ℕ} {ι : Type*} [DecidableEq ι]

/-- A command in progress: the node it runs on, what `get_node_id` answers there, its arguments, the
answers it has read, and whether it has sent its request. -/
structure Admin (maxNodes : ℕ) where
  node : ℕ
  nodeId : ℤ
  argv : List Arg
  answers : Answers maxNodes
  sent : Bool
  deriving DecidableEq, Repr

/-- The status of the nodes and the commands of the administrators. -/
structure Site (ι : Type*) (maxNodes : ℕ) where
  status : KrgNodes maxNodes
  admin : ι → Admin maxNodes

/-- What happens next: an administrator types a command on a node, the command asks for the status
(which may fail), or its request reaches the kernel, which moves some of the nodes; or a node
joins, leaves or fails by itself. -/
inductive SiteEvent (ι : Type*) where
  | start (c : ι) (node : ℕ) (nodeId : ℤ) (argv : List Arg)
  | poll (c : ι) (ok : Bool)
  | send (c : ι) (accepted : List ℕ)
  | change (node : ℕ) (s : KrgStatus)
  deriving DecidableEq, Repr

/-- What a command makes of the answers it has read so far. -/
def Admin.outcome (item : KrgNodeSet maxNodes) (a : Admin maxNodes) :
    Option (ℤ × List (KrgNodeSet maxNodes)) :=
  nodes ⟨true, some item, a.answers, a.nodeId, fun _ => 0, fun _ => 0⟩ a.argv

/-- The request a command is about to send. -/
def Admin.request (item : KrgNodeSet maxNodes) (a : Admin maxNodes) : Option (KrgNodeSet maxNodes) :=
  if a.sent then none else (a.outcome item).bind fun r => r.2.head?

/-- The status that the kernel gives to the nodes of a request. -/
def Action.target : Action → KrgStatus
  | .del => .hotplugNodePresent
  | _ => .hotplugNodeOnline

/-- The nodes after the kernel has moved some of them. -/
def putAll (nodes : KrgNodes maxNodes) (accepted : List ℕ) (s : KrgStatus) : KrgNodes maxNodes :=
  accepted.foldl (fun nodes node => putStatus nodes node s) nodes

/-- One step of the site. -/
def siteStep (item : KrgNodeSet maxNodes) (st : Site ι maxNodes) :
    SiteEvent ι → Option (Site ι maxNodes)
  | .start c node nodeId argv =>
    some { st with admin := Function.update st.admin c ⟨node, nodeId, argv, [], false⟩ }
  | .poll c ok =>
    if ((st.admin c).outcome item).isSome then none
    else
      let answer := if ok then some st.status else none
      some { st with
        admin := Function.update st.admin c
          { st.admin c with answers := (st.admin c).answers ++ [answer] } }
  | .send c accepted =>
    match (st.admin c).request item with
    | none => none
    | some r =>
      if ∀ node ∈ accepted, (node : ℤ) ∈ r.members then
        some ⟨putAll st.status accepted (actionOf (st.admin c).argv).target,
          Function.update st.admin c { st.admin c with sent := true }⟩
      else none
  | .change node s => some { st with status := putStatus st.status node s }

/-- A request comes from a node that is online and knows its own number, and only nodes outside the
cluster change by themselves. -/
def FromMember (st : Site ι maxNodes) : SiteEvent ι → Prop
  | .send c _ =>
    (st.admin c).nodeId = (st.admin c).node ∧
      ((st.admin c).node : ℤ) ∈ st.status.withStatus .hotplugNodeOnline
  | .change node _ => (node : ℤ) ∉ st.status.withStatus .hotplugNodeOnline
  | _ => True

/-- Some node is online. -/
def SomeOnline (st : Site ι maxNodes) : Prop := (st.status.withStatus .hotplugNodeOnline).Nonempty

instance (st : Site ι maxNodes) : Decidable (SomeOnline st) :=
  decidable_of_iff (∃ i ∈ st.status.withStatus .hotplugNodeOnline, True)
    (by simp [SomeOnline, Finset.Nonempty])

instance (st : Site ι maxNodes) : ∀ e, Decidable (FromMember st e)
  | .send c _ => inferInstanceAs (Decidable ((st.admin c).nodeId = (st.admin c).node ∧
      ((st.admin c).node : ℤ) ∈ st.status.withStatus .hotplugNodeOnline))
  | .change node _ =>
    inferInstanceAs (Decidable ((node : ℤ) ∉ st.status.withStatus .hotplugNodeOnline))
  | .start _ _ _ _ | .poll _ _ => inferInstanceAs (Decidable True)

/-- A set that is handed over is handed over alone. -/
theorem requests_of_mem_request {call : KrgNodeSet maxNodes → ℤ} {chosen r : KrgNodeSet maxNodes}
    (hr : r ∈ (request call chosen).requests) :
    r = chosen ∧ (request call chosen).requests = [r] ∧ r.members.Nonempty := by
  obtain ⟨rfl, hweight⟩ := mem_request.mp hr
  refine ⟨rfl, by rw [request, if_pos hweight], ?_⟩
  rw [weight_eq] at hweight
  exact Finset.card_pos.mp (by omega)

/-- What the counting modes remove is online and without the current node. -/
theorem removeCount_sound {status : KrgNodes maxNodes} {malloc : Option (KrgNodeSet maxNodes)}
    {nodeId n : ℤ} {krgNodesRemove : KrgNodeSet maxNodes → ℤ} {o : Outcome maxNodes}
    (h : removeCount status malloc nodeId krgNodesRemove n = some o) {r : KrgNodeSet maxNodes}
    (hr : r ∈ o.requests) :
    o.requests = [r] ∧ r.members.Nonempty ∧
      r.members ⊆ (status.withStatus .hotplugNodeOnline).erase nodeId := by
  cases malloc with
  | none => cases h
  | some item =>
    by_cases hn : n < krgNodesNumOnline status
    · obtain ⟨chosen, heq, hchosen⟩ := removeCount_eq status item nodeId krgNodesRemove hn
      obtain rfl := Option.some.inj (heq.symm.trans h)
      obtain ⟨rfl, hsingle, hnonempty⟩ := requests_of_mem_request hr
      refine ⟨hsingle, hnonempty, fun i hi => ?_⟩
      rw [hchosen, List.mem_toFinset] at hi
      obtain ⟨honline, hself⟩ := List.mem_filter.mp (List.mem_of_mem_take hi)
      exact Finset.mem_erase.mpr ⟨by simpa using hself, mem_passing.mp honline⟩
    · have hrefused := removeCount_refused status item nodeId krgNodesRemove (Int.not_lt.mp hn)
      obtain rfl := Option.some.inj (hrefused.symm.trans h)
      cases hr

/-- What a removal hands over is one nonempty set of nodes that were online in the status it has read,
without the current node. -/
theorem nodesRemove_sound {status : Option (KrgNodes maxNodes)}
    {malloc nodeSet : Option (KrgNodeSet maxNodes)} {nodeId n : ℤ}
    {krgNodesRemove : KrgNodeSet maxNodes → ℤ} {mode : NodesMode} {o : Outcome maxNodes}
    (h : nodesRemove status malloc nodeId krgNodesRemove nodeSet n mode = some o)
    {r : KrgNodeSet maxNodes} (hr : r ∈ o.requests) :
    o.requests = [r] ∧ r.members.Nonempty ∧
      ∃ s, status = some s ∧ r.members ⊆ (s.withStatus .hotplugNodeOnline).erase nodeId := by
  cases status with
  | none =>
    obtain rfl := Option.some.inj h
    cases hr
  | some s =>
    have hsound : o.requests = [r] ∧ r.members.Nonempty ∧
        r.members ⊆ (s.withStatus .hotplugNodeOnline).erase nodeId := by
      cases mode with
      | nodesModeUnset =>
        obtain rfl := Option.some.inj h
        cases hr
      | nodesModeAll =>
        cases malloc with
        | none => cases h
        | some item =>
          obtain ⟨chosen, heq, hchosen⟩ := nodesRemove_all s item nodeId krgNodesRemove nodeSet n
          obtain rfl := Option.some.inj (heq.symm.trans h)
          obtain ⟨rfl, hsingle, hnonempty⟩ := requests_of_mem_request hr
          exact ⟨hsingle, hnonempty, hchosen.subset⟩
      | nodesModeList =>
        cases nodeSet with
        | none => cases h
        | some given =>
          obtain ⟨chosen, heq, hchosen⟩ := nodesRemove_list s malloc nodeId krgNodesRemove given n
          obtain rfl := Option.some.inj (heq.symm.trans h)
          obtain ⟨rfl, hsingle, hnonempty⟩ := requests_of_mem_request hr
          rw [hchosen]
          exact ⟨hsingle, hchosen ▸ hnonempty,
            Finset.erase_subset_erase nodeId Finset.inter_subset_right⟩
      | nodesModeCount => exact removeCount_sound h hr
      | nodesModeTotal =>
        obtain ⟨count, -, hcount⟩ := Option.bind_eq_some_iff.mp h
        exact removeCount_sound hcount hr
    exact ⟨hsound.1, hsound.2.1, s, rfl, hsound.2.2⟩

/-- The counting modes hand over one set at most. -/
theorem addCount_single {malloc : Option (KrgNodeSet maxNodes)}
    {krgNodesAdd : KrgNodeSet maxNodes → ℤ} {n : ℤ} {answers polled : Answers maxNodes}
    {o : Outcome maxNodes} (h : addCount malloc krgNodesAdd n answers = some (polled, o))
    {r : KrgNodeSet maxNodes} (hr : r ∈ o.requests) :
    o.requests = [r] ∧ r.members.Nonempty := by
  obtain ⟨ret, nodeSet, -, ⟨-, rfl⟩ | ⟨-, chosen, -, rfl⟩⟩ := addCount_ok h
  · cases hr
  · exact (requests_of_mem_request hr).2

/-- The nodes that the counting modes hand over were present in the last answer read. -/
theorem addCount_sound {malloc : Option (KrgNodeSet maxNodes)}
    {krgNodesAdd : KrgNodeSet maxNodes → ℤ} {n : ℤ} {answers polled : Answers maxNodes}
    {o : Outcome maxNodes} (h : addCount malloc krgNodesAdd n answers = some (polled, o))
    {r : KrgNodeSet maxNodes} (hr : r ∈ o.requests) :
    ∃ s, polled.getLast? = some (some s) ∧ r.members ⊆ s.withStatus .hotplugNodePresent := by
  obtain ⟨s, hlast, hmembers, -⟩ := addCount_request h hr
  refine ⟨s, hlast, fun i hi => ?_⟩
  rw [hmembers, List.mem_toFinset] at hi
  exact mem_passing.mp (List.mem_of_mem_take hi)

/-- What an addition hands over is one nonempty set of nodes that were all present in the last answer
it has read. -/
theorem nodesAdd_sound {answers polled : Answers maxNodes}
    {malloc nodeSet : Option (KrgNodeSet maxNodes)} {krgNodesAdd : KrgNodeSet maxNodes → ℤ} {n : ℤ}
    {mode : NodesMode} {o : Outcome maxNodes}
    (h : nodesAdd answers malloc krgNodesAdd nodeSet n mode = some (polled, o))
    {r : KrgNodeSet maxNodes} (hr : r ∈ o.requests) :
    o.requests = [r] ∧ r.members.Nonempty ∧
      ∃ s, polled.getLast? = some (some s) ∧ r.members ⊆ s.withStatus .hotplugNodePresent := by
  cases answers with
  | nil => cases h
  | cons answer rest =>
    cases answer with
    | none =>
      obtain ⟨-, rfl⟩ := Prod.mk.inj (Option.some.inj h)
      cases hr
    | some first =>
      have hlater {polled' : Answers maxNodes} {s : KrgNodes maxNodes}
          (hlast : polled'.getLast? = some (some s)) :
          (some first :: polled').getLast? = some (some s) := by
        rw [List.getLast?_cons, hlast]
        rfl
      cases mode with
      | nodesModeUnset =>
        obtain ⟨-, rfl⟩ := Prod.mk.inj (Option.some.inj h)
        cases hr
      | nodesModeAll =>
        cases malloc with
        | none =>
          obtain ⟨-, rfl⟩ := Prod.mk.inj (Option.some.inj h)
          cases hr
        | some item =>
          obtain ⟨chosen, hget, hchosen, -⟩ := nodesGet_spec item first .hotplugNodePresent
          have hpresent : krgNodesGetPresent (some item) first = some chosen := hget
          rw [nodesAdd] at h
          simp only [hpresent, Option.some.injEq, Prod.mk.injEq] at h
          obtain ⟨rfl, rfl⟩ := h
          obtain ⟨rfl, hsingle, hnonempty⟩ := requests_of_mem_request hr
          exact ⟨hsingle, hnonempty, first, rfl, hchosen.subset⟩
      | nodesModeList =>
        cases nodeSet with
        | none => cases h
        | some given =>
          obtain ⟨left, -, hlist⟩ := nodesAdd_list_eq given first
          rw [hlist] at h
          obtain ⟨⟨waited, value⟩, hwait, heq⟩ := Option.map_eq_some_iff.mp h
          obtain ⟨rfl, rfl⟩ := Prod.mk.inj heq
          split at hr
          · cases hr
          · rename_i hvalue
            obtain ⟨rfl, hsingle, hnonempty⟩ := requests_of_mem_request hr
            obtain ⟨-, before, last, rfl, hpresent, -⟩ :=
              waitForNodes_spec hnonempty hwait hvalue
            refine ⟨by rw [if_neg hvalue, hsingle], hnonempty, last, hlater ?_, hpresent⟩
            rw [List.map_append, List.map_singleton, List.getLast?_concat]
      | nodesModeTotal =>
        obtain ⟨polled', rfl, hadd⟩ := nodesAdd_total_ok h
        obtain ⟨hsingle, hnonempty⟩ := addCount_single hadd hr
        obtain ⟨s, hlast, hpresent⟩ := addCount_sound hadd hr
        exact ⟨hsingle, hnonempty, s, hlater hlast, hpresent⟩
      | nodesModeCount =>
        obtain ⟨⟨polled', o'⟩, hadd, heq⟩ := Option.bind_eq_some_iff.mp h
        obtain ⟨rfl, rfl⟩ := Prod.mk.inj (Option.some.inj heq)
        obtain ⟨hsingle, hnonempty⟩ := addCount_single hadd hr
        obtain ⟨s, hlast, hpresent⟩ := addCount_sound hadd hr
        exact ⟨hsingle, hnonempty, s, hlater hlast, hpresent⟩

/-- The counting modes read a first part of the answers. -/
theorem addCount_reads {malloc : Option (KrgNodeSet maxNodes)}
    {krgNodesAdd : KrgNodeSet maxNodes → ℤ} {n : ℤ} {answers polled : Answers maxNodes}
    {o : Outcome maxNodes} (h : addCount malloc krgNodesAdd n answers = some (polled, o)) :
    polled <+: answers := by
  obtain ⟨ret, nodeSet, hwait, -⟩ := addCount_ok h
  rw [waitForNodesCount] at hwait
  split at hwait
  · split at hwait
    · obtain ⟨rfl, -⟩ := Prod.mk.inj (Option.some.inj hwait)
      exact List.nil_prefix
    · obtain ⟨⟨read, last⟩, hpoll, heq⟩ := Option.bind_eq_some_iff.mp hwait
      have hread := (poll_spec hpoll).1
      cases last with
      | none =>
        obtain ⟨rfl, -⟩ := Prod.mk.inj (Option.some.inj heq)
        exact hread
      | some status =>
        obtain ⟨before, -, heq⟩ := Option.bind_eq_some_iff.mp heq
        obtain ⟨rfl, -⟩ := Prod.mk.inj (Option.some.inj heq)
        exact hread
  · obtain ⟨rfl, -⟩ := Prod.mk.inj (Option.some.inj hwait)
    exact List.nil_prefix

/-- An addition reads a first part of the answers. -/
theorem nodesAdd_reads {answers polled : Answers maxNodes} {malloc nodeSet : Option (KrgNodeSet maxNodes)}
    {krgNodesAdd : KrgNodeSet maxNodes → ℤ} {n : ℤ} {mode : NodesMode} {o : Outcome maxNodes}
    (h : nodesAdd answers malloc krgNodesAdd nodeSet n mode = some (polled, o)) :
    polled <+: answers := by
  cases answers with
  | nil => cases h
  | cons answer rest =>
    have hfirst : [answer] <+: answer :: rest := List.prefix_iff_eq_take.mpr rfl
    cases answer with
    | none => exact (Prod.mk.inj (Option.some.inj h)).1 ▸ hfirst
    | some first =>
      cases mode with
      | nodesModeUnset => exact (Prod.mk.inj (Option.some.inj h)).1 ▸ hfirst
      | nodesModeAll =>
        rw [nodesAdd] at h
        split at h <;> exact (Prod.mk.inj (Option.some.inj h)).1 ▸ hfirst
      | nodesModeList =>
        cases nodeSet with
        | none => cases h
        | some given =>
          obtain ⟨left, -, hlist⟩ := nodesAdd_list_eq given first
          rw [hlist] at h
          obtain ⟨⟨waited, value⟩, hwait, heq⟩ := Option.map_eq_some_iff.mp h
          obtain ⟨rfl, -⟩ := Prod.mk.inj heq
          refine List.cons_prefix_cons.mpr ⟨rfl, ?_⟩
          rw [waitForNodes] at hwait
          split at hwait
          · obtain ⟨⟨read, last⟩, hpoll, heq⟩ := Option.map_eq_some_iff.mp hwait
            obtain ⟨rfl, -⟩ := Prod.mk.inj heq
            exact (poll_spec hpoll).1
          · obtain ⟨rfl, -⟩ := Prod.mk.inj (Option.some.inj hwait)
            exact List.nil_prefix
      | nodesModeTotal =>
        obtain ⟨polled', rfl, hadd⟩ := nodesAdd_total_ok h
        exact List.cons_prefix_cons.mpr ⟨rfl, addCount_reads hadd⟩
      | nodesModeCount =>
        obtain ⟨⟨polled', o'⟩, hadd, heq⟩ := Option.bind_eq_some_iff.mp h
        obtain ⟨rfl, -⟩ := Prod.mk.inj (Option.some.inj heq)
        exact List.cons_prefix_cons.mpr ⟨rfl, addCount_reads hadd⟩

/-- An option leaves the action. -/
theorem applyOption_action {malloc : Option (KrgNodeSet maxNodes)}
    {cmd cmd' : NodesCommand maxNodes} {option : Char × Option Arg}
    (h : applyOption malloc cmd option = .ok cmd') : cmd'.action = cmd.action := by
  unfold applyOption at h
  split at h
  · rw [applyNodes] at h
    repeat' split at h
    all_goals first | contradiction | exact Except.ok.inj h ▸ rfl
  · obtain ⟨-, -, rfl⟩ := applyNumber_ok h
    rfl
  · obtain ⟨-, -, rfl⟩ := applyNumber_ok h
    rfl
  · split at h
    · contradiction
    · exact Except.ok.inj h ▸ rfl
  · contradiction

/-- The action of a command is the one its first argument names. -/
theorem parseCommand_action {malloc : Option (KrgNodeSet maxNodes)} {argv : List Arg}
    {cmd : NodesCommand maxNodes} (h : parseCommand malloc argv = .ok cmd) :
    cmd.action = actionOf argv := by
  have hfold := foldlM_of_parseCommand h
  have hkeep (options : List (Char × Option Arg)) (start : NodesCommand maxNodes)
      (hfold : options.foldlM (applyOption malloc) start = .ok cmd) :
      cmd.action = start.action := by
    induction options generalizing start with
    | nil => exact Except.ok.inj hfold ▸ rfl
    | cons option rest ih =>
      rw [List.foldlM_cons] at hfold
      cases hfirst : applyOption malloc start option with
      | error stop =>
        rw [hfirst] at hfold
        contradiction
      | ok next =>
        rw [hfirst] at hfold
        exact (ih next hfold).trans (applyOption_action hfirst)
  exact hkeep _ _ hfold

/-- What a whole command line hands over: nothing, or one nonempty set of nodes. An addition has seen
them all present in one answer; a removal has seen them all online in its first answer, and leaves
out the node that `get_node_id` names. -/
theorem nodes_requests {machine : Machine maxNodes} {argv : List Arg} {exit : ℤ}
    {requests : List (KrgNodeSet maxNodes)} (h : nodes machine argv = some (exit, requests)) :
    requests = [] ∨ ∃ r s, requests = [r] ∧ r.members.Nonempty ∧ some s ∈ machine.answers ∧
      ((actionOf argv = .add ∧ r.members ⊆ s.withStatus .hotplugNodePresent) ∨
        (actionOf argv = .del ∧ machine.answers.head? = some (some s) ∧
          r.members ⊆ (s.withStatus .hotplugNodeOnline).erase machine.nodeId)) := by
  rw [nodes] at h
  split at h
  · exact Or.inl (Prod.mk.inj (Option.some.inj h)).2.symm
  · cases hparse : parseCommand machine.malloc argv with
    | error stop =>
      rw [hparse] at h
      cases stop with
      | exitFailure => exact Or.inl (Prod.mk.inj (Option.some.inj h)).2.symm
      | fault fault => contradiction
    | ok cmd =>
      rw [hparse] at h
      have haction := parseCommand_action hparse
      cases hcmd : cmd.action with
      | none =>
        simp only [hcmd] at h
        exact Or.inl (Prod.mk.inj (Option.some.inj h)).2.symm
      | status =>
        simp only [hcmd] at h
        obtain ⟨status, -, h⟩ := Option.bind_eq_some_iff.mp h
        obtain ⟨result, -, h⟩ := Option.bind_eq_some_iff.mp h
        exact Or.inl (Prod.mk.inj (Option.some.inj h)).2.symm
      | add =>
        simp only [hcmd] at h
        obtain ⟨⟨polled, o⟩, hadd, h⟩ := Option.bind_eq_some_iff.mp h
        obtain ⟨-, rfl⟩ := Prod.mk.inj (Option.some.inj h)
        cases hrequests : o.requests with
        | nil => exact Or.inl rfl
        | cons r rest =>
          have hr : r ∈ o.requests := by simp [hrequests]
          obtain ⟨hsingle, hnonempty, s, hlast, hpresent⟩ := nodesAdd_sound hadd hr
          have hread : some s ∈ machine.answers :=
            (nodesAdd_reads hadd).subset (List.mem_of_getLast? hlast)
          rw [← hrequests]
          exact Or.inr ⟨r, s, hsingle, hnonempty, hread,
            Or.inl ⟨haction.symm.trans hcmd, hpresent⟩⟩
      | del =>
        simp only [hcmd] at h
        obtain ⟨status, hstatus, h⟩ := Option.bind_eq_some_iff.mp h
        obtain ⟨o, hremove, h⟩ := Option.bind_eq_some_iff.mp h
        obtain ⟨-, rfl⟩ := Prod.mk.inj (Option.some.inj h)
        cases hrequests : o.requests with
        | nil => exact Or.inl rfl
        | cons r rest =>
          have hr : r ∈ o.requests := by simp [hrequests]
          obtain ⟨hsingle, hnonempty, s, rfl, honline⟩ := nodesRemove_sound hremove hr
          rw [← hrequests]
          exact Or.inr ⟨r, s, hsingle, hnonempty, List.mem_of_head? hstatus,
            Or.inr ⟨haction.symm.trans hcmd, hstatus, honline⟩⟩

/-- A node that is not among those moved keeps its status. -/
theorem mem_withStatus_putAll {nodes : KrgNodes maxNodes} {accepted : List ℕ} {s t : KrgStatus}
    {i : ℤ} (hi : i ∈ nodes.withStatus t) (hout : ∀ node ∈ accepted, (node : ℤ) ≠ i) :
    i ∈ (putAll nodes accepted s).withStatus t := by
  induction accepted generalizing nodes with
  | nil => exact hi
  | cons node rest ih =>
    refine ih ?_ fun node' hnode' => hout node' (List.mem_cons_of_mem node hnode')
    obtain ⟨hrange, hchar⟩ := mem_withStatus.mp hi
    refine mem_withStatus.mpr ⟨hrange, ?_⟩
    have hne : (node : ℤ) ≠ i := hout node List.mem_cons_self
    rw [char_putStatus nodes s (by omega), if_neg (by omega), hchar]

/-- A node that has the status already keeps it when others get it. -/
theorem mem_withStatus_putAll_self {nodes : KrgNodes maxNodes} (accepted : List ℕ) {s : KrgStatus}
    {i : ℤ} (hi : i ∈ nodes.withStatus s) : i ∈ (putAll nodes accepted s).withStatus s := by
  induction accepted generalizing nodes with
  | nil => exact hi
  | cons node rest ih =>
    apply ih
    obtain ⟨hrange, hchar⟩ := mem_withStatus.mp hi
    refine mem_withStatus.mpr ⟨hrange, ?_⟩
    rw [char_putStatus nodes s (by omega)]
    split
    · cases s <;> decide
    · exact hchar

/-- The node of a command that sends a request stays online. -/
theorem sender_stays_online {item : KrgNodeSet maxNodes} {st st' : Site ι maxNodes} {c : ι}
    {accepted : List ℕ} (hmember : FromMember st (.send c accepted))
    (hstep : siteStep item st (.send c accepted) = some st') :
    ((st.admin c).node : ℤ) ∈ st'.status.withStatus .hotplugNodeOnline := by
  obtain ⟨hid, honline⟩ := hmember
  simp only [siteStep] at hstep
  cases hrequest : (st.admin c).request item with
  | none => simp [hrequest] at hstep
  | some r =>
    simp only [hrequest] at hstep
    split at hstep
    · rename_i haccepted
      obtain rfl := Option.some.inj hstep
      simp only [Admin.request] at hrequest
      split at hrequest
      · contradiction
      · obtain ⟨⟨exit, requests⟩, houtcome, hhead⟩ := Option.bind_eq_some_iff.mp hrequest
        rcases nodes_requests houtcome with rfl | ⟨r', s, rfl, -, -, hadd | hdel⟩
        · contradiction
        · rw [hadd.1]
          exact mem_withStatus_putAll_self accepted honline
        · obtain rfl : r' = r := Option.some.inj hhead
          refine mem_withStatus_putAll honline fun node hnode hself => ?_
          have hnamed := hdel.2.2 (haccepted node hnode)
          exact Finset.ne_of_mem_erase hnamed (hself.trans hid.symm)
    · contradiction

/-- A step from a member keeps some node online. -/
theorem siteStep_someOnline {item : KrgNodeSet maxNodes} {st st' : Site ι maxNodes}
    {e : SiteEvent ι} (h : SomeOnline st) (hmember : FromMember st e)
    (hstep : siteStep item st e = some st') : SomeOnline st' := by
  cases e with
  | start c node nodeId argv => exact Option.some.inj hstep ▸ h
  | poll c ok =>
    simp only [siteStep] at hstep
    split at hstep
    · contradiction
    · exact Option.some.inj hstep ▸ h
  | send c accepted => exact ⟨_, sender_stays_online hmember hstep⟩
  | change node s =>
    obtain ⟨i, hi⟩ := h
    obtain rfl := Option.some.inj hstep
    have hne : ∀ other ∈ [node], (other : ℤ) ≠ i := by
      intro other hother hself
      rw [List.mem_singleton.mp hother] at hself
      exact hmember (hself ▸ hi)
    have hstays : i ∈ (putAll st.status [node] s).withStatus .hotplugNodeOnline :=
      mem_withStatus_putAll hi hne
    exact ⟨i, hstays⟩

/-- Whatever commands any number of administrators type, in whatever order their steps come and
however old the answers are that they act on: as long as each request comes from an online node
that knows its number, and no online node leaves by itself, the cluster is never emptied. -/
theorem someOnline_throughout (item : KrgNodeSet maxNodes) {st : Site ι maxNodes}
    (hstart : SomeOnline st) (events : List (SiteEvent ι))
    (hmembers : Along (siteStep item) FromMember st events) :
    Throughout (siteStep item) SomeOnline st events :=
  throughout_of_along (fun _ _ _ => siteStep_someOnline) hstart events hmembers

/-- Two administrators, on the two nodes of a cluster, read the status and want to remove all nodes but
their own. -/
def bothRemove : List (SiteEvent Bool) :=
  [.start true 0 0 ["del".toList, "-a".toList], .start false 1 1 ["del".toList, "-a".toList],
    .poll true true, .poll false true, .send true [1]]

/-- The first request leaves the node it comes from. -/
theorem first_removal_keeps_node :
    Throughout (siteStep (nodeSetOf 3 [])) SomeOnline
      (⟨twoOnline, fun _ => ⟨0, 0, [], [], true⟩⟩ : Site Bool 3) bothRemove :=
  someOnline_throughout _ (by decide) _ (by decide)

end Kerrighed.Krgadm
