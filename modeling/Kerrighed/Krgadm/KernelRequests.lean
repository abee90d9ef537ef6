import Kerrighed.Hotplug.NodeMask
import Kerrighed.Krgadm.Administrators
import Kerrighed.Krgadm.NodeGrammar

/-!
# From the command line to the kernel

`krgadm nodes` takes the nodes as a text and hands them to the kernel as a mask. In between the
text is split and its numbers are converted, the nodes are collected in a vector of bytes, those
that cannot be moved are taken out of it, and the bits of a mask are set one by one.

Here the stages are put together: for a documented list of small numbers, in every spelling of the
option, the mask has exactly the bits of the nodes that the list denotes and that can be moved.
-/

namespace Kerrighed.Krgadm

open Kerrighed.Common Kerrighed.Hotplug

variable {maxNodes : ℕ}

/-- The numbers of an item fit an `int`, and the loop over an interval can count past its end. -/
def ListItem.Small : ListItem → Prop
  | .nodeId id => id.value ≤ 2147483647
  | .nodeRange first last => first.value ≤ 2147483647 ∧ last.value < 2147483647

instance (item : ListItem) : Decidable item.Small :=
  match item with
  | .nodeId id => inferInstanceAs (Decidable (id.value ≤ 2147483647))
  | .nodeRange first last =>
    inferInstanceAs (Decidable (first.value ≤ 2147483647 ∧ last.value < 2147483647))

instance (item : ListItem) (n : ℤ) : Decidable (item.Denotes n) :=
  match item with
  | .nodeId id => inferInstanceAs (Decidable (n = id.value))
  | .nodeRange first last => inferInstanceAs (Decidable ((first.value : ℤ) ≤ n ∧ n ≤ last.value))

/-- The possible nodes that a list denotes. -/
def denoted (maxNodes : ℕ) (items : List ListItem) : Finset ℤ :=
  indexSet (fun i => items.any fun item => decide (item.Denotes i)) maxNodes

/-- The ways to write the option for a list of nodes. -/
def nodesSpellings (text : Arg) : List (List Arg) :=
  [["-n".toList, text], ["-n".toList ++ text], ["--nodes".toList, text], ["--nodes=".toList ++ text]]

/-- The set of nodes that the kernel is given with a request. -/
def maskOf (f : HotplugFunction) (stack : HotplugNodeSet) (r : KrgNodeSet maxNodes) :
    Option (Finset ℤ) :=
  (f.call stack r).map fun call => call.data.v.members

/-- A small item names what it denotes. -/
theorem ListItem.Small.fitsInt {item : ListItem} (h : item.Small) : item.FitsInt := by
  cases item with
  | nodeId id => exact h
  | nodeRange first last => exact ⟨h.1, h.2.le⟩

/-- A small item is read. -/
theorem ListItem.Small.accepted {item : ListItem} (h : item.Small) : accepted item.text = true := by
  cases item with
  | nodeId id => exact accepted_nodeId id
  | nodeRange first last =>
    have hlast : asInt last = last.value :=
      toInt_clampLong_eq_iff.mpr (by have := h.2; omega)
    have hbelow : asInt last ≠ intMax := by
      rw [hlast, intMax]
      have := h.2
      omega
    rw [Krgadm.accepted, ← text_spelled, readItem_text]
    simpa [spelled, SpelledItem.item, NodeItem.endsAtMax, bare, Spelling.value, asInt] using hbelow

/-- The option is read as the option for a list of nodes, however it is written. -/
theorem getoptLong_spelling {text : Arg} (htext : text ≠ []) {option : List Arg}
    (hoption : option ∈ nodesSpellings text) :
    getoptLong nodesModeOptions option = ⟨[('n', some text)], false, []⟩ := by
  obtain ⟨c, cs, rfl⟩ := List.exists_cons_of_ne_nil htext
  simp only [nodesSpellings, List.mem_cons, List.not_mem_nil, or_false] at hoption
  rcases hoption with rfl | rfl | rfl | rfl <;> rfl

/-- The text of a list is not empty. -/
theorem listText_ne_nil {items : List ListItem} (hitems : items ≠ []) : listText items ≠ [] := by
  intro hempty
  have hsplit := splitOn_listText hitems
  rw [hempty] at hsplit
  obtain ⟨item, rest, rfl⟩ := List.exists_cons_of_ne_nil hitems
  obtain ⟨c, cs, htext, -⟩ := item.exists_cons
  simp [htext] at hsplit

/-- A list of small numbers is read as the nodes that it denotes. -/
theorem parseNodes_small {items : List ListItem} (hitems : items ≠ [])
    (hsmall : ∀ item ∈ items, item.Small) (item : KrgNodeSet maxNodes) :
    ∃ t, parseNodes (listText items) (krgNodeSetClear item) = .ok (1, t) ∧
      t.members = denoted maxNodes items := by
  have hparse := parseNodes_listText hitems (fun item hitem => (hsmall item hitem).accepted)
    (krgNodeSetClear item)
  refine ⟨_, hparse, ?_⟩
  ext n
  rw [mem_parseNodes hitems hparse, members_clear, denoted, mem_indexSet]
  simp only [Finset.notMem_empty, false_or, List.any_eq_true, decide_eq_true_eq]
  refine and_congr_right fun hn => ?_
  rw [Int.toNat_of_nonneg hn.1]
  refine exists_congr fun item => and_congr_right fun hitem => ?_
  exact names_iff_denotes (hsmall item hitem).fitsInt

/-- A command with the option is accepted, and has the nodes that the list denotes. -/
theorem parseCommand_list {items : List ListItem} (hitems : items ≠ [])
    (hsmall : ∀ item ∈ items, item.Small) {option : List Arg}
    (hoption : option ∈ nodesSpellings (listText items)) (item : KrgNodeSet maxNodes) (word : Arg) :
    ∃ t, parseCommand (some item) (word :: option) =
        .ok ⟨actionOf [word], some t, -1, .nodesModeList⟩ ∧
      t.members = denoted maxNodes items := by
  obtain ⟨t, hparse, hmembers⟩ := parseNodes_small hitems hsmall item
  refine ⟨t, ?_, hmembers⟩
  have hoptions := getoptLong_spelling (listText_ne_nil hitems) hoption
  have happly : applyOption (some item) (.start (actionOf [word])) ('n', some (listText items)) =
      .ok ⟨actionOf [word], some t, -1, .nodesModeList⟩ := by
    simp [applyOption, applyNodes, NodesCommand.start, krgNodeSetCreate, hparse]
  have haction : actionOf (word :: option) = actionOf [word] := rfl
  rw [parseCommand, List.tail_cons, hoptions, haction]
  simp only [List.foldlM_cons, List.foldlM_nil, happly, bind, Except.bind, pure, Except.pure]
  simp

/-- A request reaches the kernel as the set of its members. -/
theorem maskOf_eq (hmax : maxNodes ≤ 256) (f : HotplugFunction) (stack : HotplugNodeSet)
    (r : KrgNodeSet maxNodes) : maskOf f stack r = some r.members := by
  obtain ⟨call, hcall, hbits⟩ := call_eq hmax f stack r
  rw [maskOf, hcall, Option.map_some, members_of_bits hmax hbits]

/-- What a command asks for is what the kernel is given. -/
theorem Outcome.Asks.masks {o : Outcome maxNodes} {wanted : Finset ℤ} (h : o.Asks wanted)
    (hmax : maxNodes ≤ 256) (f : HotplugFunction) (stack : HotplugNodeSet) :
    o.requests.map (maskOf f stack) = if wanted = ∅ then [] else [some wanted] := by
  have hmap : o.requests.map (maskOf f stack) = (o.requests.map KrgNodeSet.members).map some := by
    rw [List.map_map]
    exact List.map_congr_left fun r _ => maskOf_eq hmax f stack r
  rw [hmap, h]
  split <;> rfl

/-- What a whole command line gives the kernel: nothing, or one mask that is not empty. An addition has
seen its nodes all present in one answer; a removal has seen them all online in its first answer, and
leaves out the node that `get_node_id` names. -/
theorem nodes_masks (hmax : maxNodes ≤ 256) {machine : Machine maxNodes} {argv : List Arg} {exit : ℤ}
    {requests : List (KrgNodeSet maxNodes)} (h : nodes machine argv = some (exit, requests))
    (stack : HotplugNodeSet) :
    requests = [] ∨ ∃ wanted s, wanted.Nonempty ∧
      ((actionOf argv = .add ∧ requests.map (maskOf .krgNodesAdd stack) = [some wanted] ∧
          some s ∈ machine.answers ∧ wanted ⊆ s.withStatus .hotplugNodePresent) ∨
        (actionOf argv = .del ∧ requests.map (maskOf .krgNodesRemove stack) = [some wanted] ∧
          machine.answers.head? = some (some s) ∧
          wanted ⊆ (s.withStatus .hotplugNodeOnline).erase machine.nodeId)) := by
  rcases nodes_requests h with rfl | ⟨r, s, rfl, hnonempty, hs, hadd | hdel⟩
  · exact Or.inl rfl
  · refine Or.inr ⟨r.members, s, hnonempty, Or.inl ⟨hadd.1, ?_, hs, hadd.2⟩⟩
    rw [List.map_singleton, maskOf_eq hmax]
  · refine Or.inr ⟨r.members, s, hnonempty, Or.inr ⟨hdel.1, ?_, hdel.2⟩⟩
    rw [List.map_singleton, maskOf_eq hmax]

/-- Removing all nodes from a cluster of two, seen from the first. -/
theorem del_all_masks :
    ∃ requests wanted, nodes (⟨true, some (nodeSetOf 3 []), [some twoOnline], 0, fun _ => 0,
        fun _ => 0⟩ : Machine 3) ["del".toList, "-a".toList] = some (0, requests) ∧
      requests.map (maskOf .krgNodesRemove ⟨7, ⟨Vector.replicate 4 1⟩⟩) = [some wanted] ∧
      wanted ⊆ (twoOnline.withStatus .hotplugNodeOnline).erase 0 := by
  have hnodes : nodes (⟨true, some (nodeSetOf 3 []), [some twoOnline], 0, fun _ => 0, fun _ => 0⟩ :
      Machine 3) ["del".toList, "-a".toList] = some (0, [nodeSetOf 3 [1]]) := by decide
  rcases nodes_masks (by decide) hnodes ⟨7, ⟨Vector.replicate 4 1⟩⟩ with
    hnone | ⟨wanted, s, -, hadd | ⟨-, hmasks, hfirst, hsub⟩⟩
  · contradiction
  · exact absurd hadd.1 (by decide)
  · obtain rfl := Option.some.inj (Option.some.inj hfirst)
    exact ⟨_, wanted, hnodes, hmasks, hsub⟩

/-- The value of a request is that of the kernel, if it is made. -/
theorem request_failed (call : KrgNodeSet maxNodes → ℤ) (chosen : KrgNodeSet maxNodes) :
    (request call chosen).ret = -1 ↔ ∃ r ∈ (request call chosen).requests, call r = -1 := by
  rw [request]
  split <;> simp

/-- For a documented list of small numbers, in every spelling of the option, `nodes del` gives the
kernel exactly the possible nodes that the list denotes, that are online and that are not the
current node, in one mask or in none, and fails exactly when the kernel refuses. -/
theorem del_list_masks (hmax : maxNodes ≤ 256) {items : List ListItem} (hitems : items ≠ [])
    (hsmall : ∀ item ∈ items, item.Small) {option : List Arg}
    (hoption : option ∈ nodesSpellings (listText items)) {machine : Machine maxNodes}
    (hrunning : machine.checkHotplug = true) (hmemory : machine.malloc.isSome = true)
    {first : KrgNodes maxNodes} (hfirst : machine.answers.head? = some (some first))
    (stack : HotplugNodeSet) :
    ∃ exit requests, nodes machine ("del".toList :: option) = some (exit, requests) ∧
      (requests.map (maskOf .krgNodesRemove stack) =
        if (denoted maxNodes items ∩ first.withStatus .hotplugNodeOnline).erase machine.nodeId = ∅
        then []
        else [some ((denoted maxNodes items ∩ first.withStatus .hotplugNodeOnline).erase
          machine.nodeId)]) ∧
      exit = if ∃ r ∈ requests, machine.krgNodesRemove r = -1 then 1 else 0 := by
  obtain ⟨item, hitem⟩ := Option.isSome_iff_exists.mp hmemory
  obtain ⟨t, hparse, hmembers⟩ := parseCommand_list hitems hsmall hoption item "del".toList
  obtain ⟨chosen, hremove, hchosen⟩ := nodesRemove_list first (some item) machine.nodeId
    machine.krgNodesRemove t (-1)
  have hasks := request_asks machine.krgNodesRemove chosen
  rw [hchosen, hmembers] at hasks
  refine ⟨_, _, ?_, hasks.masks hmax .krgNodesRemove stack, rfl⟩
  rw [nodes, hitem, hparse]
  have hdel : actionOf ["del".toList] = .del := by decide
  simp only [hrunning, hdel, hfirst]
  change (nodesRemove (some first) (some item) machine.nodeId machine.krgNodesRemove (some t) (-1)
    .nodesModeList).bind _ = _
  rw [hremove]
  simp only [Option.bind_some, request_failed]

/-- Removing nodes 1 to 5 of a cluster of three, of which two are online. -/
theorem del_range_masks :
    ∃ exit requests, nodes (⟨true, some (nodeSetOf 3 []), [some twoOnline], 0, fun _ => 0,
        fun _ => 0⟩ : Machine 3) ["del".toList, "-n1-5".toList] = some (exit, requests) ∧
      requests.map (maskOf .krgNodesRemove ⟨7, ⟨Vector.replicate 4 1⟩⟩) = [some {1}] ∧ exit = 0 := by
  have hsmall : ∀ item ∈ [ListItem.nodeRange (decimal 1) (decimal 5)], item.Small := by
    rw [List.forall_mem_singleton, ListItem.Small, value_decimal, value_decimal]
    decide
  have hoption : ["-n1-5".toList] ∈
      nodesSpellings (listText [.nodeRange (decimal 1) (decimal 5)]) := by
    have htext : listText [.nodeRange (decimal 1) (decimal 5)] = "1-5".toList := by decide
    rw [htext]
    decide
  have hrunning : (⟨true, some (nodeSetOf 3 []), [some twoOnline], 0, fun _ => 0,
    fun _ => 0⟩ : Machine 3).checkHotplug = true := rfl
  obtain ⟨exit, requests, hnodes, hmasks, hexit⟩ := del_list_masks (by decide) (by simp) hsmall
    hoption hrunning rfl rfl ⟨7, ⟨Vector.replicate 4 1⟩⟩
  have hwanted : (denoted 3 [.nodeRange (decimal 1) (decimal 5)] ∩
      twoOnline.withStatus .hotplugNodeOnline).erase 0 = {1} := by decide
  rw [hwanted] at hmasks
  exact ⟨exit, requests, hnodes, by simpa using hmasks, by simpa using hexit⟩

/-- Over answers that do not fail, the wait ends exactly when no node is waited for or when one answer
shows all of them present, and it does not fail. -/
theorem waitForNodes_snapshots (nodeSet : KrgNodeSet maxNodes) (snapshots : List (KrgNodes maxNodes)) :
    ((waitForNodes nodeSet (snapshots.map some)).isSome = true ↔
      nodeSet.members = ∅ ∨ ∃ s ∈ snapshots, nodeSet.members ⊆ s.withStatus .hotplugNodePresent) ∧
      ∀ r, waitForNodes nodeSet (snapshots.map some) = some r → r.2 = 0 := by
  by_cases hempty : nodeSet.members = ∅
  · rw [waitForNodes_of_empty hempty]
    refine ⟨by simp [hempty], fun r hr => ?_⟩
    obtain rfl := Option.some.inj hr
    rfl
  · rw [waitForNodes_eq (Finset.nonempty_iff_ne_empty.mpr hempty)]
    refine ⟨?_, fun r hr => ?_⟩
    · rw [Option.isSome_map, poll_isSome_iff]
      simp only [allPresent_iff, hempty, false_or]
    · obtain ⟨⟨polled, last⟩, hpoll, rfl⟩ := Option.map_eq_some_iff.mp hr
      obtain ⟨hread, before, rfl, -⟩ := poll_spec hpoll
      have hlast : last ∈ snapshots.map some := hread.subset (by simp)
      obtain ⟨s, -, rfl⟩ := List.mem_map.mp hlast
      rfl

/-- For a documented list of small numbers, in every spelling of the option, `nodes add` waits
exactly until one answer shows all nodes present that the list denotes and that were not online in
the first answer. It then gives the kernel exactly these nodes, in one mask or in none, and fails
exactly when the kernel refuses. -/
theorem add_list_masks (hmax : maxNodes ≤ 256) {items : List ListItem} (hitems : items ≠ [])
    (hsmall : ∀ item ∈ items, item.Small) {option : List Arg}
    (hoption : option ∈ nodesSpellings (listText items)) {machine : Machine maxNodes}
    (hrunning : machine.checkHotplug = true) (hmemory : machine.malloc.isSome = true)
    {first : KrgNodes maxNodes} {snapshots : List (KrgNodes maxNodes)}
    (hanswers : machine.answers = some first :: snapshots.map some) (stack : HotplugNodeSet) :
    ((nodes machine ("add".toList :: option)).isSome = true ↔
      denoted maxNodes items ⊆ first.withStatus .hotplugNodeOnline ∨
        ∃ s ∈ snapshots, denoted maxNodes items \ first.withStatus .hotplugNodeOnline ⊆
          s.withStatus .hotplugNodePresent) ∧
      ∀ exit requests, nodes machine ("add".toList :: option) = some (exit, requests) →
        (requests.map (maskOf .krgNodesAdd stack) =
          if denoted maxNodes items \ first.withStatus .hotplugNodeOnline = ∅ then []
          else [some (denoted maxNodes items \ first.withStatus .hotplugNodeOnline)]) ∧
        exit = if ∃ r ∈ requests, machine.krgNodesAdd r = -1 then 1 else 0 := by
  obtain ⟨item, hitem⟩ := Option.isSome_iff_exists.mp hmemory
  obtain ⟨t, hparse, hmembers⟩ := parseCommand_list hitems hsmall hoption item "add".toList
  obtain ⟨left, hleft, hlist⟩ := nodesAdd_list_eq t first
  rw [awaited, hmembers] at hleft
  have hadd : actionOf ["add".toList] = .add := by decide
  have hnodes : nodes machine ("add".toList :: option) =
      (waitForNodes left (snapshots.map some)).map fun r =>
        if r.2 = -1 then (1, []) else
          (if (request machine.krgNodesAdd left).ret = -1 then 1 else 0,
            (request machine.krgNodesAdd left).requests) := by
    rw [nodes, hitem, hparse]
    simp only [hrunning, hadd]
    change (nodesAdd machine.answers (some item) machine.krgNodesAdd (some t) (-1)
      .nodesModeList).bind _ = _
    rw [hanswers, hlist]
    cases waitForNodes left (snapshots.map some) with
    | none => rfl
    | some r =>
      simp only [Option.map_some, Option.bind_some]
      split <;> rfl
  have hasks := request_asks machine.krgNodesAdd left
  rw [hleft] at hasks
  obtain ⟨hends, hvalue⟩ := waitForNodes_snapshots left snapshots
  rw [hleft, Finset.sdiff_eq_empty_iff_subset] at hends
  rw [hnodes, Option.isSome_map]
  refine ⟨hends, fun exit requests hresult => ?_⟩
  obtain ⟨r, hr, heq⟩ := Option.map_eq_some_iff.mp hresult
  rw [hvalue r hr, if_neg (by decide)] at heq
  obtain ⟨rfl, rfl⟩ := Prod.mk.inj heq
  refine ⟨hasks.masks hmax .krgNodesAdd stack, ?_⟩
  simp only [request_failed]

/-- Adding nodes 0 and 1 when node 0 is online: the wait ends with an answer that shows node 1
present. -/
theorem add_range_masks :
    (nodes (⟨true, some (nodeSetOf 2 []), [some secondPresent, some bothOnline, some secondPresent], 0,
        fun _ => 0, fun _ => 0⟩ : Machine 2) ["add".toList, "--nodes=0-1".toList]).isSome = true := by
  have hsmall : ∀ item ∈ [ListItem.nodeRange (decimal 0) (decimal 1)], item.Small := by
    rw [List.forall_mem_singleton, ListItem.Small, value_decimal, value_decimal]
    decide
  have hoption : ["--nodes=0-1".toList] ∈
      nodesSpellings (listText [.nodeRange (decimal 0) (decimal 1)]) := by
    have htext : listText [.nodeRange (decimal 0) (decimal 1)] = "0-1".toList := by decide
    rw [htext]
    decide
  have hanswers : [some secondPresent, some bothOnline, some secondPresent] =
      some secondPresent :: [bothOnline, secondPresent].map some := rfl
  have hrunning : (⟨true, some (nodeSetOf 2 []), [some secondPresent, some bothOnline,
    some secondPresent], 0, fun _ => 0, fun _ => 0⟩ : Machine 2).checkHotplug = true := rfl
  have hends := add_list_masks (by decide) (by simp) hsmall hoption hrunning rfl hanswers
    ⟨7, ⟨Vector.replicate 4 1⟩⟩
  exact hends.1.mpr (Or.inr ⟨secondPresent, by simp, by decide⟩)

end Kerrighed.Krgadm
