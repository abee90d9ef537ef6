import Kerrighed.Common.Text
import Kerrighed.Common.Words
import Kerrighed.Krgadm.Cluster
import Kerrighed.Krgadm.KernelRequests

/-!
# The listing of the nodes, and the services that read it

`krgadm nodes` prints a line for each node that is present or online. The init script of the
Kerrighed services counts the lines with `online` in them to tell the boot node, the only one whose
services add nodes and start the scheduler.

The text says neither more nor less than the status it was printed from: each line can be told from
all others, and the word `online` stands in the lines of the online nodes only.
-/

namespace Kerrighed.Krgadm

open Kerrighed.Common Kerrighed.Hotplug

variable {maxNodes : ℕ}

/-- The text of a status. Numbers out of range have that of an invalid one. -/
def krgStatusStr (s : ℤ) : List Char :=
  let str := ["invalid", "possible", "present", "online"]
  (str.getD (if s ≤ 0 ∨ 3 < s then 0 else s.toNat) "").toList

/-- The line that is printed for a node. -/
def statusLine (node : ℤ) (s : ℤ) : List Char := printDecimal node ++ ':' :: krgStatusStr s

/-- The text that is printed for some nodes. -/
def statusText (printed : List (ℤ × Int8)) : List Char :=
  unlines (printed.map fun entry => statusLine entry.1 entry.2.toInt)

/-- `grep -c 'pattern'` for a pattern without special characters. -/
def grepCount (pattern text : List Char) : ℕ :=
  (lines text).countP fun line => decide (pattern <:+: line)

/-- What `krgadm nodes` writes to its standard output. -/
def nodesOutput (machine : Machine maxNodes) : List Char :=
  if machine.checkHotplug = false then []
  else
    statusText (((machine.answers.head?.bind fun status =>
      nodesStatus status machine.malloc none .nodesModeAll).map Prod.snd).getD [])

/-- The services run on the boot node, before other nodes are added. -/
def dCheckBootNode (machine : Machine maxNodes) : Bool :=
  commandOutput (printDecimal (grepCount "online".toList (nodesOutput machine)) ++ ['\n']) = ['1']

/-- The variables of the configuration file. -/
structure Configuration where
  addOpts : List Char
  legacySched : List Char
  deriving DecidableEq, Repr

/-- What the commands of the script find: `krgadm cluster`, `krgadm nodes`, `krgadm nodes add`, the
exit status of the scheduler script, and the pathnames that match a pattern. -/
structure Container (maxNodes : ℕ) where
  cluster : Cluster.Machine maxNodes
  listing : Machine maxNodes
  adding : Machine maxNodes
  krgLegacyScheduler : ℤ
  glob : List Char → List Arg

/-- The script runs in a Kerrighed container. -/
def dCheckKerrighed (c : Container maxNodes) : Bool :=
  (Cluster.cluster c.cluster []).any fun outcome => outcome.status = 0

/-- Start the scheduler as configured. -/
def dStartScheduler (cfg : Configuration) (c : Container maxNodes) : ℤ :=
  if cfg.legacySched = "true".toList then c.krgLegacyScheduler
  else if cfg.legacySched = "false".toList then 0
  else 1

/-- The exit status of the command to start the services, and the node sets that it hands to the
kernel. It has no result while it waits for nodes. -/
def dStart (cfg : Configuration) (c : Container maxNodes) : Option (ℤ × List (KrgNodeSet maxNodes)) :=
  if dCheckBootNode c.listing then do
    let status := if dStartScheduler cfg c = 0 then 0 else 1
    if cfg.addOpts = [] then some (status, [])
    else
      let (r, requests) ← nodes c.adding ("add".toList :: expand c.glob cfg.addOpts)
      some (if r = 0 then status else 1, requests)
  else some (0, [])

/-- The script with the argument `start`. -/
def services (cfg : Configuration) (c : Container maxNodes) :
    Option (ℤ × List (KrgNodeSet maxNodes)) :=
  if dCheckKerrighed c then dStart cfg c else some (0, [])

/-- The texts of present and online nodes are those of no other number. -/
theorem krgStatusStr_eq_iff {s : KrgStatus} (hs : s = .hotplugNodePresent ∨ s = .hotplugNodeOnline)
    (n : ℤ) : krgStatusStr n = krgStatusStr s.value ↔ n = s.value := by
  by_cases hout : n ≤ 0 ∨ 3 < n
  · have htext : krgStatusStr n = "invalid".toList := by
      simp only [krgStatusStr, if_pos hout]
      rfl
    rw [htext]
    rcases hs with rfl | rfl
    · exact iff_of_false (by decide) (by simp only [KrgStatus.value]; omega)
    · exact iff_of_false (by decide) (by simp only [KrgStatus.value]; omega)
  · have hrange : n = 1 ∨ n = 2 ∨ n = 3 := by omega
    rcases hs with rfl | rfl <;> rcases hrange with rfl | rfl | rfl <;> decide

/-- The text of a status has no newline and no colon. -/
theorem notMem_krgStatusStr (n : ℤ) : '\n' ∉ krgStatusStr n ∧ ':' ∉ krgStatusStr n := by
  by_cases hout : n ≤ 0 ∨ 3 < n
  · have htext : krgStatusStr n = "invalid".toList := by
      simp only [krgStatusStr, if_pos hout]
      rfl
    rw [htext]
    decide
  · have hrange : n = 1 ∨ n = 2 ∨ n = 3 := by omega
    rcases hrange with rfl | rfl | rfl <;> decide

/-- A line can be read back. -/
theorem statusLine_inj {m n : ℤ} {s t : ℤ} :
    statusLine m s = statusLine n t ↔ m = n ∧ krgStatusStr s = krgStatusStr t := by
  constructor
  · intro h
    have hcolon (k : ℤ) : ':' ∉ printDecimal k := notMem_printDecimal k (by decide) (by decide)
    obtain ⟨hnode, -, hstatus⟩ := (List.append_cons_inj_of_notMem (hcolon m)
      (notMem_krgStatusStr s).2).mp h
    exact ⟨printDecimal_injective hnode, hstatus⟩
  · rintro ⟨rfl, h⟩
    rw [statusLine, statusLine, h]

/-- A line is a line. -/
theorem newline_notMem_statusLine (n s : ℤ) : '\n' ∉ statusLine n s := by
  have hnode : '\n' ∉ printDecimal n := notMem_printDecimal n (by decide) (by decide)
  simp [statusLine, hnode, (notMem_krgStatusStr s).1]

/-- The lines of the text are those that were printed. -/
theorem lines_statusText (printed : List (ℤ × Int8)) :
    lines (statusText printed) = printed.map fun entry => statusLine entry.1 entry.2.toInt := by
  refine lines_unlines fun line hline => ?_
  obtain ⟨entry, -, rfl⟩ := List.mem_map.mp hline
  exact newline_notMem_statusLine _ _

/-- The line of a present or online node is printed exactly when the node is among those printed and
has the status. -/
theorem statusLine_mem_iff {s : KrgStatus} (hs : s = .hotplugNodePresent ∨ s = .hotplugNodeOnline)
    (status : KrgNodes maxNodes) (shown : KrgNodeSet maxNodes) (n : ℤ) :
    statusLine n s.value ∈ lines (statusText
        ((passing shown.flag maxNodes).map fun node => (node, status.char node.toNat))) ↔
      n ∈ shown.members ∧ n ∈ status.withStatus s := by
  rw [lines_statusText, List.map_map, List.mem_map, KrgNodeSet.members, ← mem_passing]
  constructor
  · rintro ⟨node, hnode, hline⟩
    obtain ⟨rfl, htext⟩ := statusLine_inj.mp hline
    refine ⟨hnode, mem_withStatus.mpr ⟨(mem_indexSet.mp (mem_passing.mp hnode)).1, ?_⟩⟩
    exact (krgStatusStr_eq_iff hs _).mp htext
  · rintro ⟨hnode, hstatus⟩
    refine ⟨n, hnode, statusLine_inj.mpr ⟨rfl, ?_⟩⟩
    exact (krgStatusStr_eq_iff hs _).mpr (mem_withStatus.mp hstatus).2

/-- The loop over a node set visits its members in increasing order. -/
theorem walk_krgNodeSetNext (nodeSet : KrgNodeSet maxNodes) :
    walk (krgNodeSetNext nodeSet) (maxNodes + 1) = some (passing nodeSet.flag maxNodes) :=
  walk_nextIndex nodeSet.flag (Nat.lt_succ_self maxNodes)

/-- Without a list, the nodes printed are those above the status possible. -/
theorem nodesStatus_all (status : KrgNodes maxNodes) (item : KrgNodeSet maxNodes)
    (given : Option (KrgNodeSet maxNodes)) :
    nodesStatus (some status) (some item) given .nodesModeAll =
      some (0, (passing (fun bcl => 1 < (status.char bcl).toInt) maxNodes).map
        fun node => (node, status.char node.toNat)) := by
  change (walk (krgNodeSetNext (addWhere _ (krgNodeSetClear item))) (maxNodes + 1)).bind _ = _
  rw [walk_krgNodeSetNext, passing_addWhere_clear]
  rfl

/-- With a list, the nodes printed are those of the list from the status present on. -/
theorem nodesStatus_list (status : KrgNodes maxNodes) (malloc : Option (KrgNodeSet maxNodes))
    (given : KrgNodeSet maxNodes) :
    ∃ shown : KrgNodeSet maxNodes, nodesStatus (some status) malloc (some given) .nodesModeList =
        some (0, (passing shown.flag maxNodes).map fun node => (node, status.char node.toNat)) ∧
      ∀ n, n ∈ shown.members ↔ n ∈ given.members ∧ 2 ≤ (status.char n.toNat).toInt := by
  obtain ⟨shown, hvisit, hshown⟩ := visit_dropWhere
    (fun node => (status.char node.toNat).toInt < 2) given (Nat.lt_succ_self maxNodes)
  refine ⟨shown, ?_, fun n => by rw [hshown, decide_eq_false_iff_not, Int.not_lt]⟩
  rw [nodesStatus]
  simp only [if_neg (show NodesMode.nodesModeList ≠ .nodesModeAll by decide)]
  change (visit krgNodeSetNext _ (maxNodes + 1) given).bind _ = _
  rw [hvisit]
  change (walk (krgNodeSetNext shown) (maxNodes + 1)).bind _ = _
  rw [walk_krgNodeSetNext]
  rfl

/-- The listing has a line for each present and each online node, of the whole cluster or of a list,
in increasing order, and from the lines the status of these nodes can be told. -/
theorem nodes_listing (status : KrgNodes maxNodes) (item given : KrgNodeSet maxNodes)
    (malloc : Option (KrgNodeSet maxNodes)) :
    ∃ all listed, nodesStatus (some status) (some item) none .nodesModeAll = some (0, all) ∧
      nodesStatus (some status) malloc (some given) .nodesModeList = some (0, listed) ∧
      (all.map Prod.fst).Pairwise (· < ·) ∧ (listed.map Prod.fst).Pairwise (· < ·) ∧
      ∀ s ∈ [KrgStatus.hotplugNodePresent, .hotplugNodeOnline], ∀ n,
        (statusLine n s.value ∈ lines (statusText all) ↔ n ∈ status.withStatus s) ∧
        (statusLine n s.value ∈ lines (statusText listed) ↔
          n ∈ given.members ∧ n ∈ status.withStatus s) := by
  obtain ⟨shown, hlist, hshown⟩ := nodesStatus_list status malloc given
  have hall := nodesStatus_all status item none
  rw [← passing_addWhere_clear _ item] at hall
  have hsorted (test : ℕ → Bool) : (((passing test maxNodes).map
      fun node => (node, status.char node.toNat)).map Prod.fst).Pairwise (· < ·) := by
    have hnodes : (passing test maxNodes).map (Prod.fst ∘ fun node => (node, status.char node.toNat)) =
        passing test maxNodes := List.map_id _
    rw [List.map_map, hnodes]
    exact passing_pairwise test maxNodes
  refine ⟨_, _, hall, hlist, hsorted _, hsorted _, fun s hs n => ?_⟩
  have hstatus : s = .hotplugNodePresent ∨ s = .hotplugNodeOnline := by simpa using hs
  have hvalue : 2 ≤ (s.value : ℤ) := by
    rcases hstatus with rfl | rfl <;> simp [KrgStatus.value]
  constructor
  · rw [statusLine_mem_iff hstatus, members_addWhere, members_clear, Finset.empty_union,
      mem_indexSet, and_iff_right_iff_imp]
    intro hmem
    obtain ⟨hrange, hchar⟩ := mem_withStatus.mp hmem
    exact ⟨hrange, decide_eq_true (by omega)⟩
  · rw [statusLine_mem_iff hstatus, hshown]
    refine and_congr_left fun hmem => and_iff_left ?_
    rw [(mem_withStatus.mp hmem).2]
    exact hvalue

/-- A pattern whose first character is not in the front of a list is found behind the front only. -/
theorem infix_append_of_notMem {α : Type*} {p : α} {ps front back : List α} (h : p ∉ front) :
    p :: ps <:+: front ++ back ↔ p :: ps <:+: back := by
  induction front with
  | nil => rfl
  | cons c front ih =>
    rw [List.mem_cons, not_or] at h
    obtain ⟨hc, hfront⟩ := h
    rw [List.cons_append, List.infix_cons_iff, ih hfront, or_iff_right]
    intro hprefix
    exact hc (List.cons_prefix_cons.mp hprefix).1

/-- The word `online` stands in the lines of the online nodes only. -/
theorem online_infix_statusLine (n s : ℤ) : "online".toList <:+: statusLine n s ↔ s = 3 := by
  have hfront : 'o' ∉ printDecimal n ++ [':'] := by
    have hnode : 'o' ∉ printDecimal n := notMem_printDecimal n (by decide) (by decide)
    simp [hnode]
  have hline : statusLine n s = (printDecimal n ++ [':']) ++ krgStatusStr s := by
    rw [statusLine, List.append_assoc]
    rfl
  rw [hline]
  change 'o' :: "nline".toList <:+: _ ↔ _
  rw [infix_append_of_notMem hfront]
  by_cases hout : s ≤ 0 ∨ 3 < s
  · have htext : krgStatusStr s = "invalid".toList := by
      simp only [krgStatusStr, if_pos hout]
      rfl
    rw [htext]
    exact iff_of_false (by decide) (by omega)
  · have hrange : s = 1 ∨ s = 2 ∨ s = 3 := by omega
    rcases hrange with rfl | rfl | rfl <;> decide

/-- Counting the entries that pass a test among those that pass a weaker one. -/
theorem countP_passing {test weaker : ℕ → Bool} (h : ∀ i, test i = true → weaker i = true) (n : ℕ) :
    (passing weaker n).countP (fun i => test i.toNat) = (passing test n).length := by
  rw [passing, passing, passingFrom, passingFrom, List.countP_map, List.length_map,
    List.countP_filter, List.countP_eq_length_filter]
  congr 1
  refine List.filter_congr fun i _ => ?_
  simp only [Function.comp_apply, Int.toNat_natCast]
  by_cases htest : test i = true
  · simp [htest, h i htest]
  · simp [htest]

/-- The number of lines with `online` is the number of online nodes. -/
theorem grepCount_online (status : KrgNodes maxNodes) :
    (grepCount "online".toList (statusText
      ((passing (fun bcl => 1 < (status.char bcl).toInt) maxNodes).map
        fun node => (node, status.char node.toNat))) : ℤ) = krgNodesNumOnline status := by
  have honline (i : ℕ) (h : status.has .hotplugNodeOnline i = true) :
      decide (1 < (status.char i).toInt) = true := by
    rw [has_iff] at h
    simp [h, KrgStatus.value]
  rw [grepCount, lines_statusText, List.map_map, List.countP_map, krgNodesNumOnline,
    nodesNum_eq_length, ← countP_passing honline maxNodes]
  congr 1
  refine List.countP_congr fun node _ => ?_
  simp only [Function.comp_apply, decide_eq_true_eq, has_iff]
  exact online_infix_statusLine node _

/-- The check finds the boot node exactly when the listing is printed and shows one online node. -/
theorem dCheckBootNode_iff {machine : Machine maxNodes} :
    dCheckBootNode machine = true ↔
      machine.checkHotplug = true ∧ machine.malloc.isSome = true ∧
        ∃ status, machine.answers.head? = some (some status) ∧
          (status.withStatus .hotplugNodeOnline).card = 1 := by
  have hnewline (n : ℤ) : '\n' ∉ printDecimal n := notMem_printDecimal n (by decide) (by decide)
  have hone : ['1'] = printDecimal 1 := by decide
  rw [dCheckBootNode, decide_eq_true_iff, commandOutput_line (hnewline _), hone,
    printDecimal_injective.eq_iff]
  -- A listing that fails prints nothing, and no line of nothing has the word.
  have hsilent (houtput : nodesOutput machine = []) :
      ¬ (grepCount "online".toList (nodesOutput machine) : ℤ) = 1 := by
    rw [houtput]
    decide
  by_cases hrunning : machine.checkHotplug = true
  · cases hanswers : machine.answers.head? with
    | none => simpa using hsilent (by simp [nodesOutput, hanswers, statusText, unlines])
    | some answer =>
      cases answer with
      | none => simpa using hsilent (by simp [nodesOutput, hanswers, nodesStatus, statusText, unlines])
      | some status =>
        cases hmemory : machine.malloc with
        | none =>
          simpa using hsilent (by
            simp [nodesOutput, hanswers, hmemory, nodesStatus, krgNodeSetCreate, statusText, unlines])
        | some item =>
          have houtput : nodesOutput machine = statusText
              ((passing (fun bcl => 1 < (status.char bcl).toInt) maxNodes).map
                fun node => (node, status.char node.toNat)) := by
            simp [nodesOutput, hrunning, hanswers, hmemory, nodesStatus_all]
          rw [houtput, grepCount_online, krgNodesNumOnline, nodesNum_eq]
          simp only [hrunning, Option.isSome_some, true_and, Option.some.injEq, exists_eq_left']
          exact Int.ofNat_inj
  · simpa [hrunning] using hsilent (by simp [nodesOutput, hrunning])

/-- The words of the option for all nodes are a command that adds all present nodes. -/
theorem nodes_add_all {machine : Machine maxNodes} {exit : ℤ} {requests : List (KrgNodeSet maxNodes)}
    (h : nodes machine ["add".toList, "--all".toList] = some (exit, requests))
    (hrequests : requests ≠ []) :
    ∃ s, machine.answers.head? = some (some s) ∧
      ∀ r ∈ requests, r.members = s.withStatus .hotplugNodePresent := by
  have hparse : parseCommand machine.malloc ["add".toList, "--all".toList] =
      .ok ⟨.add, none, -1, .nodesModeAll⟩ := rfl
  rw [nodes, hparse] at h
  split at h
  · exact absurd (Prod.mk.inj (Option.some.inj h)).2.symm hrequests
  · obtain ⟨⟨polled, o⟩, hadd, h⟩ := Option.bind_eq_some_iff.mp h
    obtain ⟨-, rfl⟩ := Prod.mk.inj (Option.some.inj h)
    cases hanswers : machine.answers with
    | nil => simp [hanswers, nodesAdd] at hadd
    | cons answer rest =>
      rw [hanswers] at hadd
      cases answer with
      | none =>
        obtain ⟨-, rfl⟩ := Prod.mk.inj (Option.some.inj hadd)
        exact absurd rfl hrequests
      | some s =>
        refine ⟨s, rfl, fun r hr => ?_⟩
        cases hmemory : machine.malloc with
        | none =>
          rw [hmemory] at hadd
          obtain ⟨-, rfl⟩ := Prod.mk.inj (Option.some.inj hadd)
          exact absurd rfl hrequests
        | some item =>
          obtain ⟨chosen, hget, hchosen, -⟩ := nodesGet_spec item s .hotplugNodePresent
          have hpresent : krgNodesGetPresent (some item) s = some chosen := hget
          rw [hmemory, nodesAdd] at hadd
          simp only [hpresent, Option.some.injEq, Prod.mk.injEq] at hadd
          obtain ⟨-, rfl⟩ := hadd
          rw [(mem_request.mp hr).1]
          exact hchosen

/-- When the services start, they hand the kernel nothing, or one mask of nodes that are present in an
answer of `nodes add`, and that only where one node is online in the answer that the listing was
printed from. With the option for all nodes the mask has all nodes that are present in the first
answer. -/
theorem services_requests (hmax : maxNodes ≤ 256) {cfg : Configuration} {c : Container maxNodes}
    {exit : ℤ} {requests : List (KrgNodeSet maxNodes)}
    (h : services cfg c = some (exit, requests)) (stack : HotplugNodeSet) :
    requests = [] ∨
      ((∃ listed, c.listing.answers.head? = some (some listed) ∧
          (listed.withStatus .hotplugNodeOnline).card = 1) ∧
        ∃ wanted s, wanted.Nonempty ∧
          requests.map (maskOf .krgNodesAdd stack) = [some wanted] ∧ some s ∈ c.adding.answers ∧
          wanted ⊆ s.withStatus .hotplugNodePresent ∧
          (expand c.glob cfg.addOpts = ["--all".toList] →
            c.adding.answers.head? = some (some s) ∧
              wanted = s.withStatus .hotplugNodePresent)) := by
  rw [services] at h
  split at h
  · rw [dStart] at h
    split at h
    · rename_i hboot
      obtain ⟨-, -, hone⟩ := dCheckBootNode_iff.mp hboot
      dsimp only at h
      by_cases hopts : cfg.addOpts = []
      · rw [if_pos hopts] at h
        exact Or.inl (Prod.mk.inj (Option.some.inj h)).2.symm
      · rw [if_neg hopts] at h
        obtain ⟨⟨r, added⟩, hnodes, h⟩ := Option.bind_eq_some_iff.mp h
        obtain ⟨-, rfl⟩ := Prod.mk.inj (Option.some.inj h)
        have haction : actionOf ("add".toList :: expand c.glob cfg.addOpts) = .add := by
          simp only [actionOf]
          rfl
        rcases nodes_requests hnodes with hnone | ⟨asked, s, rfl, hnonempty, hs, hadd | hdel⟩
        · exact Or.inl hnone
        · by_cases hall : expand c.glob cfg.addOpts = ["--all".toList]
          · rw [hall] at hnodes
            obtain ⟨first, hfirst, hmembers⟩ := nodes_add_all hnodes (by simp)
            have hasked := hmembers asked (List.mem_singleton_self asked)
            refine Or.inr ⟨hone, asked.members, first, hnonempty, ?_, List.mem_of_head? hfirst,
              hasked.subset, fun _ => ⟨hfirst, hasked⟩⟩
            rw [List.map_singleton, maskOf_eq hmax]
          · refine Or.inr ⟨hone, asked.members, s, hnonempty, ?_, hs, hadd.2,
              fun hexpand => absurd hexpand hall⟩
            rw [List.map_singleton, maskOf_eq hmax]
        · rw [haction] at hdel
          exact absurd hdel.1 (by decide)
    · exact Or.inl (Prod.mk.inj (Option.some.inj h)).2.symm
  · exact Or.inl (Prod.mk.inj (Option.some.inj h)).2.symm

/-- The boot node of a cluster of two, where the other node waits to be added. -/
def bootContainer : Container 2 where
  cluster := ⟨0, 1, some ⟨#v[1]⟩, some secondPresent, fun _ => 0⟩
  listing := ⟨true, some (nodeSetOf 2 []), [some secondPresent], 0, fun _ => 0, fun _ => 0⟩
  adding := ⟨true, some (nodeSetOf 2 []), [some secondPresent], 0, fun _ => 0, fun _ => 0⟩
  krgLegacyScheduler := 0
  glob _ := []

/-- The shipped configuration adds the other node. -/
theorem boot_services_requests :
    ∃ requests wanted,
      services ⟨"--all".toList, "true".toList⟩ bootContainer = some (0, requests) ∧
        requests.map (maskOf .krgNodesAdd ⟨7, ⟨Vector.replicate 4 1⟩⟩) = [some wanted] ∧
        wanted = secondPresent.withStatus .hotplugNodePresent := by
  have hservices : services ⟨"--all".toList, "true".toList⟩ bootContainer =
      some (0, [nodeSetOf 2 [1]]) := by
    decide
  rcases services_requests (by decide) hservices ⟨7, ⟨Vector.replicate 4 1⟩⟩ with
    hnone | ⟨-, wanted, s, -, hmasks, -, -, hall⟩
  · contradiction
  · obtain ⟨hfirst, hwanted⟩ := hall (by decide)
    obtain rfl := Option.some.inj (Option.some.inj hfirst)
    exact ⟨_, wanted, hservices, hmasks, hwanted⟩

end Kerrighed.Krgadm
