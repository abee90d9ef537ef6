import Kerrighed.Common.Buffers
import Kerrighed.Krgadm.NodeGrammar

/-!
# Printing node sets

A node set is printed in brackets into a buffer of four bytes for each possible node and two
more. The function below is `node_set_str` over the memory that `malloc` returns.

Nothing is written outside of the buffer, and the text between the brackets is a node list that
the parser reads back. But no NUL is written behind the closing bracket.
-/

namespace Kerrighed.Krgadm

open Kerrighed.Common Kerrighed.Hotplug

variable {maxNodes : ℕ}

/-- The body of the loop: a separator behind the first node, and the number of the node. -/
def appendNode (l : ℕ) (st : List Char × ℕ) (node : ℤ) : Option (List Char × ℕ) := do
  let (str, i) ← if 1 < st.2 then (store st.1 st.2 ',').map (·, st.2 + 1) else some st
  let str ← snprintf str i l (printDecimal node)
  some (str, i + (printDecimal node).length)

/-- Print a node set: the memory behind the pointer returned. It has no result where the program
writes through a null pointer or outside of the buffer. -/
def nodeSetStr (malloc : Option (Vector Char (maxNodes * 4 + 2))) (nodeSet : KrgNodeSet maxNodes) :
    Option (List Char) := do
  let str ← store (← malloc).toList 0 '['
  let (_, st) ← visit (fun _ => krgNodeSetNext nodeSet)
    (fun st node => st.bind (appendNode (maxNodes * 4 + 2) · node)) (maxNodes + 1) (some (str, 1))
  let (str, i) ← st
  store str i ']'

/-- The members of a node set in increasing order, separated by commas. -/
def memberText (nodeSet : KrgNodeSet maxNodes) : List Char :=
  [','].intercalate ((passing nodeSet.flag maxNodes).map printDecimal)

/-- The number of a node of a small cluster has at most three digits. -/
theorem length_printDecimal_le {n : ℤ} (hn : 0 ≤ n ∧ n < 1000) : (printDecimal n).length ≤ 3 := by
  rw [printDecimal, if_neg (by omega), List.nil_append,
    Nat.length_toDigits_le_iff (by decide) (by decide)]
  omega

/-- A loop that leaves the node set alone runs its body on the members in increasing order. -/
theorem visit_unchanged {σ : Type*} (nodeSet : KrgNodeSet maxNodes) (body : σ → ℤ → σ) (s : σ) :
    visit (fun _ => krgNodeSetNext nodeSet) body (maxNodes + 1) s =
      some (passing nodeSet.flag maxNodes, (passing nodeSet.flag maxNodes).foldl body s) :=
  visit_eq_of_forall (fun _ _ _ _ => rfl) (Nat.lt_succ_self maxNodes)

/-- The first number follows the bracket. -/
theorem appendNode_first {old str : List Char} {n : ℤ} (h : Holds old str ['['])
    (hroom : 1 + (printDecimal n).length < old.length) :
    ∃ str', appendNode old.length (str, 1) n = some (str', ('[' :: printDecimal n).length) ∧
      Holds old str' ('[' :: printDecimal n) := by
  obtain ⟨str', hprint, hholds⟩ := h.snprintf old.length (printDecimal n) hroom (by omega)
  refine ⟨str', ?_, hholds⟩
  change (snprintf str 1 old.length (printDecimal n)).bind _ = _
  rw [show snprintf str 1 old.length (printDecimal n) = some str' from hprint, List.length_cons,
    Nat.add_comm]
  rfl

/-- Any other number follows a separator. -/
theorem appendNode_next {old str text : List Char} {n : ℤ} (h : Holds old str text)
    (htext : 1 < text.length)
    (hroom : text.length + 1 + (printDecimal n).length < old.length) :
    ∃ str', appendNode old.length (str, text.length) n =
        some (str', (text ++ ',' :: printDecimal n).length) ∧
      Holds old str' (text ++ ',' :: printDecimal n) := by
  have hcomma := h.store ','
  have hext := Holds.extend old text ',' (by omega)
  obtain ⟨str', hprint, hholds⟩ := hext.snprintf old.length (printDecimal n)
    (by rw [List.length_append]; exact hroom) (by omega)
  rw [List.length_append, List.length_singleton] at hprint
  rw [List.append_assoc] at hholds
  refine ⟨str', ?_, hholds⟩
  rw [appendNode, if_pos htext, hcomma]
  change (snprintf _ (text.length + 1) old.length (printDecimal n)).bind _ = _
  rw [hprint, List.length_append, List.length_cons]
  change some (_, text.length + 1 + (printDecimal n).length) = _
  congr 2
  omega

/-- The loop writes the numbers behind separators as long as there is room. -/
theorem appendNodes {old str text : List Char} {ns : List ℤ}
    (hns : ∀ n ∈ ns, (printDecimal n).length ≤ 3) (h : Holds old str text) (htext : 1 < text.length)
    (hroom : text.length + 4 * ns.length < old.length) :
    ∃ str', ns.foldl (fun st node => st.bind (appendNode old.length · node))
          (some (str, text.length)) =
        some (str', (text ++ (ns.map printDecimal).flatMap (',' :: ·)).length) ∧
      Holds old str' (text ++ (ns.map printDecimal).flatMap (',' :: ·)) := by
  induction ns generalizing str text with
  | nil => exact ⟨str, by simp, by simpa using h⟩
  | cons n rest ih =>
    have hn := hns n List.mem_cons_self
    rw [List.length_cons] at hroom
    obtain ⟨str', hstep, hholds⟩ := appendNode_next (n := n) h htext (by omega)
    have hlength : (text ++ ',' :: printDecimal n).length ≤ text.length + 4 := by
      rw [List.length_append, List.length_cons]
      omega
    obtain ⟨str'', hrest, hholds'⟩ := ih (fun m hm => hns m (List.mem_cons_of_mem _ hm)) hholds
      (by rw [List.length_append]; omega) (by omega)
    refine ⟨str'', ?_, ?_⟩
    · rw [List.foldl_cons, Option.bind_some, hstep, hrest]
      simp
    · simpa using hholds'

/-- The numbers of the members take at most four bytes each. -/
theorem printNodes {old str : List Char} {ns : List ℤ}
    (hns : ∀ n ∈ ns, (printDecimal n).length ≤ 3) (h : Holds old str ['['])
    (hroom : 1 + 4 * ns.length < old.length) :
    ∃ str', ns.foldl (fun st node => st.bind (appendNode old.length · node)) (some (str, 1)) =
        some (str', ('[' :: [','].intercalate (ns.map printDecimal)).length) ∧
      Holds old str' ('[' :: [','].intercalate (ns.map printDecimal)) := by
  cases ns with
  | nil => exact ⟨str, by simp [List.intercalate], by simpa [List.intercalate] using h⟩
  | cons n rest =>
    have hn := hns n List.mem_cons_self
    have hpos : 0 < (printDecimal n).length := by
      rw [printDecimal, List.length_append]
      exact Nat.add_pos_right _ Nat.length_toDigits_pos
    rw [List.length_cons] at hroom
    obtain ⟨str', hstep, hholds⟩ := appendNode_first (n := n) h (by omega)
    obtain ⟨str'', hrest, hholds'⟩ := appendNodes
      (fun m hm => hns m (List.mem_cons_of_mem _ hm)) hholds
      (by rw [List.length_cons]; omega) (by rw [List.length_cons]; omega)
    rw [List.map_cons, intercalate_cons, ← List.cons_append]
    refine ⟨str'', ?_, hholds'⟩
    rw [List.foldl_cons, Option.bind_some, hstep, hrest]

/-- What is printed lies in the buffer, and behind the closing bracket the buffer is the old one. -/
theorem nodeSetStr_eq (hmax : 1 ≤ maxNodes ∧ maxNodes ≤ 256) (nodeSet : KrgNodeSet maxNodes)
    (malloc : Vector Char (maxNodes * 4 + 2)) :
    nodeSetStr (some malloc) nodeSet = some ('[' :: memberText nodeSet ++
      ']' :: malloc.toList.drop ((memberText nodeSet).length + 2)) := by
  have hlength : malloc.toList.length = maxNodes * 4 + 2 := Vector.length_toList
  have hcount : (passing nodeSet.flag maxNodes).length ≤ maxNodes := by
    rw [passing, passingFrom, List.length_map]
    exact (List.length_filter_le _ _).trans (by simp)
  have hstart : Holds malloc.toList malloc.toList [] := by
    refine ⟨malloc.toList[0], ?_⟩
    rw [List.nil_append, List.length_nil, Nat.zero_add, List.getElem_cons_drop, List.drop_zero]
  have hbracket := Holds.extend malloc.toList [] '[' (by rw [List.length_nil]; omega)
  have hns : ∀ n ∈ passing nodeSet.flag maxNodes, (printDecimal n).length ≤ 3 := by
    intro n hn
    have hrange := (mem_indexSet.mp (mem_passing.mp hn)).1
    exact length_printDecimal_le (by omega)
  obtain ⟨str, hprint, hholds⟩ := printNodes hns hbracket (by omega)
  have hfirst : store malloc.toList 0 '[' = _ := hstart.store '['
  rw [hlength] at hprint
  change (store malloc.toList 0 '[').bind (fun str => Option.bind (visit _ _ _ (some (str, 1))) _) = _
  rw [hfirst, Option.bind_some, visit_unchanged, Option.bind_some, hprint]
  exact hholds.store ']'

/-- The members of a node set as the items of a list. -/
def memberItems (nodeSet : KrgNodeSet maxNodes) : List ListItem :=
  (passing nodeSet.flag maxNodes).map fun n => .nodeId (decimal n.toNat)

/-- The text between the brackets is a documented list. -/
theorem memberText_eq (nodeSet : KrgNodeSet maxNodes) :
    memberText nodeSet = listText (memberItems nodeSet) := by
  rw [memberText, listText, memberItems, List.map_map]
  congr 1
  refine List.map_congr_left fun n hn => ?_
  have hpos := (mem_indexSet.mp (mem_passing.mp hn)).1.1
  rw [printDecimal, if_neg (by omega), List.nil_append]
  change Nat.toDigits 10 n.natAbs = Nat.toDigits 10 n.toNat
  congr 1
  omega

/-- The text between the brackets has no NUL. -/
theorem nul_notMem_memberText (nodeSet : KrgNodeSet maxNodes) : '\x00' ∉ memberText nodeSet := by
  have hnul (n : ℤ) : '\x00' ∉ printDecimal n := notMem_printDecimal n (by decide) (by decide)
  rw [memberText]
  refine notMem_intercalate (by decide) fun text htext => ?_
  obtain ⟨n, -, rfl⟩ := List.mem_map.mp htext
  exact hnul n

/-- The text between the brackets is read back as the same set. -/
theorem parseNodes_memberText (hmax : maxNodes ≤ 256) (nodeSet item : KrgNodeSet maxNodes)
    (hne : nodeSet.members ≠ ∅) :
    ∃ t, parseNodes (memberText nodeSet) (krgNodeSetClear item) = .ok (1, t) ∧
      t.members = nodeSet.members ∧ t.Flags := by
  have hitems : memberItems nodeSet ≠ [] := by
    obtain ⟨n, hn⟩ := Finset.nonempty_iff_ne_empty.mpr hne
    have hpassing : n ∈ passing nodeSet.flag maxNodes := mem_passing.mpr hn
    exact List.ne_nil_of_mem (List.mem_map_of_mem hpassing)
  have haccepted : ∀ i ∈ memberItems nodeSet, accepted i.text = true :=
    List.forall_mem_map.mpr fun _ _ => accepted_nodeId _
  have hparse := parseNodes_listText hitems haccepted (krgNodeSetClear item)
  rw [memberText_eq]
  refine ⟨_, hparse, ?_, flags_addWhere _ (flags_clear item)⟩
  ext n
  rw [mem_parseNodes hitems hparse, members_clear]
  have hnames {m : ℤ} (hm : m ∈ nodeSet.members) :
      (ListItem.nodeId (decimal m.toNat)).Names n ↔ n = m := by
    have hrange := (mem_members.mp hm).1
    have hsmall : (ListItem.nodeId (decimal m.toNat)).FitsInt := by
      rw [ListItem.FitsInt, value_decimal]
      omega
    rw [names_iff_denotes hsmall, ListItem.Denotes, value_decimal, Int.toNat_of_nonneg hrange.1]
  constructor
  · rintro (hempty | ⟨-, i, hi, hn⟩)
    · simp at hempty
    · obtain ⟨m, hm, rfl⟩ := List.mem_map.mp hi
      have hmem : m ∈ nodeSet.members := mem_passing.mp hm
      rw [(hnames hmem).mp hn]
      exact hmem
  · intro hn
    exact .inr ⟨(mem_members.mp hn).1, _, List.mem_map_of_mem (mem_passing.mpr hn),
      (hnames hn).mpr rfl⟩

/-- Printing stays in the buffer, and what is printed between the brackets is read back as the
same set. The string that the caller reads is the bracketed list exactly when the buffer
already had a NUL behind the place of the closing bracket, where none is written. -/
theorem nodeSetStr_string_iff (hmax : 1 ≤ maxNodes ∧ maxNodes ≤ 256)
    (nodeSet item : KrgNodeSet maxNodes) (malloc : Vector Char (maxNodes * 4 + 2)) :
    (∃ str, nodeSetStr (some malloc) nodeSet = some str ∧
      cString str = some ('[' :: memberText nodeSet ++ [']']) ∧
      (nodeSet.members ≠ ∅ → ∃ t,
        parseNodes (memberText nodeSet) (krgNodeSetClear item) = .ok (1, t) ∧
        t.members = nodeSet.members ∧ (nodeSet.Flags → t.v = nodeSet.v))) ↔
      malloc[(memberText nodeSet).length + 2]? = some '\x00' := by
  have hnul : '\x00' ∉ '[' :: memberText nodeSet ++ [']'] := by
    simp [nul_notMem_memberText]
  have hstring : cString ('[' :: memberText nodeSet ++
      ']' :: malloc.toList.drop ((memberText nodeSet).length + 2)) =
        some ('[' :: memberText nodeSet ++ [']']) ↔
      malloc[(memberText nodeSet).length + 2]? = some '\x00' := by
    rw [List.append_cons, cString_append hnul, List.head?_drop, Vector.getElem?_toList]
  constructor
  · rintro ⟨str, hprint, hread, -⟩
    rw [nodeSetStr_eq hmax] at hprint
    obtain rfl := Option.some.inj hprint
    exact hstring.mp hread
  · intro hend
    refine ⟨_, nodeSetStr_eq hmax nodeSet malloc, hstring.mpr hend, fun hne => ?_⟩
    obtain ⟨t, hparse, hmembers, hflags⟩ := parseNodes_memberText hmax.2 nodeSet item hne
    exact ⟨t, hparse, hmembers, fun hs => v_eq_of_members hflags hs hmembers⟩

/-- In a buffer without a NUL the printed text has no end. -/
theorem nodeSetStr_unterminated :
    nodeSetStr (some (Vector.replicate 6 'x')) (⟨0, #v[1]⟩ : KrgNodeSet 1) =
        some "[0]xxx".toList ∧
      cString "[0]xxx".toList = none :=
  ⟨rfl, rfl⟩

/-- In a buffer of NULs the text of three nodes ends behind the bracket, and is read back. -/
theorem nodeSetStr_terminated :
    ∃ str, nodeSetStr (some (Vector.replicate 18 '\x00')) (⟨0, #v[1, 0, 1, 1]⟩ : KrgNodeSet 4) =
        some str ∧
      cString str = some "[0,2,3]".toList ∧
      ∃ t : KrgNodeSet 4, parseNodes "0,2,3".toList (krgNodeSetClear ⟨0, #v[0, 1, 0, 0]⟩) =
        .ok (1, t) ∧ t.members = {0, 2, 3} := by
  obtain ⟨str, hprint, hstring, hread⟩ := (nodeSetStr_string_iff (by decide)
    (⟨0, #v[1, 0, 1, 1]⟩ : KrgNodeSet 4) ⟨0, #v[0, 1, 0, 0]⟩ (Vector.replicate 18 '\x00')).mpr
      (by decide)
  obtain ⟨t, hparse, hmembers, -⟩ := hread (by decide)
  exact ⟨str, hprint, hstring, t, hparse, hmembers.trans (by decide)⟩

end Kerrighed.Krgadm
