import Kerrighed.Common.CNumbers
import Kerrighed.Hotplug.NodeSet

/-!
# Node lists

A node list such as `2,3,6-10` is split at its last comma, and each item is read with
`strtol`. The functions below are `parse_node`, `parse_nodes_interval` and `parse_nodes` on the
text as a list of characters; what they print is left out.

The loop over an interval counts with an `int`. Its increment is undefined at `INT_MAX`, which
the model keeps apart from a loop that is cut off because its fuel was too small.
-/

namespace Kerrighed.Krgadm

open Kerrighed.Common Kerrighed.Hotplug

variable {maxNodes : ℕ}

/-- `INT_MAX`. -/
def intMax : ℤ := 2147483647

/-- What keeps a parse from a result: the increment of an `int` at its limit, or fuel that does
not reach the end. -/
inductive Fault where
  | signedOverflow
  | cutOff
  deriving DecidableEq, Repr

/-- The text before and behind the last separator, found with `strrchr`. -/
def splitLast (sep : Char) : List Char → Option (List Char × List Char)
  | [] => none
  | c :: cs =>
    match splitLast sep cs with
    | some (before, behind) => some (c :: before, behind)
    | none => if c = sep then some ([], cs) else none

/-- Read one node: the value returned and the node set. -/
def parseNode (ch : List Char) (nodeSet : KrgNodeSet maxNodes) : ℤ × KrgNodeSet maxNodes :=
  let node := strtol 10 ch
  if node.2 = ch ∨ node.2 ≠ [] then (-1, nodeSet)
  else (1, (krgNodeSetAdd nodeSet (toInt node.1)).2)

/-- The loop from `node` to `node2`. -/
def addNodesFrom : ℕ → ℤ → ℤ → KrgNodeSet maxNodes → Except Fault (KrgNodeSet maxNodes)
  | 0, _, _, _ => .error .cutOff
  | fuel + 1, node, node2, nodeSet =>
    if node ≤ node2 then
      let nodeSet := (krgNodeSetAdd nodeSet node).2
      if node = intMax then .error .signedOverflow
      else addNodesFrom fuel (node + 1) node2 nodeSet
    else .ok nodeSet

/-- The loop over an interval, with fuel for all of its nodes. -/
def addNodes (node1 node2 : ℤ) : KrgNodeSet maxNodes → Except Fault (KrgNodeSet maxNodes) :=
  addNodesFrom ((node2 + 1 - node1).toNat + 1) node1 node2

/-- Read an interval. The number behind the first dash is read only when the number before it
ends at a dash. -/
def parseNodesInterval (ch : List Char) (nodeSet : KrgNodeSet maxNodes) :
    Except Fault (ℤ × KrgNodeSet maxNodes) :=
  let node1 := strtol 10 ch
  if node1.2 = ch ∨ node1.2.head? ≠ some '-' then .ok (-1, nodeSet)
  else
    let index := (ch.dropWhile (· ≠ '-')).tail
    let node2 := strtol 10 index
    if node2.2 = index ∨ node2.2 ≠ [] then .ok (-1, nodeSet)
    else do
      let nodeSet ← addNodes (toInt node1.1) (toInt node2.1) nodeSet
      .ok (1, nodeSet)

/-- The recursion on the text, with a bound on its depth. -/
def parseNodesWithin : ℕ → List Char → KrgNodeSet maxNodes → Except Fault (ℤ × KrgNodeSet maxNodes)
  | 0, _, _ => .error .cutOff
  | depth + 1, ch, nodeSet =>
    match splitLast ',' ch with
    | some (before, behind) => do
      let (r, nodeSet) ← parseNodesWithin depth before nodeSet
      if r = -1 then .ok (r, nodeSet) else parseNodesWithin depth behind nodeSet
    | none => if '-' ∈ ch then parseNodesInterval ch nodeSet else .ok (parseNode ch nodeSet)

/-- Read a node list into a node set: the value returned, 1 or -1, and the node set. -/
def parseNodes (ch : List Char) : KrgNodeSet maxNodes → Except Fault (ℤ × KrgNodeSet maxNodes) :=
  parseNodesWithin (ch.length + 1) ch

/-- A split puts the separator back between its two parts. -/
theorem splitLast_some {sep : Char} {ch before behind : List Char}
    (h : splitLast sep ch = some (before, behind)) : ch = before ++ sep :: behind := by
  induction ch generalizing before with
  | nil => simp [splitLast] at h
  | cons c cs ih =>
    rw [splitLast] at h
    cases hrest : splitLast sep cs with
    | some parts =>
      rw [hrest] at h
      obtain ⟨rfl, rfl⟩ := Prod.mk.inj (Option.some.inj h)
      rw [ih hrest, List.cons_append]
    | none =>
      rw [hrest] at h
      by_cases hc : c = sep
      · rw [if_pos hc] at h
        obtain ⟨rfl, rfl⟩ := Prod.mk.inj (Option.some.inj h)
        rw [hc, List.nil_append]
      · rw [if_neg hc] at h
        contradiction

/-- The loop over an interval is not cut off when its fuel exceeds the number of nodes. -/
theorem addNodesFrom_ne_cutOff {fuel : ℕ} {node node2 : ℤ} (hfuel : node2 + 1 - node < fuel)
    (hpos : 0 < fuel) (nodeSet : KrgNodeSet maxNodes) :
    addNodesFrom fuel node node2 nodeSet ≠ .error .cutOff := by
  induction fuel generalizing node nodeSet with
  | zero => omega
  | succ fuel ih =>
    rw [addNodesFrom]
    split
    · split
      · simp
      · exact ih (by omega) (by omega) _
    · simp

/-- The loop over an interval ends. -/
theorem addNodes_ne_cutOff (node1 node2 : ℤ) (nodeSet : KrgNodeSet maxNodes) :
    addNodes node1 node2 nodeSet ≠ .error .cutOff :=
  addNodesFrom_ne_cutOff (by omega) (Nat.succ_pos _) nodeSet

/-- A sequence fails in its first part or in the second one. -/
theorem bind_error {α β : Type} {x : Except Fault α} {f : α → Except Fault β} {fault : Fault}
    (h : x >>= f = .error fault) : x = .error fault ∨ ∃ a, x = .ok a ∧ f a = .error fault := by
  cases x with
  | error e => exact .inl (congrArg Except.error (Except.error.inj h))
  | ok a => exact .inr ⟨a, rfl, h⟩

/-- Reading an interval ends. -/
theorem parseNodesInterval_ne_cutOff (ch : List Char) (nodeSet : KrgNodeSet maxNodes) :
    parseNodesInterval ch nodeSet ≠ .error .cutOff := by
  rw [parseNodesInterval]
  split
  · simp
  · simp only
    split
    · simp
    · intro h
      rcases bind_error h with h | ⟨s, -, h⟩
      · exact addNodes_ne_cutOff _ _ nodeSet h
      · contradiction

/-- The recursion ends within the length of the text. -/
theorem parseNodesWithin_ne_cutOff {depth : ℕ} {ch : List Char} (hdepth : ch.length < depth)
    (nodeSet : KrgNodeSet maxNodes) : parseNodesWithin depth ch nodeSet ≠ .error .cutOff := by
  induction depth generalizing ch nodeSet with
  | zero => omega
  | succ depth ih =>
    rw [parseNodesWithin]
    cases hsplit : splitLast ',' ch with
    | none =>
      simp only
      split
      · exact parseNodesInterval_ne_cutOff ch nodeSet
      · simp
    | some parts =>
      obtain ⟨before, behind⟩ := parts
      have hlength := congrArg List.length (splitLast_some hsplit)
      rw [List.length_append, List.length_cons] at hlength
      intro h
      rcases bind_error h with h | ⟨⟨r, s⟩, -, h⟩
      · exact ih (by omega) nodeSet h
      · change (if r = -1 then .ok (r, s) else parseNodesWithin depth behind s) = _ at h
        split at h
        · contradiction
        · exact ih (by omega) s h

/-- Reading a node list ends. -/
theorem parseNodes_ne_cutOff (ch : List Char) (nodeSet : KrgNodeSet maxNodes) :
    parseNodes ch nodeSet ≠ .error .cutOff :=
  parseNodesWithin_ne_cutOff (Nat.lt_succ_self _) nodeSet

end Kerrighed.Krgadm
