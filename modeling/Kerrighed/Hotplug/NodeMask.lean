import Kerrighed.Hotplug.NodeSet

/-!
# Node masks

The kernel takes a node set as a mask of 256 bits in four longs. The bits are set with `btsl`,
which addresses the mask in units of 32 bits. The functions below are those of
`krgnodemask.h`, and `krg_nodes_add`, `krg_nodes_remove`, `krg_nodes_fail` and
`krg_nodes_poweroff` up to the call of the kernel, whose value each of them returns.

A request is built in a local variable, and `stack` is what this variable holds before.
-/

namespace Kerrighed.Hotplug

open Kerrighed.Common

/-- `KERRIGHED_HARD_MAX_NODES`. -/
def hardMaxNodes : ℕ := 256

/-- The mask: an array of unsigned longs. -/
structure KrgNodeMask where
  bits : Vector (BitVec 64) 4
  deriving DecidableEq

/-- A bit of the mask, the longs being read as little-endian words. -/
def KrgNodeMask.bit (mask : KrgNodeMask) (i : ℕ) : Bool :=
  (mask.bits[i / 64]?.getD 0).getLsbD (i % 64)

/-- The 32 bits at an index of the mask. -/
def KrgNodeMask.unit (mask : KrgNodeMask) (j : ℕ) : BitVec 32 :=
  (mask.bits[j / 2]?.getD 0).extractLsb' (32 * (j % 2)) 32

/-- Replace the 32 bits at an index of the mask, the lower or the upper half of a long. -/
def KrgNodeMask.setUnit (mask : KrgNodeMask) (j : ℕ) (u : BitVec 32) : KrgNodeMask :=
  ⟨mask.bits.setIfInBounds (j / 2)
    (if j % 2 = 0 then mask.unit (j + 1) ++ u else u ++ mask.unit (j - 1))⟩

/-- `btsl` with a bit index in a register. It has no result outside of the mask. -/
def setBit (nr : ℕ) (mask : KrgNodeMask) : Option KrgNodeMask :=
  if nr / 32 < 8 then
    some (mask.setUnit (nr / 32) (mask.unit (nr / 32) ||| BitVec.twoPow 32 (nr % 32)))
  else none

/-- Set the bit of a node. -/
def krgnodeSet (node : ℕ) (mask : KrgNodeMask) : Option KrgNodeMask := setBit node mask

/-- Clear the mask. -/
def krgnodesClear (_mask : KrgNodeMask) : KrgNodeMask := ⟨Vector.replicate 4 0⟩

/-- The node set of a request. -/
structure HotplugNodeSet where
  subclusterid : ℤ
  v : KrgNodeMask
  deriving DecidableEq

/-- The services of the kernel that take a node set. -/
inductive KsysHotplug where
  | ksysHotplugAdd
  | ksysHotplugRemove
  | ksysHotplugFail
  | ksysHotplugPoweroff
  deriving DecidableEq, Repr

/-- A call of `call_kerrighed_services`. -/
structure ServiceCall where
  service : KsysHotplug
  data : HotplugNodeSet
  deriving DecidableEq

variable {maxNodes : ℕ}

/-- The loop that sets the bits of the nodes in a node set. -/
def setNodes (nodeSet : KrgNodeSet maxNodes) (mask : KrgNodeMask) : Option KrgNodeMask :=
  (List.range maxNodes).foldlM
    (fun mask i => if nodeSet.flag i then krgnodeSet i mask else some mask) mask

/-- Fill the mask of a request and call the kernel. -/
def callWithMask (service : KsysHotplug) (nodeSet : HotplugNodeSet)
    (krgNodeSet : KrgNodeSet maxNodes) : Option ServiceCall := do
  let v ← setNodes krgNodeSet (krgnodesClear nodeSet.v)
  some ⟨service, { nodeSet with v }⟩

/-- Ask the kernel to add nodes. -/
def krgNodesAdd (stack : HotplugNodeSet) (krgNodeSet : KrgNodeSet maxNodes) : Option ServiceCall :=
  callWithMask .ksysHotplugAdd { stack with subclusterid := krgNodeSet.subclusterid } krgNodeSet

/-- Ask the kernel to remove nodes. -/
def krgNodesRemove (stack : HotplugNodeSet) (krgNodeSet : KrgNodeSet maxNodes) :
    Option ServiceCall :=
  callWithMask .ksysHotplugRemove { stack with subclusterid := krgNodeSet.subclusterid } krgNodeSet

/-- Ask the kernel to let nodes fail. The identifier is not filled in. -/
def krgNodesFail (stack : HotplugNodeSet) (krgNodeSet : KrgNodeSet maxNodes) :
    Option ServiceCall :=
  callWithMask .ksysHotplugFail stack krgNodeSet

/-- Ask the kernel to power nodes off. The identifier is not filled in. -/
def krgNodesPoweroff (stack : HotplugNodeSet) (krgNodeSet : KrgNodeSet maxNodes) :
    Option ServiceCall :=
  callWithMask .ksysHotplugPoweroff stack krgNodeSet

/-- The functions that hand a node set to the kernel. -/
inductive HotplugFunction where
  | krgNodesAdd
  | krgNodesRemove
  | krgNodesFail
  | krgNodesPoweroff
  deriving DecidableEq, Repr

/-- The call that a function makes, over a stack and for a node set. -/
def HotplugFunction.call : HotplugFunction → HotplugNodeSet → KrgNodeSet maxNodes → Option ServiceCall
  | .krgNodesAdd => Hotplug.krgNodesAdd
  | .krgNodesRemove => Hotplug.krgNodesRemove
  | .krgNodesFail => Hotplug.krgNodesFail
  | .krgNodesPoweroff => Hotplug.krgNodesPoweroff

/-- The set of ids that a mask stands for. -/
def KrgNodeMask.members (mask : KrgNodeMask) : Finset ℤ := indexSet mask.bit hardMaxNodes

/-- A unit of a mask holds 32 of its bits. -/
theorem getLsbD_unit (mask : KrgNodeMask) (j k : ℕ) (hk : k < 32) :
    (mask.unit j).getLsbD k = mask.bit (32 * j + k) := by
  have hword : (32 * j + k) / 64 = j / 2 := by omega
  have hbit : (32 * j + k) % 64 = 32 * (j % 2) + k := by omega
  rw [KrgNodeMask.unit, KrgNodeMask.bit, BitVec.getLsbD_extractLsb', hword, hbit]
  simp [hk]

/-- Replacing a unit changes its bits and no others. -/
theorem bit_setUnit (mask : KrgNodeMask) {j : ℕ} (hj : j < 8) (u : BitVec 32) (i : ℕ) :
    (mask.setUnit j u).bit i = if i / 32 = j then u.getLsbD (i % 32) else mask.bit i := by
  rw [KrgNodeMask.bit, KrgNodeMask.setUnit]
  simp only [Vector.getElem?_setIfInBounds]
  by_cases hword : j / 2 = i / 64
  · rw [if_pos hword, if_pos (by omega), Option.getD_some]
    by_cases hlow : j % 2 = 0
    · rw [if_pos hlow, BitVec.getLsbD_append]
      by_cases hi : i / 32 = j
      · rw [if_pos hi, if_pos (by omega), show i % 64 = i % 32 by omega]
      · rw [if_neg hi, if_neg (by omega), getLsbD_unit mask _ _ (by omega)]
        congr 1
        omega
    · rw [if_neg hlow, BitVec.getLsbD_append]
      by_cases hi : i / 32 = j
      · rw [if_pos hi, if_neg (by omega), show i % 64 - 32 = i % 32 by omega]
      · rw [if_neg hi, if_pos (by omega), getLsbD_unit mask _ _ (by omega)]
        congr 1
        omega
  · rw [if_neg hword, if_neg (by omega)]
    rfl

/-- Setting a bit sets it and no other. -/
theorem setBit_eq {nr : ℕ} (hnr : nr < 256) (mask : KrgNodeMask) :
    ∃ mask', setBit nr mask = some mask' ∧ ∀ i, mask'.bit i = (decide (i = nr) || mask.bit i) := by
  refine ⟨_, if_pos (by omega), fun i => ?_⟩
  rw [bit_setUnit mask (by omega)]
  by_cases hunit : i / 32 = nr / 32
  · rw [if_pos hunit, BitVec.getLsbD_or, BitVec.getLsbD_twoPow, getLsbD_unit mask _ _ (by omega),
      show 32 * (nr / 32) + i % 32 = i by omega, Bool.or_comm]
    congr 1
    simp only [show nr % 32 < 32 by omega, decide_true, Bool.true_and, decide_eq_decide]
    omega
  · have hne : i ≠ nr := fun heq => hunit (heq ▸ rfl)
    simp [hunit, hne]

/-- A cleared mask has no bit set. -/
@[simp]
theorem bit_clear (mask : KrgNodeMask) (i : ℕ) : (krgnodesClear mask).bit i = false := by
  simp only [KrgNodeMask.bit, krgnodesClear, Vector.getElem?_replicate]
  split <;> simp

/-- The loop has set the bits of the nodes it has seen. -/
theorem setNodesBelow_eq (nodeSet : KrgNodeSet maxNodes) (mask : KrgNodeMask) {k : ℕ} (hk : k ≤ 256) :
    ∃ mask', (List.range k).foldlM
        (fun mask i => if nodeSet.flag i then krgnodeSet i mask else some mask) mask = some mask' ∧
      ∀ i, mask'.bit i = ((decide (i < k) && nodeSet.flag i) || mask.bit i) := by
  induction k with
  | zero => exact ⟨mask, rfl, fun i => by simp⟩
  | succ k ih =>
    obtain ⟨before, hbefore, hbits⟩ := ih (by omega)
    have hlt (i : ℕ) : i < k + 1 ↔ i < k ∨ i = k := by omega
    rw [List.range_succ, List.foldlM_append, hbefore]
    by_cases hflag : nodeSet.flag k = true
    · have hk256 : k < 256 := by omega
      obtain ⟨after, hafter, hbit⟩ := setBit_eq hk256 before
      refine ⟨after, ?_, fun i => ?_⟩
      · change (if nodeSet.flag k then krgnodeSet k before else some before).bind some = _
        rw [if_pos hflag, krgnodeSet, hafter]
        rfl
      · rw [hbit, hbits]
        by_cases hik : i = k
        · simp [hik, hflag]
        · simp [hik, hlt]
    · refine ⟨before, ?_, fun i => ?_⟩
      · change (if nodeSet.flag k then krgnodeSet k before else some before).bind some = _
        rw [if_neg hflag]
        rfl
      · rw [hbits]
        by_cases hik : i = k
        · simp [hik, hflag]
        · simp [hik, hlt]

/-- A function calls the kernel with the bits of the members set. -/
theorem callWithMask_eq (hmax : maxNodes ≤ 256) (service : KsysHotplug) (nodeSet : HotplugNodeSet)
    (krgNodeSet : KrgNodeSet maxNodes) :
    ∃ v, callWithMask service nodeSet krgNodeSet = some ⟨service, nodeSet.subclusterid, v⟩ ∧
      ∀ i, v.bit i = (decide (i < maxNodes) && krgNodeSet.flag i) := by
  obtain ⟨v, hv, hbits⟩ := setNodesBelow_eq krgNodeSet (krgnodesClear nodeSet.v) hmax
  refine ⟨v, ?_, fun i => by simp [hbits]⟩
  rw [callWithMask, setNodes, hv]
  rfl

/-- Each of the functions fills in the mask. -/
theorem call_eq (hmax : maxNodes ≤ 256) (f : HotplugFunction) (stack : HotplugNodeSet)
    (krgNodeSet : KrgNodeSet maxNodes) :
    ∃ call, f.call stack krgNodeSet = some call ∧
      ∀ i, call.data.v.bit i = (decide (i < maxNodes) && krgNodeSet.flag i) := by
  cases f with
  | krgNodesAdd =>
    obtain ⟨v, hv, hbits⟩ := callWithMask_eq hmax .ksysHotplugAdd
      { stack with subclusterid := krgNodeSet.subclusterid } krgNodeSet
    exact ⟨_, hv, hbits⟩
  | krgNodesRemove =>
    obtain ⟨v, hv, hbits⟩ := callWithMask_eq hmax .ksysHotplugRemove
      { stack with subclusterid := krgNodeSet.subclusterid } krgNodeSet
    exact ⟨_, hv, hbits⟩
  | krgNodesFail =>
    obtain ⟨v, hv, hbits⟩ := callWithMask_eq hmax .ksysHotplugFail stack krgNodeSet
    exact ⟨_, hv, hbits⟩
  | krgNodesPoweroff =>
    obtain ⟨v, hv, hbits⟩ := callWithMask_eq hmax .ksysHotplugPoweroff stack krgNodeSet
    exact ⟨_, hv, hbits⟩

/-- The set that a mask stands for is the node set that it was made of. -/
theorem members_of_bits (hmax : maxNodes ≤ 256) {mask : KrgNodeMask}
    {krgNodeSet : KrgNodeSet maxNodes}
    (hbits : ∀ i, mask.bit i = (decide (i < maxNodes) && krgNodeSet.flag i)) :
    mask.members = krgNodeSet.members := by
  ext n
  rw [KrgNodeMask.members, KrgNodeSet.members, mem_indexSet, mem_indexSet, hbits, hardMaxNodes,
    Bool.and_eq_true, decide_eq_true_iff]
  constructor
  · rintro ⟨hrange, hn, hflag⟩
    exact ⟨by omega, hflag⟩
  · rintro ⟨hrange, hflag⟩
    exact ⟨by omega, by omega, hflag⟩

/-- The mask of a request has exactly the bits of the nodes in the set, so the set can be read
back from it, and the requests of two different sets differ. -/
theorem hotplugMask_exact (hmax : maxNodes ≤ 256) (f : HotplugFunction) (stack : HotplugNodeSet)
    (krgNodeSet : KrgNodeSet maxNodes) :
    ∃ call, f.call stack krgNodeSet = some call ∧
      (∀ i < 256, call.data.v.bit i = true ↔ i < maxNodes ∧ krgNodeSetContains krgNodeSet i ≠ 0) ∧
      call.data.v.members = krgNodeSet.members ∧
      ∀ (g : HotplugFunction) (stack' : HotplugNodeSet) (krgNodeSet' : KrgNodeSet maxNodes),
        g.call stack' krgNodeSet' = some call → krgNodeSet'.members = krgNodeSet.members := by
  obtain ⟨call, hcall, hbits⟩ := call_eq hmax f stack krgNodeSet
  refine ⟨call, hcall, fun i _ => ?_, members_of_bits hmax hbits, fun g stack' other hother => ?_⟩
  · rw [hbits, Bool.and_eq_true, decide_eq_true_iff]
    refine and_congr_right fun hi => ?_
    have hrange : (0 : ℤ) ≤ i ∧ (i : ℤ) < maxNodes := by omega
    rw [krgNodeSetContains, if_pos hrange, KrgNodeSet.flag, decide_eq_true_iff, Int.toNat_natCast,
      ne_eq, ne_eq, not_iff_not]
    exact ⟨fun h => by rw [h]; rfl, fun h => Int8.toInt_inj.mp h⟩
  · obtain ⟨call', hcall', hbits'⟩ := call_eq hmax g stack' other
    rw [hother] at hcall'
    obtain rfl := Option.some.inj hcall'
    rw [← members_of_bits hmax hbits', members_of_bits hmax hbits]

/-- A small cluster's request, read back. -/
theorem hotplugMask_exact_two :
    ∃ call, HotplugFunction.krgNodesFail.call ⟨7, ⟨Vector.replicate 4 1⟩⟩
        (⟨0, #v[0, 1]⟩ : KrgNodeSet 2) = some call ∧ call.data.v.members = {1} := by
  obtain ⟨call, hcall, -, hmembers, -⟩ := hotplugMask_exact (by decide) .krgNodesFail
    ⟨7, ⟨Vector.replicate 4 1⟩⟩ (⟨0, #v[0, 1]⟩ : KrgNodeSet 2)
  exact ⟨call, hcall, hmembers.trans (by decide)⟩

/-- The loop depends on the members only. -/
theorem setNodes_congr {s t : KrgNodeSet maxNodes} (h : s.members = t.members) (mask : KrgNodeMask) :
    setNodes s mask = setNodes t mask := by
  have hbelow {k : ℕ} (hk : k ≤ maxNodes) :
      (List.range k).foldlM (fun mask i => if s.flag i then krgnodeSet i mask else some mask) mask =
        (List.range k).foldlM
          (fun mask i => if t.flag i then krgnodeSet i mask else some mask) mask := by
    induction k with
    | zero => rfl
    | succ k ih =>
      rw [List.range_succ, List.foldlM_append, List.foldlM_append, ih (by omega)]
      simp only [List.foldlM_cons, List.foldlM_nil, flag_of_members h (show k < maxNodes by omega)]
  exact hbelow le_rfl

/-- The fields of a request: the mask comes from the node set, and the identifier from the node
set or from the stack. -/
theorem call_data {f : HotplugFunction} {stack : HotplugNodeSet} {krgNodeSet : KrgNodeSet maxNodes}
    {call : ServiceCall} (h : f.call stack krgNodeSet = some call) :
    setNodes krgNodeSet (krgnodesClear stack.v) = some call.data.v ∧
      call.data.subclusterid = if f = .krgNodesAdd ∨ f = .krgNodesRemove
        then krgNodeSet.subclusterid else stack.subclusterid := by
  have hcall {service : KsysHotplug} {nodeSet : HotplugNodeSet}
      (hwith : callWithMask service nodeSet krgNodeSet = some call) :
      setNodes krgNodeSet (krgnodesClear nodeSet.v) = some call.data.v ∧
        call.data.subclusterid = nodeSet.subclusterid := by
    obtain ⟨v, hv, heq⟩ := Option.bind_eq_some_iff.mp hwith
    obtain rfl := Option.some.inj heq
    exact ⟨hv, rfl⟩
  cases f with
  | krgNodesAdd => exact hcall h
  | krgNodesRemove => exact hcall h
  | krgNodesFail => exact hcall h
  | krgNodesPoweroff => exact hcall h

/-- Two calls on equal node sets make equal requests that carry the identifier of the set
exactly when the function fills the identifier in, or when both stacks already held it. -/
theorem request_depends_iff {f : HotplugFunction} {stack stack' : HotplugNodeSet}
    {krgNodeSet krgNodeSet' : KrgNodeSet maxNodes} {call call' : ServiceCall}
    (hid : krgNodeSet.subclusterid = krgNodeSet'.subclusterid)
    (hmembers : krgNodeSet.members = krgNodeSet'.members)
    (hcall : f.call stack krgNodeSet = some call) (hcall' : f.call stack' krgNodeSet' = some call') :
    (call.data = call'.data ∧ call.data.subclusterid = krgNodeSet.subclusterid) ↔
      (f = .krgNodesAdd ∨ f = .krgNodesRemove) ∨
        (stack.subclusterid = krgNodeSet.subclusterid ∧
          stack'.subclusterid = krgNodeSet.subclusterid) := by
  obtain ⟨hmask, hfield⟩ := call_data hcall
  obtain ⟨hmask', hfield'⟩ := call_data hcall'
  have hv : call.data.v = call'.data.v := by
    rw [setNodes_congr hmembers] at hmask
    exact Option.some.inj (hmask.symm.trans hmask')
  have hdata : call.data = call'.data ↔ call.data.subclusterid = call'.data.subclusterid := by
    refine ⟨congrArg _, fun h => ?_⟩
    obtain ⟨service, id, v⟩ := call
    obtain ⟨service', id', v'⟩ := call'
    obtain rfl : id = id' := h
    obtain rfl : v = v' := hv
    rfl
  rw [hdata, hfield, hfield']
  by_cases hf : f = .krgNodesAdd ∨ f = .krgNodesRemove
  · simp [hf, hid]
  · rw [if_neg hf, if_neg hf]
    constructor
    · rintro ⟨hsame, hset⟩
      exact .inr ⟨hset, hsame ▸ hset⟩
    · rintro (h | ⟨hset, hset'⟩)
      · exact absurd h hf
      · exact ⟨hset.trans hset'.symm, hset⟩

/-- The identifier of a request to let nodes fail is whatever the stack held. -/
theorem request_depends_on_stack :
    ∃ call call', HotplugFunction.krgNodesFail.call ⟨7, ⟨Vector.replicate 4 0⟩⟩
          (⟨0, #v[1]⟩ : KrgNodeSet 1) = some call ∧
        HotplugFunction.krgNodesFail.call ⟨8, ⟨Vector.replicate 4 0⟩⟩
          (⟨0, #v[1]⟩ : KrgNodeSet 1) = some call' ∧
        call.data.subclusterid = 7 ∧ call'.data.subclusterid = 8 :=
  ⟨_, _, rfl, rfl, rfl, rfl⟩

/-- A request to add nodes does not depend on the stack. -/
theorem request_independent_of_stack :
    ∃ call call', HotplugFunction.krgNodesAdd.call ⟨7, ⟨Vector.replicate 4 0⟩⟩
          (⟨0, #v[1]⟩ : KrgNodeSet 1) = some call ∧
        HotplugFunction.krgNodesAdd.call ⟨8, ⟨Vector.replicate 4 1⟩⟩
          (⟨0, #v[1]⟩ : KrgNodeSet 1) = some call' ∧
        call.data = call'.data ∧ call.data.subclusterid = 0 := by
  obtain ⟨call, hcall, -⟩ := call_eq (by decide) .krgNodesAdd ⟨7, ⟨Vector.replicate 4 0⟩⟩
    (⟨0, #v[1]⟩ : KrgNodeSet 1)
  obtain ⟨call', hcall', -⟩ := call_eq (by decide) .krgNodesAdd ⟨8, ⟨Vector.replicate 4 1⟩⟩
    (⟨0, #v[1]⟩ : KrgNodeSet 1)
  exact ⟨call, call', hcall, hcall', (request_depends_iff rfl rfl hcall hcall').mpr (.inl (.inl rfl))⟩

end Kerrighed.Hotplug
