import Kerrighed.Krgcheckpoint.Children
import Kerrighed.Krgcheckpoint.Exclusions

/-!
# The end of a process

`cr_mm_exclusion_exit` frees the cells of both lists when a process ends. It can only free what the
lists lead to, and it must not meet a cell that was freed before.

Neither happens as long as each region that is linked was allocated with a null link: no region is
left, and of the children exactly those that a later child has taken the place of.
-/

namespace Kerrighed.Krgcheckpoint

open Kerrighed.Common

variable {F : Type}

/-- `cr_mm_exclusion_exit`. The pointer to the first region stays. -/
def crMmExclusionExit (regions : Regions F) (children : Children) : Option (Regions F × Children) := do
  let heap ← freeAll (regionLink F) (walkSteps regions.heap) regions.heap
    regions.firstMmRegionExcluded
  let children ← removeAllChildren children
  some (⟨regions.firstMmRegionExcluded, heap⟩, children)

/-- Both lists of a process, and how many children have been added to a list that had one. -/
structure Memory (F : Type) where
  regions : ExcludeRun F
  children : ChildRun
  replaced : ℕ

/-- A process before its first call. -/
def Memory.start : Memory F := ⟨.start, .start, 0⟩

/-- A call on one of the lists. -/
inductive MemoryOp (F : Type) where
  | region (op : ExcludeOp F)
  | child (op : ChildOp)

/-- The call on its list. -/
def memoryStep (m : Memory F) : MemoryOp F → Option (Memory F)
  | .region op => (excludeStep m.regions op).map fun regions => { m with regions := regions }
  | .child op => (childStep m.children op).map fun children =>
    { m with
      children := children
      replaced := if AddsToEmpty m.children op then m.replaced else m.replaced + 1 }

/-- Each region that is linked was allocated with a null link. -/
def LinksNull (m : Memory F) : MemoryOp F → Prop
  | .region op => NullLink m.regions op
  | .child _ => True

instance (m : Memory F) : ∀ op, Decidable (LinksNull m op)
  | .region op => inferInstanceAs (Decidable (NullLink m.regions op))
  | .child _ => isTrue trivial

/-- Were the process to end, all cells would be freed once but those of children that were replaced. -/
def FreesAll (m : Memory F) : Prop :=
  ∃ regions children, crMmExclusionExit m.regions.code m.children.code = some (regions, children) ∧
    regions.heap.entries = [] ∧ children.heap.entries.length = m.replaced

/-- The list of children ends, and all other cells are those of children that were replaced. -/
def ChildCells (m : Memory F) : Prop :=
  ∃ l, IsSeg childLink m.children.code.heap m.children.code.firstChild l none ∧
    m.children.code.heap.entries.length = l.length + m.replaced

/-- The regions are exact, and there are no other cells. -/
def RegionCells (m : Memory F) : Prop :=
  ExclusionsExact m.regions ∧ m.regions.code.heap.entries.length = m.regions.map.length

/-- A child has one new cell. -/
theorem length_addChild {s t : Children} {child : ℕ} {pid : ℤ} (hfresh : child ∉ s.heap)
    (h : addChild 0 (some child) pid s = some t) :
    t.heap.entries.length = s.heap.entries.length + 1 := by
  simp only [addChild] at h
  cases hfirst : s.firstChild with
  | none =>
    simp only [hfirst] at h
    obtain rfl := Option.some.inj h
    exact length_insert hfresh _
  | some first =>
    simp only [hfirst] at h
    obtain ⟨head, -, h⟩ := Option.bind_eq_some_iff.mp h
    obtain rfl := Option.some.inj h
    exact length_insert hfresh _

/-- A list that a payload is removed from loses the cell it had for it, if it had one. -/
theorem cells_removeFirst {A C E : Type} [DecidableEq A] {f : LinkField A C E} {h : Heap A C}
    {first : Option A} {l : List (A × E)} (hl : IsSeg f h first l none) (found : E → Bool) :
    ∃ first' h', removeFirst f found h first = some (l.any (fun x => found x.2), first', h') ∧
      IsSeg f h' first' (l.eraseP fun x => found x.2) none ∧
      h'.entries.length + l.length =
        h.entries.length + (l.eraseP fun x => found x.2).length := by
  obtain ⟨first', h', hremove, hseg, -⟩ := removeFirst_eq found hl
  refine ⟨first', h', hremove, hseg, ?_⟩
  have hcount := length_removeFirst hremove
  rw [List.length_eraseP]
  cases hany : l.any (fun x => found x.2) with
  | false =>
    rw [hany] at hcount
    simpa using hcount
  | true =>
    rw [hany, if_pos rfl] at hcount
    obtain ⟨x, hx, -⟩ := List.any_eq_true.mp hany
    have hpos := List.length_pos_of_mem hx
    rw [if_pos rfl]
    omega

/-- A call on the list of children keeps account of its cells. -/
theorem childStep_cells {m : Memory F} {op : ChildOp} {r : ChildRun} (h : ChildCells m)
    (hstep : childStep m.children op = some r) :
    ChildCells { m with
      children := r
      replaced := if AddsToEmpty m.children op then m.replaced else m.replaced + 1 } := by
  obtain ⟨l, hl, hcount⟩ := h
  cases op with
  | add child pid =>
    simp only [childStep] at hstep
    split at hstep
    · cases hstep
    · rename_i hfresh
      obtain ⟨t, hadd, rfl⟩ := Option.map_eq_some_iff.mp hstep
      have hlength := length_addChild hfresh hadd
      cases l with
      | nil =>
        obtain ⟨-, t', hadd', hseg⟩ := addChild_of_empty hl hl child pid
        obtain rfl := Option.some.inj (hadd.symm.trans hadd')
        have hempty : AddsToEmpty m.children (.add child pid) := hl
        refine ⟨_, hseg, ?_⟩
        rw [if_pos hempty, hlength, hcount]
        simp [Nat.add_comm]
      | cons x rest =>
        obtain ⟨t', hadd', hseg⟩ := addChild_of_cons hl hfresh pid
        obtain rfl := Option.some.inj (hadd.symm.trans hadd')
        have hnonempty : ¬ AddsToEmpty m.children (.add child pid) := by
          rw [AddsToEmpty, hl.1]
          exact Option.some_ne_none _
        refine ⟨_, hseg, ?_⟩
        rw [if_neg hnonempty, hlength, hcount, List.length_cons, List.length_cons]
        rfl
  | remove pid =>
    obtain ⟨first', h', hremove, hseg, hlength⟩ := cells_removeFirst hl (· == pid)
    obtain ⟨t, hchild, rfl⟩ := Option.map_eq_some_iff.mp hstep
    have ht : removeChild pid m.children.code = some ⟨first', h'⟩ := by simp [removeChild, hremove]
    obtain rfl := Option.some.inj (hchild.symm.trans ht)
    have hkept : (if AddsToEmpty m.children (.remove pid) then m.replaced else m.replaced + 1) =
        m.replaced := if_pos trivial
    refine ⟨_, hseg, ?_⟩
    rw [hkept]
    dsimp only
    omega
  | removeAll =>
    obtain ⟨t, hchild, rfl⟩ := Option.map_eq_some_iff.mp hstep
    obtain ⟨h', hfree, hclear⟩ := Option.bind_eq_some_iff.mp hchild
    obtain rfl := Option.some.inj hclear
    have hlength := length_freeAll hl hfree
    have hkept : (if AddsToEmpty m.children .removeAll then m.replaced else m.replaced + 1) =
        m.replaced := if_pos trivial
    refine ⟨[], rfl, ?_⟩
    rw [hkept, List.length_nil]
    dsimp only
    omega

/-- A region that is refused leaves as many cells as before, and one that is linked has one more. -/
theorem length_linkRegion {data size : ℕ} {func : Option F} {arg cell : ℕ}
    {bytes : CrMmRegionExcluded F} {s : Regions F} (hfresh : cell ∉ s.heap) {linking : Linking F}
    (h : linkRegion data size func arg (some (cell, bytes)) s = some linking) :
    (∀ result t, linking = .returned result t → t.heap.entries.length = s.heap.entries.length) ∧
      ∀ mmRegion t, linking = .linked mmRegion t →
        t.heap.entries.length = s.heap.entries.length + 1 := by
  set heap := s.heap.insert cell
    (⟨{ bytes.region with pid := 0, addr := data, size := size }, func, arg⟩ :
      CrMmRegionExcluded F) with hheap
  have hinsert : heap.entries.length = s.heap.entries.length + 1 := length_insert hfresh _
  cases hfirst : s.firstMmRegionExcluded with
  | none =>
    simp only [linkRegion, hfirst, ← hheap] at h
    obtain rfl := Option.some.inj h
    refine ⟨fun result t ht => (by cases ht), fun mmRegion t ht => ?_⟩
    obtain ⟨-, rfl⟩ := Linking.linked.inj ht
    exact hinsert
  | some first =>
    simp only [linkRegion, hfirst, ← hheap] at h
    obtain ⟨⟨prev, found⟩, -, h⟩ := Option.bind_eq_some_iff.mp h
    cases found with
    | some a =>
      obtain rfl := Option.some.inj h
      refine ⟨fun result t ht => ?_, fun mmRegion t ht => (by cases ht)⟩
      obtain ⟨-, rfl⟩ := Linking.returned.inj ht
      have herase := length_erase (h := heap) (a := cell) ((AList.mem_insert _).mpr (Or.inl rfl))
      dsimp only
      omega
    | none =>
      cases prev with
      | none => cases h
      | some element =>
        obtain ⟨heap', hlink, h⟩ := Option.bind_eq_some_iff.mp h
        obtain rfl := Option.some.inj h
        refine ⟨fun result t ht => (by cases ht), fun mmRegion t ht => ?_⟩
        obtain ⟨-, rfl⟩ := Linking.linked.inj ht
        rw [length_relink hlink, hinsert]

/-- A call on the regions keeps account of their cells. -/
theorem excludeStep_cells {m : Memory F} {op : ExcludeOp F} {r : ExcludeRun F} (h : RegionCells m)
    (hcond : NullLink m.regions op) (hstep : excludeStep m.regions op = some r) :
    RegionCells { m with regions := r } := by
  obtain ⟨hexact, hcount⟩ := h
  have hexact' := excludeStep_exact hexact hcond hstep
  refine ⟨hexact', ?_⟩
  obtain ⟨l, hl, hmap⟩ := contents_eq_some.mp hexact.1
  rw [← hmap, List.length_map] at hcount
  cases op with
  | on data size func arg cell bytes =>
    simp only [excludeStep] at hstep
    split at hstep
    · cases hstep
    · rename_i hfresh
      cases hhas : m.regions.map.has data with
      | true =>
        obtain ⟨t, hlink, -⟩ := linkRegion_of_has hl hfresh
          ((any_addr_eq_has hmap data).trans hhas) size func arg bytes
        have hlength := (length_linkRegion hfresh hlink).1 _ t rfl
        simp only [crExcludeOn, hlink, Option.bind_eq_bind, Option.bind_some,
          ExclusionMap.on_of_has (e := ⟨data, size, func, arg⟩) hhas] at hstep
        obtain rfl := Option.some.inj hstep
        rw [hlength, hcount, ← hmap, List.length_map]
      | false =>
        obtain ⟨t, hlink, -⟩ := linkRegion_of_not_has hl hfresh
          ((any_addr_eq_has hmap data).trans hhas) size func arg bytes
        have hlength := (length_linkRegion hfresh hlink).2 _ t rfl
        simp only [crExcludeOn, hlink, Option.bind_eq_bind, Option.bind_some, ne_eq,
          not_true_eq_false, if_false,
          ExclusionMap.on_of_not_has (e := ⟨data, size, func, arg⟩) hhas] at hstep
        obtain rfl := Option.some.inj hstep
        rw [hlength, hcount, ← hmap, List.length_append, List.length_map]
        rfl
  | off data =>
    obtain ⟨first', h', hremove, hseg, hlength⟩ := cells_removeFirst hl (·.addr == data)
    obtain ⟨⟨result, t⟩, hoff, hstep⟩ := Option.bind_eq_some_iff.mp hstep
    have ht : t = ⟨first', h'⟩ := by
      rw [crExcludeOff, hremove] at hoff
      cases hany : l.any (fun x => x.2.addr == data) with
      | true =>
        simp only [hany] at hoff
        exact (Prod.mk.inj (Option.some.inj hoff)).2.symm
      | false =>
        simp only [hany] at hoff
        exact (Prod.mk.inj (Option.some.inj hoff)).2.symm
    subst ht
    obtain rfl := Option.some.inj hstep
    obtain ⟨l', hl', hmap'⟩ := contents_eq_some.mp hexact'.1
    obtain rfl := hl'.unique hseg
    dsimp only at hmap' ⊢
    rw [← hmap', List.length_map]
    omega

/-- Where the cells are accounted for, the end of the process frees them. -/
theorem freesAll_of_cells {m : Memory F} (hregions : RegionCells m) (hchildren : ChildCells m) :
    FreesAll m := by
  obtain ⟨hexact, hcount⟩ := hregions
  obtain ⟨l, hl, hmap⟩ := contents_eq_some.mp hexact.1
  obtain ⟨heap, hfree⟩ := freeAll_eq hl hl.length_lt
  have hlength := length_freeAll hl hfree
  obtain ⟨c, hc, hccount⟩ := hchildren
  obtain ⟨cheap, hcfree⟩ := freeAll_eq hc hc.length_lt
  have hclength := length_freeAll hc hcfree
  refine ⟨⟨m.regions.code.firstMmRegionExcluded, heap⟩, ⟨none, cheap⟩, ?_, ?_, ?_⟩
  · simp [crMmExclusionExit, removeAllChildren, hfree, hcfree]
  · rw [← hmap, List.length_map] at hcount
    apply List.length_eq_zero_iff.mp
    dsimp only
    omega
  · dsimp only
    omega

/-- Whatever regions a process excludes and whatever children come and go: as long as each region that
is linked was allocated with a null link, the end of the process at any moment meets no cell twice and
frees every region, and leaves exactly one cell for each child that took the place of another. -/
theorem exit_frees (ops : List (MemoryOp F)) (hlinks : Along memoryStep LinksNull .start ops) :
    Throughout memoryStep FreesAll (.start : Memory F) ops := by
  have hstart : RegionCells (.start : Memory F) ∧ ChildCells (.start : Memory F) := by
    refine ⟨⟨⟨rfl, List.nodup_nil, rfl⟩, rfl⟩, ⟨[], rfl, rfl⟩⟩
  have hkeep (m : Memory F) (op : MemoryOp F) (m' : Memory F) (h : RegionCells m ∧ ChildCells m)
      (hcond : LinksNull m op) (hstep : memoryStep m op = some m') :
      RegionCells m' ∧ ChildCells m' := by
    cases op with
    | region op =>
      obtain ⟨r, hr, rfl⟩ := Option.map_eq_some_iff.mp hstep
      exact ⟨excludeStep_cells h.1 hcond hr, h.2⟩
    | child op =>
      obtain ⟨r, hr, rfl⟩ := Option.map_eq_some_iff.mp hstep
      exact ⟨h.1, childStep_cells h.2 hr⟩
  have hall := throughout_of_along hkeep hstart ops hlinks
  exact hall.mono fun m h => freesAll_of_cells h.1 h.2

/-- Two regions and two children, and one region taken back. -/
def twoOfEach : List (MemoryOp Unit) :=
  [.region (.on 4096 8 none 0 1 ⟨⟨0, 0, 0, none⟩, none, 0⟩), .child (.add 2 100),
    .region (.on 8192 8 none 0 3 ⟨⟨7, 7, 7, none⟩, none, 0⟩), .child (.add 4 101),
    .region (.off 4096)]

/-- The cell of the first child is left. -/
theorem first_child_left : Throughout memoryStep FreesAll .start twoOfEach :=
  exit_frees twoOfEach (by decide)

end Kerrighed.Krgcheckpoint
