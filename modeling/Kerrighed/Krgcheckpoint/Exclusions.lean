import Kerrighed.Common.Chain
import Kerrighed.Common.Runs

/-!
# The registry of excluded memory regions

The regions an application excludes from its checkpoints form a singly linked list in
insertion order. The functions below are `cr_exclude_on` and `cr_exclude_off` on an
explicit heap, in which a fresh cell holds whatever bytes `malloc` returned.

The list stands for an insertion-ordered map from addresses to sizes, functions and
arguments. `cr_exclude_on` never writes the link of the cell it appends, so the list
refines the map in every state of a run exactly when each appended cell happened to
contain a null link.
-/

namespace Kerrighed.Krgcheckpoint

open Kerrighed.Common

variable {F : Type}

/-- The part of a cell that the kernel reads. -/
structure CrMmRegion where
  pid : ℤ
  addr : ℕ
  size : ℕ
  next : Option ℕ
  deriving DecidableEq, Repr

/-- One cell of the registry. The region is its first field, so a pointer to it is a pointer
to the cell. -/
structure CrMmRegionExcluded (F : Type) where
  region : CrMmRegion
  func : Option F
  arg : ℕ
  deriving DecidableEq, Repr

/-- What the registry records about an address. -/
structure Exclusion (F : Type) where
  addr : ℕ
  size : ℕ
  func : Option F
  arg : ℕ
  deriving DecidableEq, Repr

/-- The link of a region that has just been written. -/
theorem CrMmRegionExcluded.next_write (q : Option ℕ) (c : CrMmRegionExcluded F) :
    ({ c with region := { c.region with next := q } } : CrMmRegionExcluded F).region.next = q := rfl

/-- `next_region` follows the `next` field of the embedded region. -/
def regionLink (F : Type) : LinkField ℕ (CrMmRegionExcluded F) (Exclusion F) where
  next c := c.region.next
  setNext q c := { c with region := { c.region with next := q } }
  payload c := ⟨c.region.addr, c.region.size, c.func, c.arg⟩
  next_setNext := CrMmRegionExcluded.next_write
  payload_setNext _ _ := rfl

/-- `first_mm_region_excluded` and the cells allocated for the registry. -/
structure Regions (F : Type) where
  firstMmRegionExcluded : Option ℕ
  heap : Heap ℕ (CrMmRegionExcluded F)

/-- The registry before the first exclusion. -/
def Regions.empty : Regions F := ⟨none, ∅⟩

/-- The exclusions that a loop over `next_region` visits, in order. -/
def exclusions (s : Regions F) : Option (List (Exclusion F)) :=
  contents (regionLink F) s.heap s.firstMmRegionExcluded

/-- The error numbers the registry sets. -/
inductive Errno where
  | ebusy
  | einval
  deriving DecidableEq, Repr

/-- The return value of a call and the error number it set, if any. -/
abbrev Result := ℤ × Option Errno

/-- `cr_exclude_on` up to the call of `cr_mm_exclusion_init`: either it has returned already,
or the cell is linked. -/
inductive Linking (F : Type) where
  | returned (result : Result) (s : Regions F)
  | linked (mmRegion : ℕ) (s : Regions F)

/-- Fill the fresh cell and append it, unless its address is in the list already. The `next`
field of the cell keeps the bytes it was allocated with. -/
def linkRegion (data size : ℕ) (func : Option F) (arg : ℕ)
    (malloc : Option (ℕ × CrMmRegionExcluded F)) (s : Regions F) : Option (Linking F) :=
  match malloc with
  | none => some (.returned (-1, none) s)
  | some (mmRegion, bytes) =>
    let heap := s.heap.insert mmRegion
      ⟨{ bytes.region with pid := 0, addr := data, size := size }, func, arg⟩
    match s.firstMmRegionExcluded with
    | none => some (.linked mmRegion ⟨some mmRegion, heap⟩)
    | some first => do
      match ← locate (regionLink F) (·.addr == data) heap (walkSteps heap) none (some first) with
      | (_, some _) => some (.returned (-1, some .ebusy) ⟨some first, heap.erase mmRegion⟩)
      | (none, none) => none
      | (some element, none) =>
        let heap ← relink (regionLink F) heap element (some mmRegion)
        some (.linked mmRegion ⟨some first, heap⟩)

/-- Exclude a region, given the result of `cr_mm_exclusion_init` should it be called. -/
def crExcludeOn (data size : ℕ) (func : Option F) (arg : ℕ)
    (malloc : Option (ℕ × CrMmRegionExcluded F)) (initResult : ℤ) (s : Regions F) :
    Option (Result × Regions F) := do
  match ← linkRegion data size func arg malloc s with
  | .returned result s => some (result, s)
  | .linked mmRegion s =>
    if initResult ≠ 0 then some ((initResult, none), { s with heap := s.heap.erase mmRegion })
    else some ((initResult, none), s)

/-- Unlink and free the region that starts at an address. -/
def crExcludeOff (data : ℕ) (s : Regions F) : Option (Result × Regions F) := do
  match ← removeFirst (regionLink F) (·.addr == data) s.heap s.firstMmRegionExcluded with
  | (true, first, heap) => some ((0, none), ⟨first, heap⟩)
  | (false, first, heap) => some ((-1, some .einval), ⟨first, heap⟩)

/-- The insertion-ordered map that the registry stands for. -/
abbrev ExclusionMap (F : Type) := List (Exclusion F)

/-- The map has an entry for the address. -/
def ExclusionMap.has (m : ExclusionMap F) (data : ℕ) : Bool := m.any (·.addr == data)

/-- Insert at the end, refusing an address that is present. -/
def ExclusionMap.on (e : Exclusion F) (m : ExclusionMap F) : Result × ExclusionMap F :=
  if m.has e.addr then ((-1, some .ebusy), m) else ((0, none), m ++ [e])

/-- Remove the entry of an address, refusing an address that is absent. -/
def ExclusionMap.off (data : ℕ) (m : ExclusionMap F) : Result × ExclusionMap F :=
  if m.has data then ((0, none), m.eraseP (·.addr == data)) else ((-1, some .einval), m)

/-- A call on the registry; an insertion carries its fresh cell and the bytes in it. -/
inductive ExcludeOp (F : Type) where
  | on (data size : ℕ) (func : Option F) (arg : ℕ) (cell : ℕ) (bytes : CrMmRegionExcluded F)
  | off (data : ℕ)

/-- The registry and the map after the same calls, with what the last call returned on each. -/
structure ExcludeRun (F : Type) where
  code : Regions F
  map : ExclusionMap F
  result : Option Result
  expected : Option Result

/-- No exclusion yet. -/
def ExcludeRun.start : ExcludeRun F := ⟨.empty, [], none, none⟩

/-- The call, with allocation and initialization succeeding, on the registry and on the map.
`malloc` only returns addresses that hold no live cell. -/
def excludeStep (r : ExcludeRun F) : ExcludeOp F → Option (ExcludeRun F)
  | .on data size func arg cell bytes =>
    if cell ∈ r.code.heap then none
    else do
      let (result, code) ← crExcludeOn data size func arg (some (cell, bytes)) 0 r.code
      let (expected, map) := r.map.on ⟨data, size, func, arg⟩
      some ⟨code, map, some result, some expected⟩
  | .off data => do
    let (result, code) ← crExcludeOff data r.code
    let (expected, map) := r.map.off data
    some ⟨code, map, some result, some expected⟩

/-- The list ends, holds the entries of the map in insertion order at distinct addresses, and
the last call returned what it returns on the map. -/
def ExclusionsExact (r : ExcludeRun F) : Prop :=
  exclusions r.code = some r.map ∧ (r.map.map Exclusion.addr).Nodup ∧ r.result = r.expected

instance [DecidableEq F] : DecidablePred (ExclusionsExact (F := F)) := fun r =>
  inferInstanceAs (Decidable (exclusions r.code = some r.map ∧
    (r.map.map Exclusion.addr).Nodup ∧ r.result = r.expected))

/-- A cell that gets appended was allocated with a null link. -/
def NullLink (r : ExcludeRun F) : ExcludeOp F → Prop
  | .on data _ _ _ _ bytes => r.map.has data = true ∨ bytes.region.next = none
  | .off _ => True

instance : ∀ (r : ExcludeRun F) op, Decidable (NullLink r op)
  | r, .on data _ _ _ _ bytes =>
    inferInstanceAs (Decidable (r.map.has data = true ∨ bytes.region.next = none))
  | _, .off _ => inferInstanceAs (Decidable True)

/-- Inserting a present address changes nothing. -/
theorem ExclusionMap.on_of_has {m : ExclusionMap F} {e : Exclusion F} (h : m.has e.addr = true) :
    m.on e = ((-1, some .ebusy), m) := by
  rw [ExclusionMap.on, if_pos h]

/-- Inserting an absent address appends its entry. -/
theorem ExclusionMap.on_of_not_has {m : ExclusionMap F} {e : Exclusion F}
    (h : m.has e.addr = false) : m.on e = ((0, none), m ++ [e]) := by
  rw [ExclusionMap.on, if_neg (by simp [h])]

/-- Removing a present address drops its entry. -/
theorem ExclusionMap.off_of_has {m : ExclusionMap F} {data : ℕ} (h : m.has data = true) :
    m.off data = ((0, none), m.eraseP (·.addr == data)) := by
  rw [ExclusionMap.off, if_pos h]

/-- Removing an absent address changes nothing. -/
theorem ExclusionMap.off_of_not_has {m : ExclusionMap F} {data : ℕ} (h : m.has data = false) :
    m.off data = ((-1, some .einval), m) := by
  rw [ExclusionMap.off, if_neg (by simp [h])]

/-- The addresses in a list of cells are those of its map. -/
theorem any_addr_eq_has {l : List (ℕ × Exclusion F)} {m : ExclusionMap F}
    (hm : l.map Prod.snd = m) (data : ℕ) :
    l.any (fun x => x.2.addr == data) = m.has data := by
  rw [← hm, ExclusionMap.has, List.any_map]
  rfl

/-- Excluding a present address frees the fresh cell and leaves the list. -/
theorem linkRegion_of_has {s : Regions F} {l : List (ℕ × Exclusion F)}
    (hl : IsSeg (regionLink F) s.heap s.firstMmRegionExcluded l none)
    {cell : ℕ} (hfresh : cell ∉ s.heap) {data : ℕ} (hhas : l.any (fun x => x.2.addr == data) = true)
    (size : ℕ) (func : Option F) (arg : ℕ) (bytes : CrMmRegionExcluded F) :
    ∃ t, linkRegion data size func arg (some (cell, bytes)) s =
        some (.returned (-1, some .ebusy) t) ∧
      IsSeg (regionLink F) t.heap t.firstMmRegionExcluded l none := by
  have hne : ∀ x ∈ l, x.1 ≠ cell := fun x hx heq => hfresh (heq ▸ hl.mem_heap hx)
  cases hfirst : s.firstMmRegionExcluded with
  | none =>
    rw [hfirst] at hl
    obtain rfl : l = [] := hl.unique rfl
    simp at hhas
  | some first =>
    rw [hfirst] at hl
    set heap := s.heap.insert cell
      (⟨{ bytes.region with pid := 0, addr := data, size := size }, func, arg⟩ :
        CrMmRegionExcluded F) with hheap
    have hl' : IsSeg (regionLink F) heap (some first) l none :=
      hl.frame fun x hx => AList.lookup_insert_ne (hne x hx)
    obtain ⟨x, hx, he⟩ := List.any_eq_true.mp hhas
    obtain ⟨⟨a, e⟩, l₁, l₂, hnot, he, rfl, -⟩ :=
      List.exists_of_eraseP (p := fun x : ℕ × Exclusion F => x.2.addr == data) hx he
    have hloc := locate_eq_some (·.addr == data) hl' (fun x hx => by simpa using hnot x hx) he
    refine ⟨⟨some first, heap.erase cell⟩, ?_, hl.frame fun x hx => ?_⟩
    · simp [linkRegion, hfirst, ← hheap, hloc]
    · rw [AList.lookup_erase_ne (hne x hx), AList.lookup_insert_ne (hne x hx)]

/-- Excluding an absent address appends the fresh cell, whose link is what `malloc` left there. -/
theorem linkRegion_of_not_has {s : Regions F} {l : List (ℕ × Exclusion F)}
    (hl : IsSeg (regionLink F) s.heap s.firstMmRegionExcluded l none)
    {cell : ℕ} (hfresh : cell ∉ s.heap) {data : ℕ}
    (hhas : l.any (fun x => x.2.addr == data) = false)
    (size : ℕ) (func : Option F) (arg : ℕ) (bytes : CrMmRegionExcluded F) :
    ∃ t, linkRegion data size func arg (some (cell, bytes)) s = some (.linked cell t) ∧
      IsSeg (regionLink F) t.heap t.firstMmRegionExcluded
        (l ++ [(cell, ⟨data, size, func, arg⟩)]) bytes.region.next := by
  have hne : ∀ x ∈ l, x.1 ≠ cell := fun x hx heq => hfresh (heq ▸ hl.mem_heap hx)
  have hnot : ∀ x ∈ l, (x.2.addr == data) = false := fun x hx => by
    simpa using List.any_eq_false.mp hhas x hx
  set heap := s.heap.insert cell
    (⟨{ bytes.region with pid := 0, addr := data, size := size }, func, arg⟩ :
      CrMmRegionExcluded F) with hheap
  have hl' : IsSeg (regionLink F) heap s.firstMmRegionExcluded l none :=
    hl.frame fun x hx => AList.lookup_insert_ne (hne x hx)
  have hcell : heap.lookup cell = some ⟨{ bytes.region with pid := 0, addr := data, size := size },
      func, arg⟩ := AList.lookup_insert _
  cases hfirst : s.firstMmRegionExcluded with
  | none =>
    rw [hfirst] at hl
    obtain rfl : l = [] := hl.unique rfl
    exact ⟨⟨some cell, heap⟩, by simp [linkRegion, hfirst, ← hheap], rfl, _, hcell, rfl, rfl⟩
  | some first =>
    rw [hfirst] at hl'
    have hloc := locate_eq_none (·.addr == data) hl' hnot
    rcases List.eq_nil_or_concat l with rfl | ⟨l₀, ⟨b, eb⟩, rfl⟩
    · exact absurd hl' (by simp [IsSeg])
    · rw [List.concat_eq_append] at *
      have hb : b ∉ l₀.map Prod.fst := by
        have hnodup := hl'.nodup
        simp only [List.map_append, List.map_cons, List.map_nil, List.nodup_append] at hnodup
        exact fun hb => hnodup.2.2 b hb b (by simp) rfl
      obtain ⟨heap', hlink, hseg, hother⟩ := hl'.relink_last hb (some cell)
      have hcell' := (hother cell (hne (b, eb) (by simp)).symm).trans hcell
      refine ⟨⟨some first, heap'⟩, ?_, isSeg_append.mpr ⟨some cell, hseg, rfl, _, hcell', rfl, rfl⟩⟩
      simp [linkRegion, hfirst, ← hheap, hloc, hlink]

/-- Removing an address removes its entry from the list and nothing else. -/
theorem crExcludeOff_spec {s : Regions F} {l : List (ℕ × Exclusion F)}
    (hl : IsSeg (regionLink F) s.heap s.firstMmRegionExcluded l none) (data : ℕ) :
    ∃ t, crExcludeOff data s = some ((ExclusionMap.off data (l.map Prod.snd)).1, t) ∧
      exclusions t = some (ExclusionMap.off data (l.map Prod.snd)).2 := by
  obtain ⟨first', h', heq, hseg, -⟩ := removeFirst_eq (·.addr == data) hl
  cases hany : l.any (fun x => x.2.addr == data) with
  | true =>
    rw [ExclusionMap.off_of_has ((any_addr_eq_has rfl data).symm.trans hany)]
    refine ⟨⟨first', h'⟩, by simp [crExcludeOff, heq, hany], contents_eq_some.mpr ⟨_, hseg, ?_⟩⟩
    rw [List.eraseP_map]
    rfl
  | false =>
    rw [ExclusionMap.off_of_not_has ((any_addr_eq_has rfl data).symm.trans hany)]
    refine ⟨⟨first', h'⟩, by simp [crExcludeOff, heq, hany], contents_eq_some.mpr ⟨_, hseg, ?_⟩⟩
    rw [List.eraseP_of_forall_not (List.any_eq_false.mp hany)]

/-- Removing an entry keeps the addresses distinct. -/
theorem ExclusionMap.off_nodup {m : ExclusionMap F} (hm : (m.map Exclusion.addr).Nodup)
    (data : ℕ) : ((m.off data).2.map Exclusion.addr).Nodup := by
  cases hhas : m.has data with
  | true =>
    rw [ExclusionMap.off_of_has hhas]
    exact hm.sublist (List.eraseP_sublist.map _)
  | false =>
    rw [ExclusionMap.off_of_not_has hhas]
    exact hm

/-- Inserting keeps the addresses distinct. -/
theorem ExclusionMap.on_nodup {m : ExclusionMap F} (hm : (m.map Exclusion.addr).Nodup)
    (e : Exclusion F) : ((m.on e).2.map Exclusion.addr).Nodup := by
  cases hhas : m.has e.addr with
  | true =>
    rw [ExclusionMap.on_of_has hhas]
    exact hm
  | false =>
    rw [ExclusionMap.on_of_not_has hhas]
    simp only [ExclusionMap.has, List.any_eq_false, beq_iff_eq] at hhas
    rw [List.map_append, List.nodup_append]
    refine ⟨hm, List.nodup_singleton _, ?_⟩
    intro a ha b hb
    obtain ⟨x, hx, rfl⟩ := List.mem_map.mp ha
    obtain rfl : b = e.addr := by simpa using hb
    exact hhas x hx

/-- A call that appends no cell with a stray link keeps the list equal to the map. -/
theorem excludeStep_exact {r t : ExcludeRun F} {op : ExcludeOp F} (hr : ExclusionsExact r)
    (hcond : NullLink r op) (hstep : excludeStep r op = some t) : ExclusionsExact t := by
  obtain ⟨hmap, hnodup, -⟩ := hr
  obtain ⟨l, hl, hm⟩ := contents_eq_some.mp hmap
  cases op with
  | on data size func arg cell bytes =>
    simp only [excludeStep] at hstep
    split at hstep
    · contradiction
    · rename_i hfresh
      cases hhas : r.map.has data with
      | true =>
        obtain ⟨u, hlink, hseg⟩ := linkRegion_of_has hl hfresh
          ((any_addr_eq_has hm data).trans hhas) size func arg bytes
        simp only [crExcludeOn, hlink, Option.bind_eq_bind, Option.bind_some,
          ExclusionMap.on_of_has (e := ⟨data, size, func, arg⟩) hhas] at hstep
        obtain rfl := Option.some.inj hstep
        exact ⟨contents_eq_some.mpr ⟨l, hseg, hm⟩, hnodup, rfl⟩
      | false =>
        obtain ⟨u, hlink, hseg⟩ := linkRegion_of_not_has hl hfresh
          ((any_addr_eq_has hm data).trans hhas) size func arg bytes
        have hnull : bytes.region.next = none := hcond.resolve_left (by simp [hhas])
        have hon := ExclusionMap.on_of_not_has (e := ⟨data, size, func, arg⟩) hhas
        have hnodup' := ExclusionMap.on_nodup hnodup ⟨data, size, func, arg⟩
        simp only [crExcludeOn, hlink, Option.bind_eq_bind, Option.bind_some, hon, ne_eq,
          not_true_eq_false, if_false] at hstep hnodup'
        obtain rfl := Option.some.inj hstep
        exact ⟨contents_eq_some.mpr ⟨_, hnull ▸ hseg, by simp [hm]⟩, hnodup', rfl⟩
  | off data =>
    obtain ⟨u, hoff, hu⟩ := crExcludeOff_spec hl data
    rw [hm] at hoff hu
    simp only [excludeStep, hoff, Option.bind_eq_bind, Option.bind_some] at hstep
    obtain rfl := Option.some.inj hstep
    exact ⟨hu, ExclusionMap.off_nodup hnodup data, rfl⟩

/-- Appending a cell with a stray link leaves no list that ends where the map does. -/
theorem excludeStep_not_exact {r t : ExcludeRun F} {op : ExcludeOp F} (hr : ExclusionsExact r)
    (hcond : ¬ NullLink r op) (hstep : excludeStep r op = some t) : ¬ ExclusionsExact t := by
  obtain ⟨hmap, -, -⟩ := hr
  obtain ⟨l, hl, hm⟩ := contents_eq_some.mp hmap
  cases op with
  | on data size func arg cell bytes =>
    obtain ⟨hhas, hnext⟩ := not_or.mp hcond
    rw [Bool.not_eq_true] at hhas
    simp only [excludeStep] at hstep
    split at hstep
    · contradiction
    · rename_i hfresh
      obtain ⟨u, hlink, hseg⟩ := linkRegion_of_not_has hl hfresh
        ((any_addr_eq_has hm data).trans hhas) size func arg bytes
      simp only [crExcludeOn, hlink, Option.bind_eq_bind, Option.bind_some, ne_eq,
        not_true_eq_false, if_false,
        ExclusionMap.on_of_not_has (e := ⟨data, size, func, arg⟩) hhas] at hstep
      obtain rfl := Option.some.inj hstep
      rintro ⟨hexact, -, -⟩
      obtain ⟨l', hl', hm'⟩ := contents_eq_some.mp hexact
      obtain ⟨rest, rfl, hrest⟩ := hseg.split hl'
      cases rest with
      | nil => exact hnext hrest
      | cons x rest =>
        have hlen := congrArg List.length hm'
        simp [← hm] at hlen
  | off data => exact absurd trivial hcond

/-- The registry is the insertion-ordered map in every state of a run exactly when every cell
that gets appended was allocated with a null link. -/
theorem exclusionsExact_throughout_iff (ops : List (ExcludeOp F)) :
    Throughout excludeStep ExclusionsExact .start ops ↔ Along excludeStep NullLink .start ops :=
  throughout_iff_along _ (fun _ h => h) (fun _ _ _ => excludeStep_exact)
    (fun _ _ _ => excludeStep_not_exact) ⟨rfl, by simp [ExcludeRun.start], rfl⟩ ops

/-- One exclusion in a cell whose bytes point to itself makes a list that never ends. -/
theorem stray_link_never_ends :
    (run excludeStep (.start : ExcludeRun Unit)
        [.on 4096 8 none 0 1 ⟨⟨0, 0, 0, some 1⟩, none, 0⟩]).map
          (fun r => (exclusions r.code, r.map)) = some (none, [⟨4096, 8, none, 0⟩]) ∧
      ¬ Throughout excludeStep (ExclusionsExact (F := Unit)) .start
        [.on 4096 8 none 0 1 ⟨⟨0, 0, 0, some 1⟩, none, 0⟩] := by
  decide

end Kerrighed.Krgcheckpoint
