import Kerrighed.Krgcheckpoint.Library

/-!
# Exclusions that fail

`cr_exclude_on` links its cell before it initializes the library, and frees it when that fails.
The link stays, at `first_mm_region_excluded` or in the last cell of the list, so the list leads
to a freed cell from then on.

A failed call leaves the registry as it was exactly when it fails before its cell is linked.
-/

namespace Kerrighed.Krgcheckpoint

open Kerrighed.Common Kerrighed.Krgcb

variable {F : Type}

/-- The cells reached from `first_mm_region_excluded` and their entries. There is no result when
the walk meets a freed cell or does not end. -/
def Regions.reached (s : Regions F) : Option (List (ℕ × Exclusion F)) :=
  collect (regionLink F) s.heap (walkSteps s.heap) s.firstMmRegionExcluded

/-- Every step of `cr_mm_exclusion_init` succeeds. The two registrations always do, in the
registry that has just been set up. -/
def ExclusionInitOutcome.Succeeds (o : ExclusionInitOutcome) : Prop :=
  o.callback.Succeeds ∧ o.sigchild = 0 ∧ o.atfork = 0

/-- The list reached is finite, ends in the null pointer and goes through live cells only. -/
theorem Regions.reached_eq_some {s : Regions F} {l : List (ℕ × Exclusion F)} :
    s.reached = some l ↔ IsSeg (regionLink F) s.heap s.firstMmRegionExcluded l none := by
  rw [Regions.reached, collect_eq_some, and_iff_left_iff_imp]
  exact IsSeg.length_lt

/-- The initialization returns zero exactly when it has been done before or all its steps
succeed. -/
theorem crMmExclusionInit_zero_iff (o : ExclusionInitOutcome) (s : Library F) :
    ∃ r t, crMmExclusionInit o s = .ok (r, t) ∧ (r = 0 ↔ s.initialized = true ∨ o.Succeeds) := by
  cases hinit : s.initialized with
  | true => exact ⟨0, s, crMmExclusionInit_of_initialized hinit o, by simp⟩
  | false =>
    by_cases hsucceed : o.callback.Succeeds
    · obtain ⟨r, b, hr, heq⟩ := crMmExclusionInit_of_succeeds hinit hsucceed
      refine ⟨r, _, heq, ?_⟩
      rw [hr, ExclusionInitOutcome.Succeeds]
      simp [hsucceed]
    · obtain ⟨r, hr, heq⟩ := crMmExclusionInit_of_not_succeeds hinit hsucceed
      refine ⟨r, _, heq, ?_⟩
      rw [ExclusionInitOutcome.Succeeds]
      simp [hr, hsucceed]

/-- An exclusion that returns before the initialization has linked nothing. -/
theorem Library.crExcludeOn_returned {s : Library F} {data size : ℕ} {func : Option F} {arg : ℕ}
    {malloc : Option (ℕ × CrMmRegionExcluded F)} {result : Result} {regions : Regions F}
    (h : linkRegion data size func arg malloc s.regions = some (.returned result regions))
    (o : ExclusionInitOutcome) :
    s.crExcludeOn data size func arg malloc o =
      some (.ok (result, { s with regions := regions })) := by
  rw [Library.crExcludeOn, h]
  rfl

/-- An exclusion that has linked its cell returns what the initialization returns, and frees the
cell, which stays linked, unless that is zero. -/
theorem Library.crExcludeOn_linked {s : Library F} {data size : ℕ} {func : Option F} {arg : ℕ}
    {malloc : Option (ℕ × CrMmRegionExcluded F)} {mmRegion : ℕ} {regions : Regions F}
    (h : linkRegion data size func arg malloc s.regions = some (.linked mmRegion regions))
    (o : ExclusionInitOutcome) :
    ∃ r t, s.crExcludeOn data size func arg malloc o = some (.ok ((r, none), t)) ∧
      (r = 0 ↔ s.initialized = true ∨ o.Succeeds) ∧
      (r ≠ 0 → t.regions = { regions with heap := regions.heap.erase mmRegion }) := by
  obtain ⟨r, t, hcall, hr⟩ := crMmExclusionInit_zero_iff o { s with regions := regions }
  have hregions := crMmExclusionInit_regions hcall
  by_cases hzero : r = 0
  · refine ⟨r, t, ?_, hr, fun hne => absurd hzero hne⟩
    simp [Library.crExcludeOn, h, hcall, hzero]
  · refine ⟨r, { t with regions := { t.regions with heap := t.regions.heap.erase mmRegion } }, ?_, hr,
      fun _ => ?_⟩
    · simp [Library.crExcludeOn, h, hcall, hzero]
    · rw [hregions]

/-- Freeing the last cell of a list without unlinking it leaves a list that leads nowhere. -/
theorem reached_erase_last {s : Regions F} {l : List (ℕ × Exclusion F)} {cell : ℕ}
    {e : Exclusion F} {q : Option ℕ}
    (hl : IsSeg (regionLink F) s.heap s.firstMmRegionExcluded (l ++ [(cell, e)]) q)
    (hcell : ∀ x ∈ l, x.1 ≠ cell) :
    Regions.reached { s with heap := s.heap.erase cell } = none := by
  obtain ⟨r, hfirst, rfl, -⟩ := isSeg_append.mp hl
  have hleft : IsSeg (regionLink F) (s.heap.erase cell) s.firstMmRegionExcluded l (some cell) :=
    hfirst.frame fun x hx => AList.lookup_erase_ne (hcell x hx)
  exact hleft.collect_eq_none (by simp) _

/-- On a registry whose list is sound, `cr_exclude_on` returns, and if it fails it leaves that list
as it was, without a freed cell, exactly when it has no memory for its cell, or the address is
excluded already, or the initialization behind the link cannot fail. -/
theorem crExcludeOn_failure_iff (s : Library F) (l : List (ℕ × Exclusion F)) (data size : ℕ)
    (func : Option F) (arg : ℕ) (malloc : Option (ℕ × CrMmRegionExcluded F))
    (o : ExclusionInitOutcome) (hl : s.regions.reached = some l)
    (hfresh : ∀ cell bytes, malloc = some (cell, bytes) → cell ∉ s.regions.heap) :
    ∃ result t, s.crExcludeOn data size func arg malloc o = some (.ok (result, t)) ∧
      ((result.1 ≠ 0 → t.regions.reached = some l) ↔
        malloc = none ∨ (∃ x ∈ l, x.2.addr = data) ∨ s.initialized = true ∨ o.Succeeds) := by
  have hseg := Regions.reached_eq_some.mp hl
  cases malloc with
  | none => exact ⟨_, _, Library.crExcludeOn_returned rfl o, by simp [hl]⟩
  | some fresh =>
    obtain ⟨cell, bytes⟩ := fresh
    have hcell := hfresh cell bytes rfl
    cases hhas : l.any (fun x => x.2.addr == data) with
    | true =>
      obtain ⟨regions, hlink, hkept⟩ := linkRegion_of_has hseg hcell hhas size func arg bytes
      have hlisted : ∃ x ∈ l, x.2.addr = data := by simpa using hhas
      refine ⟨_, _, Library.crExcludeOn_returned hlink o, ?_⟩
      exact iff_of_true (fun _ => Regions.reached_eq_some.mpr hkept) (.inr (.inl hlisted))
    | false =>
      obtain ⟨regions, hlink, happend⟩ := linkRegion_of_not_has hseg hcell hhas size func arg bytes
      obtain ⟨r, t, hcall, hr, hfreed⟩ := Library.crExcludeOn_linked hlink o
      have hlisted : ¬ ∃ x ∈ l, x.2.addr = data := by simpa using hhas
      have hgone : r ≠ 0 → t.regions.reached = none := fun hne => by
        rw [hfreed hne]
        exact reached_erase_last happend fun x hx heq => hcell (heq ▸ hseg.mem_heap hx)
      refine ⟨_, t, hcall, ?_⟩
      rw [or_iff_right (by simp), or_iff_right hlisted, ← hr]
      constructor
      · intro hkept
        by_contra hne
        exact absurd ((hgone hne).symm.trans (hkept hne)) (by simp)
      · intro hzero hne
        exact absurd hzero hne

/-- The bytes of a cell with a null link. -/
def nullCell : CrMmRegionExcluded Unit := ⟨⟨0, 0, 0, none⟩, none, 0⟩

/-- The outcome of an initialization whose last step, `pthread_atfork`, has no memory. -/
def atforkFails : ExclusionInitOutcome := { ExclusionInitOutcome.success with atfork := 12 }

/-- A process that has excluded the address 4096, with the cell 1. -/
def oneExclusion (initialized : Bool) : Library Unit :=
  { Library.start with
    regions := ⟨some 1, (∅ : Heap ℕ _).insert 1 ⟨⟨0, 4096, 8, none⟩, none, 0⟩⟩
    initialized := initialized }

/-- An address that is excluded already leaves the list as it was, and so does any address once the
library is initialized. A last step that fails behind the link of a second cell loses the list. -/
theorem crExcludeOn_failure_second :
    (∃ result t, (oneExclusion false).crExcludeOn 4096 8 none 0 (some (2, nullCell)) atforkFails =
        some (.ok (result, t)) ∧
      (result.1 ≠ 0 → t.regions.reached = some [(1, ⟨4096, 8, none, 0⟩)])) ∧
      (∃ result t, (oneExclusion true).crExcludeOn 8192 8 none 0 (some (2, nullCell)) atforkFails =
          some (.ok (result, t)) ∧
        (result.1 ≠ 0 → t.regions.reached = some [(1, ⟨4096, 8, none, 0⟩)])) ∧
      ∃ result t, (oneExclusion false).crExcludeOn 8192 8 none 0 (some (2, nullCell)) atforkFails =
          some (.ok (result, t)) ∧
        result.1 ≠ 0 ∧ t.regions.reached ≠ some [(1, ⟨4096, 8, none, 0⟩)] := by
  have hfresh (initialized : Bool) (cell : ℕ) (bytes : CrMmRegionExcluded Unit)
      (h : some (2, nullCell) = some (cell, bytes)) :
      cell ∉ (oneExclusion initialized).regions.heap := by
    obtain ⟨rfl, -⟩ := Prod.mk.inj (Option.some.inj h)
    cases initialized <;> decide
  have hrun (initialized : Bool) (data : ℕ) :=
    crExcludeOn_failure_iff (oneExclusion initialized) [(1, ⟨4096, 8, none, 0⟩)] data 8 none 0
      (some (2, nullCell)) atforkFails (by cases initialized <;> decide) (hfresh initialized)
  refine ⟨?_, ?_, ?_⟩
  · obtain ⟨result, t, hcall, hkept⟩ := hrun false 4096
    exact ⟨result, t, hcall, hkept.mpr (.inr (.inl ⟨_, List.mem_singleton_self _, rfl⟩))⟩
  · obtain ⟨result, t, hcall, hkept⟩ := hrun true 8192
    exact ⟨result, t, hcall, hkept.mpr (.inr (.inr (.inl rfl)))⟩
  · obtain ⟨result, t, hcall, hkept⟩ := hrun false 8192
    refine ⟨result, t, hcall, Classical.not_imp.mp fun h => ?_⟩
    have hexcluded := hkept.mp h
    simp [oneExclusion, Library.start, ExclusionInitOutcome.Succeeds, atforkFails] at hexcluded

/-- What the first exclusion of a process returns and leaves when the last step fails. -/
def failedFirstExclusion : Option (Result × Library Unit) :=
  ((Library.start : Library Unit).crExcludeOn 4096 8 none 0 (some (1, nullCell)) atforkFails).bind
    Except.toOption

/-- With `pthread_atfork` failing, the first exclusion of a process leaves `first_mm_region_excluded`
at a freed cell: the list was empty before, and no later `cr_exclude_off` can walk it. -/
theorem failed_exclusion_dangles :
    (Library.start : Library Unit).regions.reached = some [] ∧
      failedFirstExclusion.map (fun r => (r.1.1, r.2.regions.reached)) = some (12, none) ∧
      failedFirstExclusion.map (fun r => (crExcludeOff 8192 r.2.regions).isSome) = some false := by
  refine ⟨rfl, ?_, ?_⟩ <;> decide

end Kerrighed.Krgcheckpoint
