import Kerrighed.Common.Scan

/-!
# Iterators with a cursor

An object that is its own iterator keeps a cursor: each call of `next` searches a table behind the
cursor, moves the cursor to what it finds, and stops the iteration at the end of the table. A loop
over the object calls `next` until it stops.

Such a loop sees the entries behind the cursor. It sees all of them exactly when no entry lies at or
before the cursor.
-/

namespace Kerrighed.Common

variable {σ : Type*}

/-- The elements that calls of `next` give up to the first one that stops the iteration, and the
state after it, or `none` when the fuel does not reach the stop. -/
def drain (next : σ → Option ℤ × σ) : ℕ → σ → Option (List ℤ × σ)
  | 0, _ => none
  | fuel + 1, s =>
    match next s with
    | (none, t) => some ([], t)
    | (some i, t) => (drain next fuel t).map fun r => (i :: r.1, r.2)

/-- The calls of `next` search a table of `n` entries behind a cursor, and do not change it. -/
structure Scans (next : σ → Option ℤ × σ) (cur : σ → ℤ) (test : σ → ℕ → Bool) (n : ℕ) : Prop where
  result : ∀ s, (next s).1 =
    if 0 ≤ nextIndex (test s) n (cur s) then some (nextIndex (test s) n (cur s)) else none
  cursor : ∀ s, cur (next s).2 = nextIndex (test s) n (cur s)
  table : ∀ s, test (next s).2 = test s

/-- The list has the elements of a set, once each and in increasing order. -/
def ListsInOrder (l : List ℤ) (A : Finset ℤ) : Prop := l.Pairwise (· < ·) ∧ ∀ i, i ∈ l ↔ i ∈ A

/-- A search finds the first entry behind the cursor. -/
theorem nextIndex_eq_headD (test : ℕ → Bool) (n : ℕ) (cur : ℤ) :
    nextIndex test n cur = (passingFrom test n (cur + 1).toNat).headD (-1) :=
  scanFrom_eq test n (cur + 1).toNat

/-- A search finds an entry behind the cursor, or there is none. -/
theorem nextIndex_cases (test : ℕ → Bool) (n : ℕ) (cur : ℤ) :
    (nextIndex test n cur = -1 ∧ ∀ i ∈ indexSet test n, ¬ cur < i) ∨
      (nextIndex test n cur ∈ indexSet test n ∧ cur < nextIndex test n cur) := by
  rw [nextIndex_eq_headD]
  cases hbehind : passingFrom test n (cur + 1).toNat with
  | nil =>
    refine .inl ⟨List.headD_nil, fun i hi hcur => ?_⟩
    have hmem : i ∈ passingFrom test n (cur + 1).toNat := by
      have hrange := (mem_indexSet.mp hi).1
      exact mem_passingFrom.mpr ⟨by omega, hi⟩
    rw [hbehind] at hmem
    contradiction
  | cons i rest =>
    have hmem : i ∈ passingFrom test n (cur + 1).toNat := by
      rw [hbehind]
      exact List.mem_cons_self
    obtain ⟨hlow, hi⟩ := mem_passingFrom.mp hmem
    rw [List.headD_cons]
    exact .inr ⟨hi, by omega⟩

/-- A loop sees the entries behind the cursor and leaves the cursor at the start. -/
theorem Scans.drain_eq {next : σ → Option ℤ × σ} {cur : σ → ℤ} {test : σ → ℕ → Bool} {n : ℕ}
    (h : Scans next cur test n) {fuel : ℕ} {s : σ} (hfuel : n - (cur s + 1).toNat < fuel) :
    ∃ t, drain next fuel s = some (passingFrom (test s) n (cur s + 1).toNat, t) ∧ cur t = -1 ∧
      test t = test s := by
  induction fuel generalizing s with
  | zero => contradiction
  | succ fuel ih =>
    have hresult := h.result s
    have hcursor := h.cursor s
    rw [nextIndex_eq_headD] at hresult hcursor
    unfold drain
    cases hbehind : passingFrom (test s) n (cur s + 1).toNat with
    | nil =>
      rw [hbehind, List.headD_nil] at hresult hcursor
      have hstep : next s = (none, (next s).2) := Prod.ext hresult rfl
      rw [hstep]
      exact ⟨(next s).2, rfl, hcursor, h.table s⟩
    | cons i rest =>
      have hi : i ∈ passingFrom (test s) n (cur s + 1).toNat := by
        rw [hbehind]
        exact List.mem_cons_self
      obtain ⟨hlow, hmem⟩ := mem_passingFrom.mp hi
      have hrange := (mem_indexSet.mp hmem).1
      rw [hbehind, List.headD_cons] at hresult hcursor
      rw [if_pos hrange.1] at hresult
      have hstep : next s = (some i, (next s).2) := Prod.ext hresult rfl
      have hleft : n - (cur (next s).2 + 1).toNat < fuel := by
        rw [hcursor]
        omega
      obtain ⟨t, hdrain, hend, htable⟩ := ih hleft
      rw [hcursor, h.table s, passingFrom_tail hbehind] at hdrain
      rw [hstep]
      refine ⟨t, ?_, hend, htable.trans (h.table s)⟩
      change (drain next fuel (next s).2).map _ = _
      rw [hdrain]
      rfl

/-- The entries behind the cursor are all of them exactly when none lies at or before it. -/
theorem listsInOrder_passingFrom_iff {test : ℕ → Bool} {n : ℕ} {cur : ℤ} :
    ListsInOrder (passingFrom test n (cur + 1).toNat) (indexSet test n) ↔
      ∀ i ∈ indexSet test n, cur < i := by
  constructor
  · intro h i hi
    have hlow := (mem_passingFrom.mp ((h.2 i).mpr hi)).1
    omega
  · intro h
    refine ⟨passingFrom_pairwise test n _, fun i => ?_⟩
    rw [mem_passingFrom, and_iff_right_iff_imp]
    intro hi
    have hcur := h i hi
    have hrange := (mem_indexSet.mp hi).1
    omega

/-- A loop over the object ends and leaves the cursor at the start. It sees the entries in order
exactly when none lies at or before the cursor. -/
theorem Scans.drain_complete_iff {next : σ → Option ℤ × σ} {cur : σ → ℤ} {test : σ → ℕ → Bool}
    {n : ℕ} (h : Scans next cur test n) (s : σ) :
    ∃ seen t, drain next (n + 1) s = some (seen, t) ∧ cur t = -1 ∧
      (ListsInOrder seen (indexSet (test s) n) ↔ ∀ i ∈ indexSet (test s) n, cur s < i) := by
  have hfuel : n - (cur s + 1).toNat < n + 1 := by omega
  obtain ⟨t, hdrain, hend, -⟩ := h.drain_eq hfuel
  exact ⟨_, t, hdrain, hend, listsInOrder_passingFrom_iff⟩

end Kerrighed.Common
