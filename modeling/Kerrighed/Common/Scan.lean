import Mathlib.Data.Finset.Sort

/-!
# Scanning a bounded range

A table of `n` entries is searched from an index on for the next entry that passes a test,
with `-1` for the end of the table. `visit` is the loop around such a search: it handles one
index after the other while the table may change under it.

As long as the body leaves the entries behind the current index alone, the loop visits
exactly the indices that passed the test at its start, in increasing order.
-/

namespace Kerrighed.Common

variable {σ : Type*}

/-- Search `left` entries from index `i` on. -/
def scanFrom (test : ℕ → Bool) : ℕ → ℕ → ℤ
  | 0, _ => -1
  | left + 1, i => if test i then i else scanFrom test left (i + 1)

/-- The first index behind `node` that passes the test, where `node` is an index or `-1`. -/
def nextIndex (test : ℕ → Bool) (n : ℕ) (node : ℤ) : ℤ :=
  scanFrom test (n - (node + 1).toNat) (node + 1).toNat

/-- The loop over `node` that takes `next` after each turn and stops at `-1`: the nodes
visited and the last state, or `none` when the fuel does not reach the end. -/
def visitFrom (next : σ → ℤ → ℤ) (body : σ → ℤ → σ) : ℕ → σ → ℤ → Option (List ℤ × σ)
  | 0, _, _ => none
  | fuel + 1, s, node =>
    if node = -1 then some ([], s)
    else
      let t := body s node
      (visitFrom next body fuel t (next t node)).map fun r => (node :: r.1, r.2)

/-- The whole loop, from the first node on. -/
def visit (next : σ → ℤ → ℤ) (body : σ → ℤ → σ) (fuel : ℕ) (s : σ) : Option (List ℤ × σ) :=
  visitFrom next body fuel s (next s (-1))

/-- The nodes that a loop without a state of its own visits. -/
def walk (next : ℤ → ℤ) (fuel : ℕ) : Option (List ℤ) :=
  (visit (fun (_ : Unit) node => next node) (fun u _ => u) fuel ()).map Prod.fst

/-- The indices from `k` on that pass the test, in increasing order. -/
def passingFrom (test : ℕ → Bool) (n k : ℕ) : List ℤ :=
  ((List.range' k (n - k)).filter test).map Nat.cast

/-- The indices that pass the test, in increasing order. -/
def passing (test : ℕ → Bool) (n : ℕ) : List ℤ := passingFrom test n 0

/-- The indices that pass the test, as a set. -/
def indexSet (test : ℕ → Bool) (n : ℕ) : Finset ℤ :=
  ((Finset.range n).filter (test ·)).image Nat.cast

/-- An index passes exactly when it lies in the table and its entry passes. -/
@[simp]
theorem mem_indexSet {test : ℕ → Bool} {n : ℕ} {i : ℤ} :
    i ∈ indexSet test n ↔ (0 ≤ i ∧ i < n) ∧ test i.toNat = true := by
  simp only [indexSet, Finset.mem_image, Finset.mem_filter, Finset.mem_range]
  constructor
  · rintro ⟨k, ⟨hk, htest⟩, rfl⟩
    exact ⟨by omega, by simpa using htest⟩
  · rintro ⟨hrange, htest⟩
    exact ⟨i.toNat, ⟨by omega, htest⟩, Int.toNat_of_nonneg hrange.1⟩

/-- The list from `k` on starts with `k` when `k` passes. -/
theorem passingFrom_of_lt {test : ℕ → Bool} {n k : ℕ} (hk : k < n) :
    passingFrom test n k =
      if test k then (k : ℤ) :: passingFrom test n (k + 1) else passingFrom test n (k + 1) := by
  obtain ⟨d, hd⟩ : ∃ d, n - k = d + 1 := ⟨n - k - 1, by omega⟩
  have hrest : n - (k + 1) = d := by omega
  simp only [passingFrom, hd, hrest, List.range'_succ, List.filter_cons]
  split <;> rfl

/-- No index is left from the end of the table on. -/
theorem passingFrom_of_le {test : ℕ → Bool} {n k : ℕ} (hk : n ≤ k) :
    passingFrom test n k = [] := by
  simp [passingFrom, Nat.sub_eq_zero_of_le hk]

/-- Only the entries from `k` on decide which indices from `k` on pass. -/
theorem passingFrom_congr {test test' : ℕ → Bool} {n k : ℕ}
    (h : ∀ j, k ≤ j → test j = test' j) : passingFrom test n k = passingFrom test' n k := by
  rw [passingFrom, passingFrom, List.filter_congr fun j hj => h j ?_]
  exact (List.mem_range'_1.mp hj).1

/-- The list from `k` on holds the indices from `k` on that pass. -/
theorem mem_passingFrom {test : ℕ → Bool} {n k : ℕ} {i : ℤ} :
    i ∈ passingFrom test n k ↔ k ≤ i ∧ i ∈ indexSet test n := by
  rw [mem_indexSet]
  simp only [passingFrom, List.mem_map, List.mem_filter, List.mem_range'_1]
  constructor
  · rintro ⟨j, ⟨hj, htest⟩, rfl⟩
    exact ⟨by omega, by omega, by simpa using htest⟩
  · rintro ⟨hk, ⟨h0, hn⟩, htest⟩
    exact ⟨i.toNat, ⟨by omega, htest⟩, by omega⟩

/-- The list holds the indices of the set. -/
@[simp]
theorem mem_passing {test : ℕ → Bool} {n : ℕ} {i : ℤ} :
    i ∈ passing test n ↔ i ∈ indexSet test n := by
  rw [passing, mem_passingFrom, and_iff_right_iff_imp]
  intro hi
  exact (mem_indexSet.mp hi).1.1

/-- The list from an index on is strictly increasing. -/
theorem passingFrom_pairwise (test : ℕ → Bool) (n k : ℕ) :
    (passingFrom test n k).Pairwise (· < ·) := by
  refine List.pairwise_map.mpr (List.Pairwise.filter _ ?_)
  exact (List.pairwise_lt_range' (s := k)).imp (by simp)

/-- The list is strictly increasing. -/
theorem passing_pairwise (test : ℕ → Bool) (n : ℕ) : (passing test n).Pairwise (· < ·) :=
  passingFrom_pairwise test n 0

/-- No index stands twice in the list. -/
theorem passing_nodup (test : ℕ → Bool) (n : ℕ) : (passing test n).Nodup :=
  (passing_pairwise test n).imp ne_of_lt

/-- The number of indices in the list is the size of the set. -/
theorem length_passing (test : ℕ → Bool) (n : ℕ) :
    (passing test n).length = (indexSet test n).card := by
  rw [← List.toFinset_card_of_nodup (passing_nodup test n)]
  congr 1
  ext i
  rw [List.mem_toFinset, mem_passing]

/-- The first elements of a list without repetitions are as many as asked for. -/
theorem card_take_toFinset {l : List ℤ} (hnodup : l.Nodup) {n : ℤ} (hn : 0 ≤ n)
    (hlength : n ≤ l.length) : ((l.take n.toNat).toFinset.card : ℤ) = n := by
  rw [List.toFinset_card_of_nodup (hnodup.sublist (List.take_sublist _ _)), List.length_take]
  omega

/-- A set consists of the `n` lowest elements of another one. -/
structure Lowest (n : ℤ) (all chosen : Finset ℤ) : Prop where
  subset : chosen ⊆ all
  card : (chosen.card : ℤ) = n
  lt : ∀ i ∈ chosen, ∀ j ∈ all, j ∉ chosen → i < j

/-- The first elements of an increasing list are the lowest ones. -/
theorem lowest_take {l : List ℤ} (hl : l.Pairwise (· < ·)) {n : ℤ} (hn : 0 ≤ n)
    (hlength : n ≤ l.length) : Lowest n l.toFinset (l.take n.toNat).toFinset where
  subset i hi := List.mem_toFinset.mpr (List.mem_of_mem_take (List.mem_toFinset.mp hi))
  card := card_take_toFinset (hl.imp ne_of_lt) hn hlength
  lt i hi j hj hout := by
    rw [List.mem_toFinset] at hi hj hout
    rw [← List.take_append_drop n.toNat l] at hj hl
    obtain hj | hj := List.mem_append.mp hj
    · exact absurd hj hout
    · exact (List.pairwise_append.mp hl).2.2 i hi j hj

/-- A counting loop over the table finds the size of the set. -/
theorem countP_range (test : ℕ → Bool) (n : ℕ) :
    (List.range n).countP test = (indexSet test n).card := by
  rw [← length_passing, passing, passingFrom, List.length_map, List.countP_eq_length_filter,
    List.range_eq_range', Nat.sub_zero]

/-- A search finds the first index left, or `-1`. -/
theorem scanFrom_eq (test : ℕ → Bool) (n k : ℕ) :
    scanFrom test (n - k) k = (passingFrom test n k).headD (-1) := by
  induction hleft : n - k generalizing k with
  | zero => simp [scanFrom, passingFrom_of_le (Nat.le_of_sub_eq_zero hleft)]
  | succ left ih =>
    have hrest : n - (k + 1) = left := by omega
    rw [passingFrom_of_lt (by omega), scanFrom]
    split
    · rfl
    · rw [← ih (k + 1) hrest]

/-- Behind the first index that passes lie the others. -/
theorem passingFrom_tail {test : ℕ → Bool} {n k : ℕ} {i : ℤ} {rest : List ℤ}
    (h : passingFrom test n k = i :: rest) : passingFrom test n (i + 1).toNat = rest := by
  induction hleft : n - k generalizing k with
  | zero => simp [passingFrom_of_le (Nat.le_of_sub_eq_zero hleft)] at h
  | succ left ih =>
    rw [passingFrom_of_lt (by omega)] at h
    split at h
    · obtain ⟨rfl, hrest⟩ := List.cons.inj h
      rw [show ((k : ℤ) + 1).toNat = k + 1 by omega, hrest]
    · exact ih h (by omega)

/-- The search repeated from the start finds the indices one after the other. -/
theorem iterate_nextIndex (test : ℕ → Bool) {n k : ℕ} (hk : k < (passing test n).length) :
    (nextIndex test n)^[k + 1] (-1) = (passing test n)[k] ∧
      passingFrom test n ((passing test n)[k] + 1).toNat = (passing test n).drop (k + 1) := by
  have hnext {cur : ℤ} {m : ℕ} (hm : m < (passing test n).length)
      (hleft : passingFrom test n (cur + 1).toNat = (passing test n).drop m) :
      nextIndex test n cur = (passing test n)[m] ∧
        passingFrom test n ((passing test n)[m] + 1).toNat = (passing test n).drop (m + 1) := by
    rw [List.drop_eq_getElem_cons hm] at hleft
    exact ⟨by rw [nextIndex, scanFrom_eq, hleft, List.headD_cons], passingFrom_tail hleft⟩
  induction k with
  | zero => exact hnext hk rfl
  | succ k ih =>
    obtain ⟨hcur, hleft⟩ := ih (by omega)
    rw [Function.iterate_succ_apply', hcur]
    exact hnext hk hleft

/-- The body keeps the invariant and leaves the entries behind its index alone. -/
def BodyKeeps (inv : ℕ → σ → Prop) (test : σ → ℕ → Bool) (body : σ → ℤ → σ) : Prop :=
  ∀ s i, inv i s → inv (i + 1) (body s i) ∧ ∀ j, i < j → test (body s i) j = test s j

/-- The loop from `k` on visits the indices from `k` on that pass at its start, and runs the
body on them in that order. -/
theorem visitFrom_eq (inv : ℕ → σ → Prop) {test : σ → ℕ → Bool} {n : ℕ} {body : σ → ℤ → σ}
    (hmono : ∀ s i, inv i s → inv (i + 1) s) (hbody : BodyKeeps inv test body) {fuel k : ℕ}
    {s : σ} (hs : inv k s) (hfuel : n - k < fuel) :
    visitFrom (fun s => nextIndex (test s) n) body fuel s (scanFrom (test s) (n - k) k) =
      some (passingFrom (test s) n k, (passingFrom (test s) n k).foldl body s) := by
  induction hleft : n - k generalizing k s fuel with
  | zero =>
    obtain ⟨fuel, rfl⟩ : ∃ f, fuel = f + 1 := ⟨fuel - 1, by omega⟩
    simp [scanFrom, visitFrom, passingFrom_of_le (Nat.le_of_sub_eq_zero hleft)]
  | succ left ih =>
    have hk : k < n := by omega
    have hrest : n - (k + 1) = left := by omega
    rw [passingFrom_of_lt hk, scanFrom]
    cases htest : test s k with
    | false => simpa using ih (k := k + 1) (hmono s k hs) (by omega) hrest
    | true =>
      obtain ⟨fuel, rfl⟩ : ∃ f, fuel = f + 1 := ⟨fuel - 1, by omega⟩
      obtain ⟨hs', hbehind⟩ := hbody s k hs
      have hsame : passingFrom (test s) n (k + 1) = passingFrom (test (body s k)) n (k + 1) :=
        passingFrom_congr fun j hj => (hbehind j (by omega)).symm
      have hnext : nextIndex (test (body s k)) n k =
          scanFrom (test (body s k)) left (k + 1) := by
        simp [nextIndex, hrest, show ((k : ℤ) + 1).toNat = k + 1 by omega]
      have hne : (k : ℤ) ≠ -1 := by omega
      simp only [if_true, visitFrom, hne, if_false, hnext]
      rw [ih hs' (by omega) hrest, hsame]
      rfl

/-- The loop ends, visits exactly the indices that pass at its start in increasing order, and
runs the body on each of them, when the body leaves the entries behind its index alone. -/
theorem visit_eq (inv : ℕ → σ → Prop) {test : σ → ℕ → Bool} {n : ℕ} {body : σ → ℤ → σ}
    (hmono : ∀ s i, inv i s → inv (i + 1) s) (hbody : BodyKeeps inv test body) {s : σ}
    (hs : inv 0 s) {fuel : ℕ} (hfuel : n < fuel) :
    visit (fun s => nextIndex (test s) n) body fuel s =
      some (passing (test s) n, (passing (test s) n).foldl body s) :=
  visitFrom_eq inv hmono hbody hs hfuel

/-- The same for a loop without an invariant. -/
theorem visit_eq_of_forall {test : σ → ℕ → Bool} {n : ℕ} {body : σ → ℤ → σ}
    (hbody : ∀ s (i j : ℕ), i < j → test (body s i) j = test s j) {s : σ} {fuel : ℕ}
    (hfuel : n < fuel) :
    visit (fun s => nextIndex (test s) n) body fuel s =
      some (passing (test s) n, (passing (test s) n).foldl body s) :=
  visit_eq (fun _ _ => True) (fun _ _ _ => trivial)
    (fun s i _ => ⟨trivial, fun j hj => hbody s i j hj⟩) trivial hfuel

/-- A walk over a table visits the indices that pass. -/
theorem walk_nextIndex (test : ℕ → Bool) {n fuel : ℕ} (hfuel : n < fuel) :
    walk (nextIndex test n) fuel = some (passing test n) := by
  have h : visit (fun (_ : Unit) node => nextIndex test n node) (fun u _ => u) fuel () =
      some (passing test n, _) :=
    visit_eq_of_forall (fun _ _ _ _ => rfl) hfuel
  rw [walk, h]
  rfl

end Kerrighed.Common
