import Mathlib.Data.List.AList

/-!
# Singly linked lists in a heap

Cells live at addresses of a finite heap; a pointer is an optional address, `none` being
the null pointer. `IsSeg` relates a pointer to the addresses and payloads met on the way
to another pointer, so `IsSeg f h p l none` says that the list starting at `p` is finite,
ends in the null pointer and only goes through allocated cells.

The loops are total: a walk that has made more steps than there are cells has met a cell
twice and never ends, and a walk that follows a pointer to no cell has no defined
continuation. Both give `none`.
-/

namespace Kerrighed.Common

universe u

/-- How a cell stores its link, apart from the payload that the link does not touch. -/
structure LinkField (A C E : Type u) where
  next : C → Option A
  setNext : Option A → C → C
  payload : C → E
  next_setNext : ∀ q c, next (setNext q c) = q
  payload_setNext : ∀ q c, payload (setNext q c) = payload c

/-- The allocated cells with their addresses. -/
abbrev Heap (A C : Type u) := AList fun _ : A => C

variable {A C E : Type u} [DecidableEq A] (f : LinkField A C E)

/-- Enough steps for every walk that ends. -/
def walkSteps (h : Heap A C) : ℕ := h.entries.length + 1

/-- Following the links from `p` meets exactly the listed addresses and payloads, then `q`. -/
def IsSeg (h : Heap A C) : Option A → List (A × E) → Option A → Prop
  | p, [], q => p = q
  | p, (a, e) :: rest, q =>
    p = some a ∧ ∃ c, h.lookup a = some c ∧ f.payload c = e ∧ IsSeg h (f.next c) rest q

/-- Collect addresses and payloads up to the null pointer, in at most the given number of steps. -/
def collect (h : Heap A C) : ℕ → Option A → Option (List (A × E))
  | 0, _ => none
  | _ + 1, none => some []
  | n + 1, some a => do
    let c ← h.lookup a
    let rest ← collect h n (f.next c)
    some ((a, f.payload c) :: rest)

/-- The payloads a loop over the list from `p` visits, in order; `none` if it does not end. -/
def contents (h : Heap A C) (p : Option A) : Option (List E) :=
  (collect f h (walkSteps h) p).map (List.map Prod.snd)

/-- Walk to the first cell whose payload is sought, remembering the cell before it. -/
def locate (found : E → Bool) (h : Heap A C) : ℕ → Option A → Option A → Option (Option A × Option A)
  | 0, _, _ => none
  | _ + 1, prev, none => some (prev, none)
  | n + 1, prev, some a => do
    let c ← h.lookup a
    if found (f.payload c) then some (prev, some a) else locate found h n (some a) (f.next c)

/-- Write the link field of the cell at `b`. -/
def relink (h : Heap A C) (b : A) (q : Option A) : Option (Heap A C) := do
  let d ← h.lookup b
  some (h.insert b (f.setNext q d))

/-- Unlink and free the first cell whose payload is sought: whether there was one, the new
head of the list, and the heap. -/
def removeFirst (found : E → Bool) (h : Heap A C) (first : Option A) :
    Option (Bool × Option A × Heap A C) := do
  match ← locate f found h (walkSteps h) none first with
  | (_, none) => some (false, first, h)
  | (none, some a) =>
    let c ← h.lookup a
    some (true, f.next c, h.erase a)
  | (some b, some a) =>
    let c ← h.lookup a
    let h' ← relink f h b (f.next c)
    some (true, first, h'.erase a)

/-- Free every cell of the list, reading each link before its cell goes. -/
def freeAll : ℕ → Heap A C → Option A → Option (Heap A C)
  | 0, _, _ => none
  | _ + 1, h, none => some h
  | n + 1, h, some a => do
    let c ← h.lookup a
    freeAll n (h.erase a) (f.next c)

/-- Rewrite every cell of the list in place. -/
def updateAll (g : C → C) : ℕ → Heap A C → Option A → Option (Heap A C)
  | 0, _, _ => none
  | _ + 1, h, none => some h
  | n + 1, h, some a => do
    let c ← h.lookup a
    updateAll g n (h.insert a (g c)) (f.next (g c))

variable {f} {h h' : Heap A C} {p q : Option A} {l l₁ l₂ : List (A × E)}

/-- A segment splits wherever its list of addresses does. -/
theorem isSeg_append :
    IsSeg f h p (l₁ ++ l₂) q ↔ ∃ r, IsSeg f h p l₁ r ∧ IsSeg f h r l₂ q := by
  induction l₁ generalizing p with
  | nil => simp [IsSeg]
  | cons x rest ih =>
    constructor
    · rintro ⟨hp, c, hc, he, hrest⟩
      obtain ⟨r, hfirst, hsecond⟩ := ih.mp hrest
      exact ⟨r, ⟨hp, c, hc, he, hfirst⟩, hsecond⟩
    · rintro ⟨r, ⟨hp, c, hc, he, hfirst⟩, hsecond⟩
      exact ⟨hp, c, hc, he, ih.mpr ⟨r, hfirst, hsecond⟩⟩

/-- A list that ends goes through every segment from its starting pointer. -/
theorem IsSeg.split {l' : List (A × E)} (hl : IsSeg f h p l q) (hl' : IsSeg f h p l' none) :
    ∃ rest, l' = l ++ rest ∧ IsSeg f h q rest none := by
  induction l generalizing p l' with
  | nil => exact ⟨l', rfl, hl ▸ hl'⟩
  | cons x l ih =>
    obtain ⟨rfl, c, hc, he, htail⟩ := hl
    cases l' with
    | nil => exact absurd hl' (by simp [IsSeg])
    | cons y l' =>
      obtain ⟨ha, c', hc', he', htail'⟩ := hl'
      have haddr : x.1 = y.1 := Option.some.inj ha
      have hcell : c = c' := Option.some.inj (hc.symm.trans (haddr ▸ hc'))
      subst hcell
      obtain ⟨rest, rfl, hrest⟩ := ih htail htail'
      exact ⟨rest, by rw [show x = y from Prod.ext haddr (he.symm.trans he')]; rfl, hrest⟩

/-- The payloads met up to the null pointer are determined by the starting pointer. -/
theorem IsSeg.unique {l' : List (A × E)} (hl : IsSeg f h p l none) (hl' : IsSeg f h p l' none) :
    l = l' := by
  obtain ⟨rest, rfl, hrest⟩ := hl.split hl'
  cases rest with
  | nil => rw [List.append_nil]
  | cons y rest => exact absurd hrest.1 (by simp)

/-- A list that ends never meets the same cell twice. -/
theorem IsSeg.nodup (hl : IsSeg f h p l none) : (l.map Prod.fst).Nodup := by
  induction l generalizing p with
  | nil => exact List.nodup_nil
  | cons x rest ih =>
    obtain ⟨a, e⟩ := x
    have hwhole := hl
    obtain ⟨rfl, c, hc, he, hrest⟩ := hl
    refine List.nodup_cons.mpr ⟨?_, ih hrest⟩
    intro hmem
    obtain ⟨⟨a', e'⟩, hin, rfl⟩ := List.mem_map.mp hmem
    obtain ⟨r₁, r₂, rfl⟩ := List.append_of_mem hin
    obtain ⟨r, -, hsuffix⟩ := isSeg_append.mp hrest
    obtain rfl : r = some a' := hsuffix.1
    have hlen := congrArg List.length (hwhole.unique hsuffix)
    simp at hlen
    omega

/-- Every address met belongs to the heap. -/
theorem IsSeg.mem_heap (hl : IsSeg f h p l q) {x : A × E} (hx : x ∈ l) : x.1 ∈ h := by
  induction l generalizing p with
  | nil => simp at hx
  | cons y rest ih =>
    obtain ⟨-, c, hc, -, hrest⟩ := hl
    rcases List.mem_cons.mp hx with rfl | hx
    · exact AList.lookup_isSome.mp (by simp [hc])
    · exact ih hrest hx

/-- The heap has more than enough cells for every list that ends. -/
theorem IsSeg.length_lt (hl : IsSeg f h p l none) : l.length < walkSteps h := by
  have hsub : l.map Prod.fst ⊆ h.keys := by
    intro a ha
    obtain ⟨x, hx, rfl⟩ := List.mem_map.mp ha
    exact AList.mem_keys.mp (hl.mem_heap hx)
  have hle : (l.map Prod.fst).length ≤ h.keys.length := (List.subperm_of_subset hl.nodup hsub).length_le
  simp only [List.length_map, AList.keys, List.keys] at hle
  exact Nat.lt_succ_of_le hle

/-- Cells outside the segment may change freely. -/
theorem IsSeg.frame (hl : IsSeg f h p l q) (hsame : ∀ x ∈ l, h'.lookup x.1 = h.lookup x.1) :
    IsSeg f h' p l q := by
  induction l generalizing p with
  | nil => exact hl
  | cons x rest ih =>
    obtain ⟨hp, c, hc, he, hrest⟩ := hl
    exact ⟨hp, c, (hsame x List.mem_cons_self).trans hc, he,
      ih hrest fun y hy => hsame y (List.mem_cons_of_mem _ hy)⟩

/-- Collecting succeeds exactly on the lists that end, and returns what they hold. -/
theorem collect_eq_some {n : ℕ} :
    collect f h n p = some l ↔ IsSeg f h p l none ∧ l.length < n := by
  induction n generalizing p l with
  | zero => simp [collect]
  | succ n ih =>
    cases p with
    | none =>
      simp only [collect, Option.some.injEq]
      constructor
      · rintro rfl
        exact ⟨rfl, by simp⟩
      · rintro ⟨hl, -⟩
        exact IsSeg.unique (h := h) (f := f) (p := none) rfl hl
    | some a =>
      simp only [collect, Option.bind_eq_bind, Option.bind_eq_some_iff, Option.some.injEq]
      constructor
      · rintro ⟨c, hc, rest, hrest, rfl⟩
        obtain ⟨hseg, hlen⟩ := ih.mp hrest
        exact ⟨⟨rfl, c, hc, rfl, hseg⟩, by simpa using hlen⟩
      · rintro ⟨hl, hlen⟩
        cases l with
        | nil => exact absurd hl (by simp [IsSeg])
        | cons x rest =>
          obtain ⟨ha, c, hc, he, hseg⟩ := hl
          obtain rfl : a = x.1 := Option.some.inj ha
          exact ⟨c, hc, rest, ih.mpr ⟨hseg, by simpa using hlen⟩, by rw [he]⟩

/-- A list that leads to a freed cell cannot be collected. -/
theorem IsSeg.collect_eq_none {a : A} (hl : IsSeg f h p l (some a)) (ha : a ∉ h) (n : ℕ) :
    collect f h n p = none := by
  rw [Option.eq_none_iff_forall_ne_some]
  intro l' hcollect
  obtain ⟨rest, -, hrest⟩ := hl.split (collect_eq_some.mp hcollect).1
  cases rest with
  | nil => exact absurd hrest (by simp [IsSeg])
  | cons y rest =>
    obtain ⟨hy, c, hc, -⟩ := hrest
    rw [← Option.some.inj hy, AList.lookup_eq_none.mpr ha] at hc
    exact absurd hc (by simp)

/-- The payloads visited from a pointer are those of the list that starts there. -/
theorem contents_eq_some {es : List E} :
    contents f h p = some es ↔ ∃ l, IsSeg f h p l none ∧ l.map Prod.snd = es := by
  simp only [contents, Option.map_eq_some_iff, collect_eq_some]
  constructor
  · rintro ⟨l, ⟨hl, -⟩, he⟩
    exact ⟨l, hl, he⟩
  · rintro ⟨l, hl, he⟩
    exact ⟨l, ⟨hl, hl.length_lt⟩, he⟩

/-- The address of the last cell of a segment, `prev` if it is empty. -/
def lastAddr : Option A → List (A × E) → Option A
  | prev, [] => prev
  | _, (a, _) :: rest => lastAddr (some a) rest

omit [DecidableEq A] in
/-- The last address of a segment that ends in a given cell. -/
@[simp] theorem lastAddr_append_singleton (prev : Option A) (l : List (A × E)) (x : A × E) :
    lastAddr prev (l ++ [x]) = some x.1 := by
  induction l generalizing prev with
  | nil => rfl
  | cons y rest ih => exact ih _

/-- A walk over a segment without the sought payload goes on behind it. -/
theorem locate_append (found : E → Bool) {n : ℕ} (prev : Option A)
    (hl : IsSeg f h p l q) (hnot : ∀ x ∈ l, found x.2 = false) :
    locate f found h (n + l.length) prev p = locate f found h n (lastAddr prev l) q := by
  induction l generalizing p prev with
  | nil => rw [hl]; rfl
  | cons x rest ih =>
    obtain ⟨rfl, c, hc, he, hrest⟩ := hl
    have hx : found (f.payload c) = false := he ▸ hnot x List.mem_cons_self
    have hih := ih (some x.1) hrest fun y hy => hnot y (List.mem_cons_of_mem _ hy)
    rw [List.length_cons, ← Nat.add_assoc]
    simp only [locate, hc, Option.bind_eq_bind, Option.bind_some, hx, Bool.false_eq_true,
      if_false, hih]
    rfl

/-- If no payload is sought, the walk stops at the null pointer behind the last cell. -/
theorem locate_eq_none (found : E → Bool) (hl : IsSeg f h p l none)
    (hnot : ∀ x ∈ l, found x.2 = false) :
    locate f found h (walkSteps h) none p = some (lastAddr none l, none) := by
  obtain ⟨k, hk⟩ := Nat.exists_eq_add_of_lt hl.length_lt
  rw [show walkSteps h = k + 1 + l.length by omega, locate_append found none hl hnot]
  rfl

/-- The walk stops at the first sought payload, having passed the cell before it. -/
theorem locate_eq_some (found : E → Bool) {a : A} {e : E}
    (hl : IsSeg f h p (l₁ ++ (a, e) :: l₂) none) (hnot : ∀ x ∈ l₁, found x.2 = false)
    (he : found e = true) :
    locate f found h (walkSteps h) none p = some (lastAddr none l₁, some a) := by
  have hlen := hl.length_lt
  obtain ⟨r, hfirst, rfl, c, hc, hpay, -⟩ := isSeg_append.mp hl
  simp only [List.length_append, List.length_cons] at hlen
  obtain ⟨k, hk⟩ := Nat.exists_eq_add_of_lt hlen
  rw [show walkSteps h = (l₂.length + 1 + k + 1) + l₁.length by omega,
    locate_append found none hfirst hnot]
  simp [locate, hc, hpay, he]

/-- Writing the link of the last cell of a segment redirects the segment. -/
theorem IsSeg.relink_last {a : A} {e : E} (hl : IsSeg f h p (l ++ [(a, e)]) q)
    (hfresh : a ∉ l.map Prod.fst) (r : Option A) :
    ∃ h', relink f h a r = some h' ∧ IsSeg f h' p (l ++ [(a, e)]) r ∧
      ∀ b, b ≠ a → h'.lookup b = h.lookup b := by
  obtain ⟨m, hfirst, rfl, c, hc, hpay, -⟩ := isSeg_append.mp hl
  refine ⟨h.insert a (f.setNext r c), by simp [relink, hc], ?_, ?_⟩
  · refine isSeg_append.mpr ⟨some a, hfirst.frame ?_, rfl, f.setNext r c,
      AList.lookup_insert h, ?_, f.next_setNext r c⟩
    · intro x hx
      exact AList.lookup_insert_ne fun heq => hfresh (heq ▸ List.mem_map_of_mem hx)
    · rw [f.payload_setNext, hpay]
  · intro b hb
    exact AList.lookup_insert_ne hb

/-- Removing the first sought payload leaves the list without it; if none is sought the list
and the heap stay. -/
theorem removeFirst_eq (found : E → Bool) {first : Option A} (hl : IsSeg f h first l none) :
    ∃ first' h', removeFirst f found h first = some (l.any (fun x => found x.2), first', h') ∧
      IsSeg f h' first' (l.eraseP fun x => found x.2) none ∧
      (l.any (fun x => found x.2) = false → first' = first ∧ h' = h) := by
  by_cases hany : l.any (fun x => found x.2) = true
  · obtain ⟨⟨a, e⟩, l₁, l₂, hnot, he, rfl, herase⟩ :=
      List.exists_of_eraseP (p := fun x : A × E => found x.2) (List.any_eq_true.mp hany).choose_spec.1
        (List.any_eq_true.mp hany).choose_spec.2
    have hnot' : ∀ x ∈ l₁, found x.2 = false := fun x hx => by simpa using hnot x hx
    have hloc := locate_eq_some found hl hnot' he
    have hnodup := hl.nodup
    obtain ⟨m, hfirst, rfl, c, hc, hpay, hrest⟩ := isSeg_append.mp hl
    simp only [List.map_append, List.map_cons, List.nodup_append, List.nodup_cons] at hnodup
    obtain ⟨hnodup₁, ⟨ha₂, -⟩, hdisj⟩ := hnodup
    have ha₁ : a ∉ l₁.map Prod.fst := fun ha => hdisj a ha a List.mem_cons_self rfl
    have hrest' : IsSeg f (h.erase a) (f.next c) l₂ none := hrest.frame fun x hx =>
      AList.lookup_erase_ne fun heq => ha₂ (heq ▸ List.mem_map_of_mem hx)
    rw [hany, herase]
    rcases List.eq_nil_or_concat l₁ with rfl | ⟨l₀, ⟨b, eb⟩, rfl⟩
    · exact ⟨f.next c, h.erase a, by simp [removeFirst, hloc, lastAddr, hc], hrest', by simp⟩
    · rw [List.concat_eq_append] at *
      have hb₀ : b ∉ l₀.map Prod.fst := by
        simp only [List.map_append, List.map_cons, List.map_nil, List.nodup_append] at hnodup₁
        exact fun hb => hnodup₁.2.2 b hb b (by simp) rfl
      obtain ⟨h', hlink, hseg, hother⟩ := hfirst.relink_last hb₀ (f.next c)
      have hne : ∀ x ∈ l₀ ++ [(b, eb)], x.1 ≠ a := fun x hx heq =>
        ha₁ (heq ▸ List.mem_map_of_mem hx)
      refine ⟨first, h'.erase a, ?_, ?_, by simp⟩
      · simp [removeFirst, hloc, hc, hlink]
      · refine isSeg_append.mpr ⟨f.next c, hseg.frame ?_, hrest.frame ?_⟩
        · intro x hx
          exact AList.lookup_erase_ne (hne x hx)
        · intro x hx
          have hxa : x.1 ≠ a := fun heq => ha₂ (heq ▸ List.mem_map_of_mem hx)
          have hxb : x.1 ≠ b := fun heq =>
            hdisj b (by simp) x.1 (List.mem_cons_of_mem _ (List.mem_map_of_mem hx)) heq.symm
          rw [AList.lookup_erase_ne hxa, hother x.1 hxb]
  · have hany' : l.any (fun x => found x.2) = false := by simpa using hany
    have hnot : ∀ x ∈ l, found x.2 = false := fun x hx => by
      simpa using List.any_eq_false.mp hany' x hx
    rw [hany', List.eraseP_of_forall_not (by simpa using hnot)]
    exact ⟨first, h, by simp [removeFirst, locate_eq_none found hl hnot], hl, fun _ => ⟨rfl, rfl⟩⟩

/-- A list that ends can be freed from its head on. -/
theorem freeAll_eq {n : ℕ} (hl : IsSeg f h p l none) (hn : l.length < n) :
    ∃ h', freeAll f n h p = some h' := by
  induction n generalizing h p l with
  | zero => omega
  | succ n ih =>
    cases l with
    | nil => exact ⟨h, by rw [hl]; rfl⟩
    | cons x rest =>
      have hnodup := hl.nodup
      obtain ⟨rfl, c, hc, -, hrest⟩ := hl
      have hx : x.1 ∉ rest.map Prod.fst := (List.nodup_cons.mp hnodup).1
      obtain ⟨h', hfree⟩ := ih (h := h.erase x.1) (l := rest) (hrest.frame fun y hy =>
        AList.lookup_erase_ne fun heq => hx (heq ▸ List.mem_map_of_mem hy)) (by simpa using hn)
      exact ⟨h', by simp [freeAll, hc, hfree]⟩

/-- Rewriting the cells of a list that ends, without moving their links, gives a list at the
same addresses, here with its payloads read through another field `f'`. -/
theorem updateAll_eq {E' : Type u} (f' : LinkField A C E') {g : C → C} {k : E → E'}
    (hg : ∀ c, f.next (g c) = f.next c) (hnext : ∀ c, f'.next (g c) = f.next c)
    (hpay : ∀ c, f'.payload (g c) = k (f.payload c)) {n : ℕ}
    (hl : IsSeg f h p l none) (hn : l.length < n) :
    ∃ h', updateAll f g n h p = some h' ∧ IsSeg f' h' p (l.map fun x => (x.1, k x.2)) none ∧
      ∀ b ∉ l.map Prod.fst, h'.lookup b = h.lookup b := by
  induction n generalizing h p l with
  | zero => omega
  | succ n ih =>
    cases l with
    | nil => exact ⟨h, by rw [hl]; rfl, hl, fun _ _ => rfl⟩
    | cons x rest =>
      have hnodup := hl.nodup
      obtain ⟨rfl, c, hc, he, hrest⟩ := hl
      have hx : x.1 ∉ rest.map Prod.fst := (List.nodup_cons.mp hnodup).1
      obtain ⟨h', hupdate, hseg, hother⟩ := ih (h := h.insert x.1 (g c)) (l := rest)
        (hrest.frame fun y hy => AList.lookup_insert_ne fun heq =>
          hx (heq ▸ List.mem_map_of_mem hy)) (by simpa using hn)
      refine ⟨h', by simp [updateAll, hc, hg, hupdate], ⟨rfl, g c, ?_, ?_, ?_⟩, ?_⟩
      · rw [hother x.1 hx, AList.lookup_insert]
      · rw [hpay, he]
      · rw [hnext]
        exact hseg
      · intro b hb
        obtain ⟨hbx, hbrest⟩ := not_or.mp (List.mem_cons.not.mp hb)
        rw [hother b hbrest, AList.lookup_insert_ne hbx]

/-- Freeing a cell leaves one less. -/
theorem length_erase {a : A} (ha : a ∈ h) : (h.erase a).entries.length + 1 = h.entries.length := by
  have hkeys (k : Heap A C) : k.entries.length = k.keys.length := by simp [AList.keys, List.keys]
  rw [hkeys, hkeys, AList.keys_erase, List.length_erase_of_mem (AList.mem_keys.mp ha)]
  exact Nat.sub_add_cancel (List.length_pos_of_mem (AList.mem_keys.mp ha))

/-- Allocating a cell makes one more. -/
theorem length_insert {a : A} (ha : a ∉ h) (c : C) :
    (h.insert a c).entries.length = h.entries.length + 1 := by
  rw [AList.entries_insert_of_notMem ha, List.length_cons]

/-- Writing a link leaves as many cells. -/
theorem length_relink {b : A} (hlink : relink f h b q = some h') :
    h'.entries.length = h.entries.length := by
  obtain ⟨d, hd, hinsert⟩ := Option.bind_eq_some_iff.mp hlink
  obtain rfl := Option.some.inj hinsert
  have hb : b ∈ h := AList.lookup_isSome.mp (by rw [hd]; rfl)
  rw [AList.entries_insert, List.length_cons]
  exact length_erase hb

/-- Writing a link leaves every cell where it is. -/
theorem mem_relink {a b : A} (hlink : relink f h b q = some h') (ha : a ∈ h) : a ∈ h' := by
  obtain ⟨d, hd, hinsert⟩ := Option.bind_eq_some_iff.mp hlink
  obtain rfl := Option.some.inj hinsert
  exact (AList.mem_insert h).mpr (Or.inr ha)

/-- Removing a payload frees its cell, and none when it is not there. -/
theorem length_removeFirst {found : E → Bool} {first first' : Option A} {removed : Bool}
    (hremove : removeFirst f found h first = some (removed, first', h')) :
    h'.entries.length + (if removed then 1 else 0) = h.entries.length := by
  obtain ⟨⟨prev, sought⟩, hlocate, hremove⟩ := Option.bind_eq_some_iff.mp hremove
  cases sought with
  | none =>
    obtain ⟨rfl, -, rfl⟩ : false = removed ∧ first = first' ∧ h = h' := by simpa using hremove
    rfl
  | some a =>
    cases prev with
    | none =>
      obtain ⟨c, hc, hremove⟩ := Option.bind_eq_some_iff.mp hremove
      obtain ⟨rfl, -, rfl⟩ : true = removed ∧ f.next c = first' ∧ h.erase a = h' := by
        simpa using hremove
      exact length_erase (AList.lookup_isSome.mp (by rw [hc]; rfl))
    | some b =>
      obtain ⟨c, hc, hremove⟩ := Option.bind_eq_some_iff.mp hremove
      obtain ⟨h'', hlink, hremove⟩ := Option.bind_eq_some_iff.mp hremove
      obtain ⟨rfl, -, rfl⟩ : true = removed ∧ first = first' ∧ h''.erase a = h' := by
        simpa using hremove
      have ha : a ∈ h := AList.lookup_isSome.mp (by rw [hc]; rfl)
      rw [← length_relink hlink]
      exact length_erase (mem_relink hlink ha)

/-- Freeing a list that ends frees as many cells as it has. -/
theorem length_freeAll {n : ℕ} (hl : IsSeg f h p l none) (hfree : freeAll f n h p = some h') :
    h'.entries.length + l.length = h.entries.length := by
  induction n generalizing h p l with
  | zero => cases hfree
  | succ n ih =>
    cases l with
    | nil =>
      rw [hl] at hfree
      obtain rfl := Option.some.inj hfree
      rfl
    | cons x rest =>
      have hnodup := hl.nodup
      obtain ⟨rfl, c, hc, -, hrest⟩ := hl
      have hx : x.1 ∉ rest.map Prod.fst := (List.nodup_cons.mp hnodup).1
      rw [freeAll, hc] at hfree
      have hrest' : IsSeg f (h.erase x.1) (f.next c) rest none := hrest.frame fun y hy =>
        AList.lookup_erase_ne fun heq => hx (heq ▸ List.mem_map_of_mem hy)
      have hcount := ih hrest' hfree
      have herase := length_erase (AList.lookup_isSome.mp (by rw [hc]; rfl) : x.1 ∈ h)
      rw [List.length_cons]
      omega

end Kerrighed.Common
