import Kerrighed.Krgcheckpoint.ForkSteps
import Mathlib.Data.Set.Subsingleton

/-!
# The list of children under two calls at once

While one thread at a time is at work on the list, it holds at most one pid, `add_child` finds no
successor to link to, and `remove_child` has seen the list as it is. A handler that returns leaves
no cell with the pid of its signal.
-/

namespace Kerrighed.Krgcheckpoint

open Kerrighed.Common

variable {ι : Type}

/-- What `remove_child` has seen of the list. -/
def RemoveOk (pid : ℤ) (l : List (ℕ × ℤ)) : RemovePlace → Prop
  | .start => True
  | .loop prev child =>
    (prev = none ∧ child = l.head?.map Prod.fst) ∨ (child = none ∧ pid ∉ l.map Prod.snd)
  | .found prev child => prev = none ∧ l = [(child, pid)]
  | .freeing _ => l = []

/-- The list holds at most one pid, and none of a child whose death has been handled; one thread at
most is at work on it. -/
structure ListInv (s : Parent ι) (l : List (ℕ × ℤ)) : Prop where
  seg : IsSeg childLink s.code.heap s.code.firstChild l none
  short : l.length ≤ 1
  noticed : ∀ c ∈ s.children, c.noticed = true → c.pid ∉ l.map Prod.snd
  users : {t | s.touchesList t = true}.Subsingleton
  handlers : ∀ t, ∀ h ∈ s.handlers t, RemoveOk h.pid l h.place

/-- A step that leaves the list alone keeps its invariant. -/
theorem ListInv.frame {s s' : Parent ι} {l : List (ℕ × ℤ)} (hs : ListInv s l)
    (hcode : s'.code = s.code)
    (hchildren : ∀ c' ∈ s'.children, c'.noticed = true →
      ∃ c ∈ s.children, c.noticed = true ∧ c.pid = c'.pid)
    (hhandlers : s'.handlers = s.handlers)
    (hphases : ∀ u, (s'.phases u).inList = true → (s.phases u).inList = true) : ListInv s' l where
  seg := hcode ▸ hs.seg
  short := hs.short
  noticed c' hc' hnotice := by
    obtain ⟨c, hc, hold, hpid⟩ := hchildren c' hc' hnotice
    exact hpid ▸ hs.noticed c hc hold
  users := hs.users.anti fun u hu => by
    simp only [Set.mem_ofPred_eq, Parent.touchesList, hhandlers, Bool.or_eq_true] at hu ⊢
    exact hu.imp_right (hphases u)
  handlers t h hh := hs.handlers t h (hhandlers ▸ hh)

/-- A change of a child that does not count it as noticed keeps the others as noticed as they
were. -/
theorem noticed_of_setForked {s : Parent ι} {child : Option ℤ} {f : ForkedChild → ForkedChild}
    (hf : ∀ c, (f c).pid = c.pid ∧ (f c).noticed = c.noticed) {c' : ForkedChild}
    (hmem : c' ∈ (s.setForked child f).children) (hnotice : c'.noticed = true) :
    ∃ c ∈ s.children, c.noticed = true ∧ c.pid = c'.pid := by
  cases child with
  | none => exact ⟨c', hmem, hnotice, rfl⟩
  | some pid =>
    obtain ⟨c, hc, rfl⟩ := mem_setChild hmem
    refine ⟨c, hc, ?_⟩
    split at hnotice
    · rename_i hpid
      rw [if_pos hpid]
      exact ⟨(hf c).2 ▸ hnotice, (hf c).1.symm⟩
    · rename_i hpid
      rw [if_neg hpid]
      exact ⟨hnotice, rfl⟩

/-- A change of a child that does not count it as noticed leaves the list. -/
theorem ListInv.setForked {s : Parent ι} {l : List (ℕ × ℤ)} (hs : ListInv s l) (child : Option ℤ)
    {f : ForkedChild → ForkedChild} (hf : ∀ c, (f c).pid = c.pid ∧ (f c).noticed = c.noticed) :
    ListInv (s.setForked child f) l :=
  hs.frame rfl (fun _ hc h => noticed_of_setForked hf hc h) rfl fun _ hu => hu

/-- The first cell of a list of at most one has no successor. -/
theorem ListInv.head_next {s : Parent ι} {l : List (ℕ × ℤ)} (hs : ListInv s l) {first : ℕ}
    {head : ChildProcess} (hfirst : s.code.firstChild = some first)
    (hhead : s.code.heap.lookup first = some head) : head.next = none := by
  have hl := hs.seg
  have hlength := hs.short
  rw [hfirst] at hl
  rcases l with _ | ⟨x, _ | ⟨y, rest⟩⟩
  · contradiction
  · obtain ⟨hx, c, hc, -, hnext⟩ := hl
    rw [← Option.some.inj hx, hhead] at hc
    obtain rfl := Option.some.inj hc
    exact hnext
  · simp at hlength

/-- A cell that `malloc` returns is none of the list. -/
theorem ListInv.allocate {s : Parent ι} {l : List (ℕ × ℤ)} (hs : ListInv s l) {cell : ℕ}
    (hfresh : cell ∉ s.code.heap) (c : ChildProcess) :
    ListInv { s with code := ⟨s.code.firstChild, s.code.heap.insert cell c⟩ } l where
  seg := hs.seg.frame fun _ hx =>
    AList.lookup_insert_ne fun heq => hfresh (heq ▸ hs.seg.mem_heap hx)
  short := hs.short
  noticed := hs.noticed
  users := hs.users
  handlers := hs.handlers

/-- A child whose death has not been handled may become the only one of the list. -/
theorem ListInv.publish {s : Parent ι} {l : List (ℕ × ℤ)} (hs : ListInv s l) {t : ι}
    (hidle : s.handlers t = none) (hlist : (s.phases t).inList = true) (cell : ℕ) {pid : ℤ}
    (halive : ∀ c ∈ s.children, c.pid = pid → c.noticed = false) :
    ListInv { s with code := ⟨some cell, s.code.heap.insert cell ⟨pid, none⟩⟩ } [(cell, pid)] where
  seg := isSeg_insert s.code.heap cell pid
  short := le_rfl
  noticed c hc hnotice hmem := by
    rw [halive c hc (List.mem_singleton.mp hmem)] at hnotice
    cases hnotice
  users := hs.users
  handlers u h hh := by
    have hbusy : s.handlers u = some h := hh
    have hu : s.touchesList u = true := by simp [Parent.touchesList, hbusy]
    have ht : s.touchesList t = true := by simp [Parent.touchesList, hlist]
    obtain rfl := hs.users hu ht
    cases hidle.symm.trans hbusy

/-- The first cell of a list is where it begins. -/
theorem head_of_isSeg {h : Heap ℕ ChildProcess} {first : Option ℕ} {l : List (ℕ × ℤ)}
    (hl : IsSeg childLink h first l none) : first = l.head?.map Prod.fst := by
  cases l with
  | nil => exact hl
  | cons x rest => exact hl.1

/-- A step of `remove_child` on a list of at most one pid leaves it or empties it, and when it
returns the pid is not in the list. -/
theorem removeChildStep_ok {pid : ℤ} {code code' : Children} {place : RemovePlace}
    {place' : Option RemovePlace} {l : List (ℕ × ℤ)}
    (hl : IsSeg childLink code.heap code.firstChild l none) (hshort : l.length ≤ 1)
    (hok : RemoveOk pid l place) (hstep : removeChildStep pid code place = some (code', place')) :
    ∃ l', IsSeg childLink code'.heap code'.firstChild l' none ∧ (l' = l ∨ l' = []) ∧
      (∀ p ∈ place', RemoveOk pid l' p) ∧ (place' = none → pid ∉ l'.map Prod.snd) := by
  cases place with
  | start =>
    cases hstep
    refine ⟨l, hl, Or.inl rfl, fun p hp => ?_, by simp⟩
    cases hp
    exact Or.inl ⟨rfl, head_of_isSeg hl⟩
  | loop prev child =>
    cases child with
    | none =>
      cases hstep
      refine ⟨l, hl, Or.inl rfl, by simp, fun _ => ?_⟩
      rcases hok with ⟨-, hhead⟩ | ⟨-, hother⟩
      · cases l with
        | nil => simp
        | cons x rest => simp at hhead
      · exact hother
    | some cell =>
      obtain ⟨c, hc, hstep⟩ := Option.bind_eq_some_iff.mp hstep
      cases hstep
      rcases hok with ⟨rfl, hhead⟩ | ⟨hnone, -⟩
      · rcases l with _ | ⟨⟨first, value⟩, _ | ⟨y, rest⟩⟩
        · cases hhead
        · obtain rfl : cell = first := by simpa using hhead
          obtain ⟨-, c', hc', hvalue, hnext⟩ := id hl
          obtain rfl := Option.some.inj (hc.symm.trans hc')
          refine ⟨[(cell, value)], hl, Or.inl rfl, fun p hp => ?_, by simp⟩
          obtain rfl := Option.some.inj hp
          by_cases hpid : c.pid = pid
          · rw [if_pos hpid]
            exact ⟨rfl, by rw [← hvalue, ← hpid]; rfl⟩
          · rw [if_neg hpid]
            refine Or.inr ⟨hnext, fun hmem => hpid ?_⟩
            exact hvalue.trans (List.mem_singleton.mp hmem).symm
        · simp at hshort
      · cases hnone
  | found prev cell =>
    obtain ⟨rfl, rfl⟩ := hok
    obtain ⟨c, hc, hstep⟩ := Option.bind_eq_some_iff.mp hstep
    cases hstep
    obtain ⟨-, c', hc', -, hnext⟩ := hl
    obtain rfl := Option.some.inj (hc.symm.trans hc')
    refine ⟨[], hnext, Or.inr rfl, fun p hp => ?_, by simp⟩
    cases hp
    rfl
  | freeing cell =>
    obtain rfl : l = [] := hok
    cases hstep
    exact ⟨[], hl, Or.inl rfl, by simp, by simp⟩

variable [DecidableEq ι]

/-- A thread that is not at work on the list goes on to a place where it is not either. -/
theorem inList_goTo {s : Parent ι} {t : ι} {phase : ForkPhase}
    (h : phase.inList = true → (s.phases t).inList = true) (u : ι)
    (hu : ((s.goTo t phase).phases u).inList = true) : (s.phases u).inList = true := by
  by_cases hut : u = t
  · rw [hut, s.phases_goTo_self] at hu
    exact hut ▸ h hu
  · rwa [s.phases_goTo_of_ne hut] at hu

/-- A thread may go on to a place where it is not at work on the list. -/
theorem ListInv.leave {s : Parent ι} {l : List (ℕ × ℤ)} (hs : ListInv s l) (t : ι)
    {phase : ForkPhase} (hphase : phase.inList = false) : ListInv (s.goTo t phase) l :=
  hs.frame rfl (fun c hc h => ⟨c, hc, h, rfl⟩) rfl (inList_goTo (by simp [hphase]))

/-- A thread at work on the list may go on with it. -/
theorem ListInv.goOn {s : Parent ι} {l : List (ℕ × ℤ)} (hs : ListInv s l) {t : ι}
    (hlist : (s.phases t).inList = true) (phase : ForkPhase) : ListInv (s.goTo t phase) l :=
  hs.frame rfl (fun c hc h => ⟨c, hc, h, rfl⟩) rfl (inList_goTo fun _ => hlist)

/-- The end of a fork leaves the list. -/
theorem ListInv.finishFork {s : Parent ι} {l : List (ℕ × ℤ)} (hs : ListInv s l) (t : ι)
    (child : Option ℤ) : ListInv (s.finishFork t child) l :=
  (hs.setForked child (f := ForkedChild.register) fun _ => ⟨rfl, rfl⟩).leave t rfl

/-- A step of the handler keeps the invariant of the list. -/
theorem ListInv.handlerStep {s s' : Parent ι} {t : ι} {l : List (ℕ × ℤ)} (hs : ListInv s l)
    (hstep : handlerStep s t = some s') : ∃ l', ListInv s' l' := by
  obtain ⟨sig, code, place, child, hsig, hremove, hchild, rfl⟩ := handlerStep_cases hstep
  obtain ⟨l', hl', hsub, hplace, hreturned⟩ :=
    removeChildStep_ok hs.seg hs.short (hs.handlers t sig hsig) hremove
  have ht : s.touchesList t = true := by simp [Parent.touchesList, hsig]
  have hsame (u : ι) (hne : u ≠ t) :
      Function.update s.handlers t (place.map fun p => { sig with place := p }) u = s.handlers u :=
    Function.update_of_ne hne ..
  refine ⟨l', hl', ?_, fun c' hc' hnotice hmem => ?_, hs.users.anti fun u hu => ?_, fun u h hh => ?_⟩
  · rcases hsub with rfl | rfl
    · exact hs.short
    · exact Nat.zero_le _
  · have hmemOld : c'.pid ∈ l.map Prod.snd := by
      rcases hsub with rfl | rfl
      · exact hmem
      · cases hmem
    cases child with
    | none => exact hs.noticed c' hc' hnotice hmemOld
    | some pid =>
      obtain ⟨rfl, hdone⟩ := hchild pid rfl
      obtain ⟨c, hc, rfl⟩ := mem_setChild hc'
      by_cases hpid : c.pid = sig.pid
      · rw [if_pos hpid] at hmem
        exact hreturned hdone (hpid ▸ hmem)
      · rw [if_neg hpid] at hnotice hmemOld
        exact hs.noticed c hc hnotice hmemOld
  · by_cases hne : u = t
    · exact hne ▸ ht
    · have hbusy : ((Function.update s.handlers t
          (place.map fun p => { sig with place := p }) u).isSome || (s.phases u).inList) = true := hu
      rw [hsame u hne] at hbusy
      exact hbusy
  · by_cases hne : u = t
    · subst hne
      obtain ⟨p, hp, rfl⟩ : ∃ p, place = some p ∧ { sig with place := p } = h := by
        have hmap : Function.update s.handlers u (place.map fun p => { sig with place := p }) u =
            some h := hh
        rw [Function.update_self] at hmap
        exact Option.map_eq_some_iff.mp hmap
      exact hplace p hp
    · have hbusy : s.handlers u = some h := (hsame u hne).symm.trans hh
      have hu : s.touchesList u = true := by simp [Parent.touchesList, hbusy]
      exact absurd (hs.users hu ht) hne

end Kerrighed.Krgcheckpoint
