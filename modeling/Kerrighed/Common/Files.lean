import Mathlib.Data.List.Infix

/-!
# File trees

A tree of files is kept as the list of its paths, each with the kind of what is there. A file is
removed wherever it is, and a directory only when nothing lies below it.

All laws speak of what a path leads to: an operation changes that for the paths it names, and for no
other.
-/

namespace Kerrighed.Common

variable {N : Type*} [DecidableEq N]

/-- What a path leads to. -/
inductive Kind where
  | directory
  | regular
  | other
  deriving DecidableEq, Repr

/-- The paths of a tree, with what they lead to. -/
abbrev Files (N : Type*) := List (List N × Kind)

/-- What is at a path. -/
def Files.kind (files : Files N) (path : List N) : Option Kind := files.lookup path

/-- The tree without what is at a path. -/
def Files.erase (files : Files N) (path : List N) : Files N := files.filter fun e => e.1 ≠ path

/-- The tree with something at a path. -/
def Files.put (files : Files N) (path : List N) (k : Kind) : Files N := (path, k) :: files.erase path

/-- Something lies below a path. -/
def Files.HasBelow (files : Files N) (path : List N) : Prop := ∃ e ∈ files, path <+: e.1 ∧ e.1 ≠ path

instance (files : Files N) (path : List N) : Decidable (files.HasBelow path) :=
  inferInstanceAs (Decidable (∃ e ∈ files, _))

/-- Remove what is at a path, unless it is a directory with something below it. -/
def Files.remove (files : Files N) (path : List N) : Option (Files N) :=
  match files.kind path with
  | none => none
  | some .directory => if files.HasBelow path then none else some (files.erase path)
  | some _ => some (files.erase path)

/-- What is left when a removal is tried. -/
def Files.tryRemove (files : Files N) (path : List N) : Files N := (files.remove path).getD files

/-- The names in a directory, with what they lead to. -/
def Files.namesIn (files : Files N) (dir : List N) : List (N × Kind) :=
  files.filterMap fun e =>
    match e.1.getLast? with
    | some name => if e.1 = dir ++ [name] ∧ files.kind e.1 = some e.2 then some (name, e.2) else none
    | none => none

/-- Nothing is at a path that was taken out, and all others are as before. -/
@[simp]
theorem kind_erase (files : Files N) (path other : List N) :
    (files.erase path).kind other = if other = path then none else files.kind other := by
  induction files with
  | nil => simp [Files.erase, Files.kind]
  | cons e rest ih =>
    obtain ⟨p, k⟩ := e
    simp only [Files.erase, Files.kind] at ih ⊢
    by_cases hp : p = path
    · rw [List.filter_cons_of_neg (by simpa using hp), ih, List.lookup_cons]
      by_cases hother : other = path
      · simp [hother]
      · have hne : (other == p) = false := by simpa [hp] using hother
        simp [hother, hne]
    · rw [List.filter_cons_of_pos (by simpa using hp), List.lookup_cons, List.lookup_cons, ih]
      by_cases hother : other = p
      · simp [hother, hp]
      · have hne : (other == p) = false := by simpa using hother
        simp [hne]

/-- What was put at a path is there, and all others are as before. -/
@[simp]
theorem kind_put (files : Files N) (path other : List N) (k : Kind) :
    (files.put path k).kind other = if other = path then some k else files.kind other := by
  rw [Files.put, Files.kind, List.lookup_cons]
  by_cases hother : other = path
  · simp [hother]
  · have hne : (other == path) = false := by simpa using hother
    have herase := kind_erase files path other
    rw [Files.kind, if_neg hother] at herase
    simp [hne, herase, hother]

/-- What is at a path is in the list. -/
theorem mem_of_kind {files : Files N} {path : List N} {k : Kind} (h : files.kind path = some k) :
    (path, k) ∈ files := by
  obtain ⟨before, after, rfl, -⟩ := List.lookup_eq_some_iff.mp h
  simp

/-- Something in the list is at its path. -/
theorem kind_ne_none {files : Files N} {e : List N × Kind} (h : e ∈ files) :
    files.kind e.1 ≠ none := by
  rw [Files.kind, Ne, List.lookup_eq_none_iff]
  intro hnone
  simpa using hnone e h

/-- Something lies below a path exactly when a longer path leads to something. -/
theorem hasBelow_iff {files : Files N} {path : List N} :
    files.HasBelow path ↔ ∃ other, path <+: other ∧ other ≠ path ∧ files.kind other ≠ none := by
  constructor
  · rintro ⟨e, he, hunder, hne⟩
    exact ⟨e.1, hunder, hne, kind_ne_none he⟩
  · rintro ⟨other, hunder, hne, hkind⟩
    obtain ⟨k, hk⟩ := Option.ne_none_iff_exists'.mp hkind
    exact ⟨(other, k), mem_of_kind hk, hunder, hne⟩

/-- A removal that is tried leaves every other path. -/
theorem kind_tryRemove_of_ne (files : Files N) {path other : List N} (h : other ≠ path) :
    (files.tryRemove path).kind other = files.kind other := by
  rw [Files.tryRemove, Files.remove]
  cases hkind : files.kind path with
  | none => rfl
  | some k =>
    cases k with
    | directory =>
      by_cases hbelow : files.HasBelow path
      · simp [hbelow]
      · simp [hbelow, h]
    | regular => simp [h]
    | other => simp [h]

/-- A directory with something below it withstands a removal. -/
theorem tryRemove_of_hasBelow {files : Files N} {path : List N}
    (hdir : files.kind path = some .directory) (hbelow : files.HasBelow path) :
    files.tryRemove path = files := by
  rw [Files.tryRemove, Files.remove, hdir]
  simp [hbelow]

/-- An empty directory, or what is no directory, is gone after a removal. -/
theorem kind_tryRemove {files : Files N} {path : List N}
    (h : files.kind path = some .directory → ¬ files.HasBelow path) :
    (files.tryRemove path).kind path = none := by
  rw [Files.tryRemove, Files.remove]
  cases hkind : files.kind path with
  | none => simpa using hkind
  | some k =>
    cases k with
    | directory => simp [h hkind]
    | regular => simp
    | other => simp

/-- A removal brings nothing back. -/
theorem kind_of_tryRemove {files : Files N} {path other : List N} {k : Kind}
    (h : (files.tryRemove path).kind other = some k) : files.kind other = some k := by
  by_cases hother : other = path
  · subst hother
    by_cases hbelow : files.kind other = some .directory ∧ files.HasBelow other
    · rwa [tryRemove_of_hasBelow hbelow.1 hbelow.2] at h
    · rw [kind_tryRemove fun hdir hbelow' => hbelow ⟨hdir, hbelow'⟩] at h
      cases h
  · rwa [kind_tryRemove_of_ne files hother] at h

/-- What is there after a removal was there before. -/
theorem kind_ne_none_of_tryRemove {files : Files N} {path other : List N}
    (h : (files.tryRemove path).kind other ≠ none) : files.kind other ≠ none := by
  obtain ⟨k, hk⟩ := Option.ne_none_iff_exists'.mp h
  simp [kind_of_tryRemove hk]

/-- A removal leaves the directories above whatever is still there. -/
theorem kind_tryRemove_above {files : Files N} {path above other : List N} (habove : above <+: other)
    (hne : other ≠ above) (hdir : files.kind above = some .directory)
    (h : (files.tryRemove path).kind other ≠ none) :
    (files.tryRemove path).kind above = some .directory := by
  by_cases hpath : above = path
  · subst hpath
    have hbelow : files.HasBelow above :=
      hasBelow_iff.mpr ⟨other, habove, hne, kind_ne_none_of_tryRemove h⟩
    rw [tryRemove_of_hasBelow hdir hbelow, hdir]
  · rw [kind_tryRemove_of_ne files hpath, hdir]

/-- The names in a directory are those that lead to something. -/
theorem mem_namesIn {files : Files N} {dir : List N} {name : N} {k : Kind} :
    (name, k) ∈ files.namesIn dir ↔ files.kind (dir ++ [name]) = some k := by
  rw [Files.namesIn, List.mem_filterMap]
  constructor
  · rintro ⟨e, -, heq⟩
    cases hlast : e.1.getLast? with
    | none => simp [hlast] at heq
    | some last =>
      rw [hlast] at heq
      simp only [Option.ite_none_right_eq_some, Option.some.injEq, Prod.mk.injEq] at heq
      obtain ⟨⟨hpath, hkind⟩, rfl, rfl⟩ := heq
      rwa [← hpath]
  · intro hkind
    refine ⟨(dir ++ [name], k), mem_of_kind hkind, ?_⟩
    simp [hkind]

end Kerrighed.Common
