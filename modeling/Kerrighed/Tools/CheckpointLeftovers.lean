import Kerrighed.Tools.CheckpointStore

/-!
# What failed checkpoints leave

A checkpoint that failed may have left files and directories. Each of them is accounted for: a file or
a version belongs to a checkpoint that succeeded, or a tool is going to remove it, and an application
has a version or a tool that is about to try its directory.

Two tools that clean up after the same application share its directory, and the first removal of it
fails while a version of the other is there. The accounts pass it on to the other tool, which removes
its version before the directory. So nothing is left when all tools are done and no call has failed.
-/

namespace Kerrighed.Tools.CheckpointStore

open Kerrighed.Common Description

variable {ι : Type*} [DecidableEq ι]

/-- No call of the step fails. -/
def Smooth : Event ι → Prop
  | .checkpoint _ _ _ _ => True
  | .describe _ ok => ok = true
  | .clean _ ok => ok = true

instance : DecidablePred (Smooth (ι := ι))
  | .checkpoint _ _ _ _ => isTrue trivial
  | .describe _ ok | .clean _ ok => inferInstanceAs (Decidable (ok = true))

/-- The files are those of versions, in directories of versions, in directories of applications. -/
structure Shaped (files : Files Name) : Prop where
  shape : ∀ path k, files.kind path = some k →
    (∃ info, path = appDir info ∧ k = .directory) ∨
      (∃ info, path = versionDir info ∧ k = .directory) ∨
      ∃ info name, path = filePath info name ∧ k = .regular
  app : ∀ info, files.kind (versionDir info) ≠ none → files.kind (appDir info) = some .directory
  version : ∀ info name, files.kind (filePath info name) ≠ none →
    files.kind (versionDir info) = some .directory

/-- The removals that are still to come include that of a file. -/
def CleanPc.Covers (name : Name) : CleanPc → Prop
  | .refresh | .refreshApp | .openVersion => True
  | .reading rest => (name, Kind.regular) ∈ rest
  | .removeVersion | .removeApp => False

/-- A tool is going to remove a file. -/
def Phase.OwnsFile (info : CheckpointInfo) (name : Name) (phase : Phase) : Prop :=
  ∃ pc : CleanPc, phase = .cleaning info pc ∧ pc.Covers name

/-- A tool is going to remove the directory of a version. -/
def Phase.OwnsVersion (info : CheckpointInfo) (phase : Phase) : Prop :=
  ∃ pc, phase = .cleaning info pc ∧ pc ≠ .removeApp

/-- Whatever is there belongs to a checkpoint that succeeded, or a tool is going to remove it. -/
structure Accounted (st : Store ι) : Prop where
  shaped : Shaped st.files
  file : ∀ info name, st.files.kind (filePath info name) ≠ none →
    (∃ e ∈ st.complete, e.1 = info ∧ (name ∈ e.2 ∨ name = descriptionName)) ∨
      ∃ c, (st.tool c).OwnsFile info name
  version : ∀ info, st.files.kind (versionDir info) ≠ none →
    (∃ e ∈ st.complete, e.1 = info) ∨ ∃ c, (st.tool c).OwnsVersion info
  app : ∀ info, st.files.kind (appDir info) ≠ none → ∃ other, appDir other = appDir info ∧
    (st.files.kind (versionDir other) ≠ none ∨ ∃ c, st.tool c = .cleaning other .removeApp)
  describing : ∀ c info, st.tool c = .describing info → ∃ e ∈ st.complete, e.1 = info

/-- Every checkpoint that succeeded has its description, or a tool is about to write it. -/
def Described (st : Store ι) : Prop :=
  ∀ e ∈ st.complete, st.files.kind (filePath e.1 descriptionName) ≠ none ∨
    ∃ c, st.tool c = .describing e.1

/-- A tool that owns something still does when another tool has moved, or has taken it over. -/
theorem exists_update {Q : Phase → Prop} {tool : ι → Phase} (c : ι) (new : Phase)
    (h : ∃ d, Q (tool d)) (hc : Q (tool c) → Q new) : ∃ d, Q (Function.update tool c new d) := by
  obtain ⟨d, hd⟩ := h
  by_cases hdc : d = c
  · refine ⟨c, ?_⟩
    rw [Function.update_self]
    exact hc (hdc ▸ hd)
  · refine ⟨d, ?_⟩
    rwa [Function.update_of_ne hdc]

/-- A tool that will remove a file will remove its directory. -/
theorem Phase.OwnsFile.ownsVersion {info : CheckpointInfo} {name : Name} {phase : Phase}
    (h : phase.OwnsFile info name) : phase.OwnsVersion info := by
  obtain ⟨pc, hphase, hcovers⟩ := h
  refine ⟨pc, hphase, ?_⟩
  rintro rfl
  exact hcovers

/-- A tool that is going to remove a file is cleaning up. -/
theorem Phase.OwnsFile.cleans {info : CheckpointInfo} {name : Name} {phase : Phase}
    (h : phase.OwnsFile info name) : ∃ other pc, phase = .cleaning other pc := by
  obtain ⟨pc, hphase, -⟩ := h
  exact ⟨info, pc, hphase⟩

/-- A tool that is going to remove the directory of a version is cleaning up. -/
theorem Phase.OwnsVersion.cleans {info : CheckpointInfo} {phase : Phase}
    (h : phase.OwnsVersion info) : ∃ other pc, phase = .cleaning other pc := by
  obtain ⟨pc, hphase, -⟩ := h
  exact ⟨info, pc, hphase⟩

/-- A tool that does not clean up can move without taking anything from those that do. -/
theorem exists_update_of_idle {Q : Phase → Prop} {tool : ι → Phase} {c : ι}
    (hidle : ∀ info pc, tool c ≠ .cleaning info pc)
    (hQ : ∀ phase, Q phase → ∃ info pc, phase = .cleaning info pc) (new : Phase)
    (h : ∃ d, Q (tool d)) : ∃ d, Q (Function.update tool c new d) := by
  refine exists_update c new h fun hc => ?_
  obtain ⟨info, pc, hphase⟩ := hQ _ hc
  exact absurd hphase (hidle info pc)

/-- The directory of a version is one. -/
theorem Shaped.kind_versionDir {files : Files Name} (h : Shaped files) {info : CheckpointInfo}
    (hversion : files.kind (versionDir info) ≠ none) :
    files.kind (versionDir info) = some .directory := by
  obtain ⟨k, hk⟩ := Option.ne_none_iff_exists'.mp hversion
  rcases h.shape _ k hk with ⟨_, _, rfl⟩ | ⟨_, _, rfl⟩ | ⟨_, _, hpath, -⟩
  · exact hk
  · exact hk
  · exact absurd hpath (versionDir_ne_filePath _ _ _)

/-- The files of a version are regular. -/
theorem Shaped.kind_filePath {files : Files Name} (h : Shaped files) {info : CheckpointInfo}
    {name : Name} (hfile : files.kind (filePath info name) ≠ none) :
    files.kind (filePath info name) = some .regular := by
  obtain ⟨k, hk⟩ := Option.ne_none_iff_exists'.mp hfile
  rcases h.shape _ k hk with ⟨_, hpath, -⟩ | ⟨_, hpath, -⟩ | ⟨_, _, _, rfl⟩
  · exact absurd hpath.symm (appDir_ne_filePath _ _ _)
  · exact absurd hpath.symm (versionDir_ne_filePath _ _ _)
  · exact hk

/-- Whatever lies below the directory of an application is in one of its versions. -/
theorem Shaped.exists_version {files : Files Name} (h : Shaped files) {info : CheckpointInfo}
    (hbelow : files.HasBelow (appDir info)) :
    ∃ other, appDir other = appDir info ∧ files.kind (versionDir other) ≠ none := by
  obtain ⟨path, hunder, hne, hkind⟩ := hasBelow_iff.mp hbelow
  obtain ⟨k, hk⟩ := Option.ne_none_iff_exists'.mp hkind
  rcases h.shape path k hk with ⟨other, rfl, -⟩ | ⟨other, rfl, -⟩ | ⟨other, name, rfl, -⟩
  · exact absurd (hunder.eq_of_length (by simp [appDir])).symm hne
  · refine ⟨other, ?_, hkind⟩
    simpa [appDir, versionDir, eq_comm] using hunder
  · refine ⟨other, ?_, ?_⟩
    · simpa [appDir, filePath, eq_comm] using hunder
    · simp [h.version other name hkind]

/-- Whatever lies below the directory of a version is one of its files. -/
theorem Shaped.exists_file {files : Files Name} (h : Shaped files) {info : CheckpointInfo}
    (hbelow : files.HasBelow (versionDir info)) :
    ∃ name, files.kind (filePath info name) ≠ none := by
  obtain ⟨path, hunder, hne, hkind⟩ := hasBelow_iff.mp hbelow
  obtain ⟨k, hk⟩ := Option.ne_none_iff_exists'.mp hkind
  rcases h.shape path k hk with ⟨other, rfl, -⟩ | ⟨other, rfl, -⟩ | ⟨other, name, rfl, -⟩
  · simp [appDir, versionDir] at hunder
  · exact absurd (hunder.eq_of_length (by simp [versionDir])).symm hne
  · refine ⟨name, ?_⟩
    have heq : versionDir info = versionDir other := by
      simpa [versionDir, filePath] using hunder
    rwa [versionDir_inj.mp heq]

/-- A removal that is tried keeps the shape. -/
theorem Shaped.tryRemove {files : Files Name} (h : Shaped files) (path : List Name) :
    Shaped (files.tryRemove path) where
  shape other k hk := h.shape other k (kind_of_tryRemove hk)
  app info hversion :=
    kind_tryRemove_above ⟨[versionName info], rfl⟩ (appDir_ne_versionDir info info).symm
      (h.app info (kind_ne_none_of_tryRemove hversion)) hversion
  version info name hfile :=
    kind_tryRemove_above ⟨[name], rfl⟩ (versionDir_ne_filePath info info name).symm
      (h.version info name (kind_ne_none_of_tryRemove hfile)) hfile

/-- A call of the cleaning keeps the shape. -/
theorem Shaped.cleanStep {files files' : Files Name} (h : Shaped files) {info : CheckpointInfo}
    {ok : Bool} {pc : CleanPc} {next : Option CleanPc}
    (hstep : cleanStep info ok files pc = some (next, files')) : Shaped files' := by
  rcases cleanStep_files hstep with rfl | ⟨name, rfl⟩ | ⟨-, rfl⟩ | ⟨-, rfl⟩
  · exact h
  · exact h.tryRemove _
  · exact h.tryRemove _
  · exact h.tryRemove _

/-- What the kernel makes has the shape. -/
theorem Shaped.create {files : Files Name} (h : Shaped files) (info : CheckpointInfo)
    (created : Option (List Name)) : Shaped (create info files created) := by
  cases created with
  | none => exact h
  | some names =>
    obtain ⟨happ, hversion, -⟩ := kept_create info files names
    refine ⟨fun path k hk => ?_, fun other hother => ?_, fun other name hother => ?_⟩
    · rw [kind_create] at hk
      split at hk
      · rename_i hfile
        obtain ⟨name, -, rfl⟩ := List.mem_map.mp hfile
        exact Or.inr (Or.inr ⟨info, name, rfl, (Option.some.inj hk).symm⟩)
      · split at hk
        · rename_i hdir
          have hk := (Option.some.inj hk).symm
          rcases hdir with hdir | hdir
          · exact Or.inr (Or.inl ⟨info, hdir, hk⟩)
          · exact Or.inl ⟨info, hdir, hk⟩
        · exact h.shape path k hk
    · by_cases hsame : other = info
      · rwa [hsame]
      · rw [(kind_create_of_ne hsame files (some names)).1] at hother
        exact kind_create_appDir (some names) (h.app other hother)
    · by_cases hsame : other = info
      · rwa [hsame]
      · rw [(kind_create_of_ne hsame files (some names)).2] at hother
        rw [(kind_create_of_ne hsame files (some names)).1]
        exact h.version other name hother

/-- The description has the shape. -/
theorem Shaped.openDescription {files : Files Name} (h : Shaped files) (info : CheckpointInfo) :
    Shaped (openDescription info files) := by
  rw [CheckpointStore.openDescription]
  split
  · rename_i hopen
    refine ⟨fun path k hk => ?_, fun other hother => ?_, fun other name hother => ?_⟩
    · rw [kind_put] at hk
      split at hk
      · rename_i hpath
        exact Or.inr (Or.inr ⟨info, descriptionName, hpath, (Option.some.inj hk).symm⟩)
      · exact h.shape path k hk
    · rw [kind_put, if_neg (versionDir_ne_filePath _ _ _)] at hother
      rw [kind_put, if_neg (appDir_ne_filePath _ _ _)]
      exact h.app other hother
    · rw [kind_put, if_neg (versionDir_ne_filePath _ _ _)]
      rw [kind_put] at hother
      split at hother
      · rename_i hpath
        rw [(filePath_inj.mp hpath).1, hopen.2]
      · exact h.version other name hother
  · exact h

/-- A tool that was going to remove a file still is, or has. -/
theorem covers_next {info : CheckpointInfo} {files files' : Files Name} (hshaped : Shaped files)
    {pc : CleanPc} {next : Option CleanPc} (h : cleanStep info true files pc = some (next, files'))
    {name : Name} (hcovers : pc.Covers name) (hfile : files'.kind (filePath info name) ≠ none) :
    ∃ pc' : CleanPc, next = some pc' ∧ pc'.Covers name := by
  cases pc with
  | refresh =>
    obtain ⟨rfl, -⟩ := Prod.mk.inj (Option.some.inj h)
    exact ⟨.refreshApp, rfl, trivial⟩
  | refreshApp =>
    obtain ⟨rfl, rfl⟩ := Prod.mk.inj (Option.some.inj h)
    have hversion := hshaped.version info name hfile
    have happ := hshaped.app info (by simp [hversion])
    exact ⟨.openVersion, by simp [happ], trivial⟩
  | openVersion =>
    obtain ⟨rfl, rfl⟩ := Prod.mk.inj (Option.some.inj h)
    have hversion := hshaped.version info name hfile
    refine ⟨.reading (files.namesIn (versionDir info)), by simp [hversion], ?_⟩
    exact mem_namesIn.mpr (hshaped.kind_filePath hfile)
  | reading rest =>
    cases rest with
    | nil => exact absurd hcovers List.not_mem_nil
    | cons entry rest =>
      obtain ⟨first, kind⟩ := entry
      have hrest : (name, Kind.regular) ∈ rest → CleanPc.Covers name (.reading rest) := id
      rw [cleanStep] at h
      split at h
      · split at h
        · cases h
        · rename_i hkind _
          obtain ⟨rfl, rfl⟩ := Prod.mk.inj (Option.some.inj h)
          refine ⟨.reading rest, rfl, hrest ?_⟩
          rcases List.mem_cons.mp hcovers with heq | hmem
          · obtain ⟨rfl, -⟩ := Prod.mk.inj heq
            refine absurd (kind_tryRemove fun hdir => ?_) hfile
            have hold := hshaped.kind_filePath (kind_ne_none_of_tryRemove hfile)
            rw [hold] at hdir
            cases hdir
          · exact hmem
      · rename_i hkind
        obtain ⟨rfl, rfl⟩ := Prod.mk.inj (Option.some.inj h)
        refine ⟨.reading rest, rfl, hrest ?_⟩
        rcases List.mem_cons.mp hcovers with heq | hmem
        · exact absurd (Prod.mk.inj heq).2.symm hkind
        · exact hmem
  | removeVersion => exact hcovers.elim
  | removeApp => exact hcovers.elim

/-- A tool that was going to remove the directory of a version still is, or has, unless a file is in
it. -/
theorem ownsVersion_next {info : CheckpointInfo} {files files' : Files Name} (hshaped : Shaped files)
    {pc : CleanPc} {next : Option CleanPc} (h : cleanStep info true files pc = some (next, files'))
    (hpc : pc ≠ .removeApp) (hversion : files'.kind (versionDir info) ≠ none) :
    (∃ pc', next = some pc' ∧ pc' ≠ .removeApp) ∨
      pc = .removeVersion ∧ ∃ name, files.kind (filePath info name) ≠ none := by
  cases pc with
  | refresh =>
    obtain ⟨rfl, -⟩ := Prod.mk.inj (Option.some.inj h)
    exact Or.inl ⟨.refreshApp, rfl, by simp⟩
  | refreshApp =>
    obtain ⟨rfl, rfl⟩ := Prod.mk.inj (Option.some.inj h)
    have happ := hshaped.app info hversion
    exact Or.inl ⟨.openVersion, by simp [happ], by simp⟩
  | openVersion =>
    obtain ⟨rfl, rfl⟩ := Prod.mk.inj (Option.some.inj h)
    have hdir := hshaped.kind_versionDir hversion
    exact Or.inl ⟨.reading (files.namesIn (versionDir info)), by simp [hdir], by simp⟩
  | reading rest =>
    cases rest with
    | nil =>
      obtain ⟨rfl, -⟩ := Prod.mk.inj (Option.some.inj h)
      exact Or.inl ⟨.removeVersion, rfl, by simp⟩
    | cons entry rest =>
      obtain ⟨first, kind⟩ := entry
      rw [cleanStep] at h
      split at h
      · split at h
        · cases h
        · obtain ⟨rfl, -⟩ := Prod.mk.inj (Option.some.inj h)
          exact Or.inl ⟨.reading rest, rfl, by simp⟩
      · obtain ⟨rfl, -⟩ := Prod.mk.inj (Option.some.inj h)
        exact Or.inl ⟨.reading rest, rfl, by simp⟩
  | removeVersion =>
    obtain ⟨-, rfl⟩ := Prod.mk.inj (Option.some.inj h)
    refine Or.inr ⟨rfl, ?_⟩
    by_contra hempty
    exact hversion (kind_tryRemove fun _ hbelow => hempty (hshaped.exists_file hbelow))
  | removeApp => exact absurd rfl hpc

/-- A call that takes the directory of a version away goes on to that of the application. -/
theorem removeApp_next {info : CheckpointInfo} {ok : Bool} {files files' : Files Name} {pc : CleanPc}
    {next : Option CleanPc} (h : cleanStep info ok files pc = some (next, files'))
    {other : CheckpointInfo} (hbefore : files.kind (versionDir other) ≠ none)
    (hafter : files'.kind (versionDir other) = none) : other = info ∧ next = some .removeApp := by
  rcases cleanStep_files h with rfl | ⟨name, rfl⟩ | ⟨hnext, rfl⟩ | ⟨-, rfl⟩
  · exact absurd hafter hbefore
  · rw [kind_tryRemove_of_ne files (versionDir_ne_filePath _ _ _)] at hafter
    exact absurd hafter hbefore
  · refine ⟨?_, hnext⟩
    by_contra hother
    rw [kind_tryRemove_of_ne files fun heq => hother (versionDir_inj.mp heq)] at hafter
    exact hbefore hafter
  · rw [kind_tryRemove_of_ne files (appDir_ne_versionDir _ _).symm] at hafter
    exact absurd hafter hbefore

/-- A call of the cleaning brings nothing back. -/
theorem kind_of_cleanStep {info : CheckpointInfo} {ok : Bool} {files files' : Files Name}
    {pc : CleanPc} {next : Option CleanPc} (h : cleanStep info ok files pc = some (next, files'))
    {path : List Name} (hpath : files'.kind path ≠ none) : files.kind path ≠ none := by
  rcases cleanStep_files h with rfl | ⟨name, rfl⟩ | ⟨-, rfl⟩ | ⟨-, rfl⟩
  · exact hpath
  · exact kind_ne_none_of_tryRemove hpath
  · exact kind_ne_none_of_tryRemove hpath
  · exact kind_ne_none_of_tryRemove hpath

/-- An application whose directory withstands its removal has a version. -/
theorem exists_version_of_removeApp {info : CheckpointInfo} {files files' : Files Name}
    (hshaped : Shaped files) {next : Option CleanPc}
    (h : cleanStep info true files .removeApp = some (next, files'))
    (happ : files'.kind (appDir info) ≠ none) :
    ∃ other, appDir other = appDir info ∧ files'.kind (versionDir other) ≠ none := by
  obtain ⟨-, rfl⟩ := Prod.mk.inj (Option.some.inj h)
  have hbelow : files.HasBelow (appDir info) := by
    by_contra hempty
    exact happ (kind_tryRemove fun _ => hempty)
  obtain ⟨other, hother, hversion⟩ := hshaped.exists_version hbelow
  refine ⟨other, hother, ?_⟩
  rwa [if_pos rfl, kind_tryRemove_of_ne files (appDir_ne_versionDir _ _).symm]

/-- A call of the cleaning that does not fail keeps the accounts. -/
theorem Accounted.clean {st : Store ι} (h : Accounted st) {c : ι} {info : CheckpointInfo}
    {pc : CleanPc} (hc : st.tool c = .cleaning info pc) {next : Option CleanPc}
    {files' : Files Name} (hclean : cleanStep info true st.files pc = some (next, files')) :
    Accounted (⟨files', Function.update st.tool c (next.elim .ready (.cleaning info)),
      st.complete⟩ : Store ι) where
  shaped := h.shaped.cleanStep hclean
  file other name hfile := by
    rcases h.file other name (kind_of_cleanStep hclean hfile) with hcomplete | howner
    · exact Or.inl hcomplete
    · refine Or.inr (exists_update _ _ howner ?_)
      rintro ⟨pc', hphase, hcovers⟩
      obtain ⟨rfl, rfl⟩ := Phase.cleaning.inj (hc.symm.trans hphase)
      obtain ⟨pc', rfl, hcovers'⟩ := covers_next h.shaped hclean hcovers hfile
      exact ⟨pc', rfl, hcovers'⟩
  version other hversion := by
    rcases h.version other (kind_of_cleanStep hclean hversion) with hcomplete | howner
    · exact Or.inl hcomplete
    · by_cases hsame : (st.tool c).OwnsVersion other
      · obtain ⟨pc', hphase, hpc⟩ := hsame
        obtain ⟨rfl, rfl⟩ := Phase.cleaning.inj (hc.symm.trans hphase)
        rcases ownsVersion_next h.shaped hclean hpc hversion with
          ⟨pc', rfl, hpc'⟩ | ⟨rfl, name, hname⟩
        · exact Or.inr ⟨c, pc', Function.update_self c _ _, hpc'⟩
        · rcases h.file info name hname with ⟨e, he, heq, -⟩ | hfile
          · exact Or.inl ⟨e, he, heq⟩
          · have hnot : ¬ (st.tool c).OwnsFile info name := by
              rintro ⟨pc', hphase, hcovers⟩
              obtain ⟨-, rfl⟩ := Phase.cleaning.inj (hc.symm.trans hphase)
              exact hcovers
            obtain ⟨d, hd⟩ := exists_update c (next.elim .ready (.cleaning info)) hfile
              fun hown => absurd hown hnot
            exact Or.inr ⟨d, hd.ownsVersion⟩
      · exact Or.inr (exists_update _ _ howner fun hown => absurd hown hsame)
  app other happ := by
    obtain ⟨other', hother, hversion | hremove⟩ := h.app other (kind_of_cleanStep hclean happ)
    · by_cases hafter : files'.kind (versionDir other') = none
      · obtain ⟨rfl, rfl⟩ := removeApp_next hclean hversion hafter
        exact ⟨other', hother, Or.inr ⟨c, Function.update_self c _ _⟩⟩
      · exact ⟨other', hother, Or.inl hafter⟩
    · by_cases hsame : st.tool c = .cleaning other' .removeApp
      · obtain ⟨rfl, rfl⟩ := Phase.cleaning.inj (hc.symm.trans hsame)
        rw [← hother] at happ ⊢
        obtain ⟨other'', hother', hversion⟩ := exists_version_of_removeApp h.shaped hclean happ
        exact ⟨other'', hother', Or.inl hversion⟩
      · have howner := exists_update (Q := (· = .cleaning other' .removeApp)) c
          (next.elim .ready (.cleaning info)) hremove fun heq => absurd heq hsame
        exact ⟨other', hother, Or.inr howner⟩
  describing d other hd := by
    dsimp only at hd
    by_cases hdc : d = c
    · rw [hdc, Function.update_self] at hd
      cases next with
      | none => cases hd
      | some pc' => cases hd
    · rw [Function.update_of_ne hdc] at hd
      exact h.describing d other hd

/-- A checkpoint makes nothing but its directories and its files. -/
theorem kind_of_create {info : CheckpointInfo} {files : Files Name} {created : Option (List Name)}
    {path : List Name} (h : (create info files created).kind path ≠ none) :
    files.kind path ≠ none ∨ ∃ names, created = some names ∧
      (path ∈ names.map (filePath info) ∨ path = versionDir info ∨ path = appDir info) := by
  cases created with
  | none => exact Or.inl h
  | some names =>
    by_cases hold : files.kind path = none
    · refine Or.inr ⟨names, rfl, ?_⟩
      by_contra hnot
      obtain ⟨hfile, hdir⟩ := not_or.mp hnot
      rw [kind_create, if_neg hfile, if_neg hdir] at h
      exact h hold
    · exact Or.inl hold

/-- A checkpoint removes nothing. -/
theorem kind_create_ne_none {files : Files Name} {path : List Name} (h : files.kind path ≠ none)
    (info : CheckpointInfo) (created : Option (List Name)) :
    (create info files created).kind path ≠ none := by
  cases created with
  | none => exact h
  | some names =>
    rw [kind_create]
    split
    · simp
    · split
      · simp
      · exact h

/-- A checkpoint keeps the accounts when it has succeeded, or somebody cleans up what was made. -/
theorem Accounted.checkpoint {st : Store ι} (h : Accounted st) {c : ι} (hc : st.tool c = .ready)
    {info : CheckpointInfo} {created : Option (List Name)} {new : Phase}
    {complete' : List (CheckpointInfo × List Name)} (hmono : ∀ e ∈ st.complete, e ∈ complete')
    (hown : ∀ names, created = some names →
      (info, names) ∈ complete' ∨ new = .cleaning info .refresh)
    (hdescribing : ∀ other, new = .describing other → ∃ e ∈ complete', e.1 = other) :
    Accounted (⟨create info st.files created, Function.update st.tool c new, complete'⟩ :
      Store ι) where
  shaped := h.shaped.create info created
  file other name hfile := by
    rcases kind_of_create hfile with hold | ⟨names, rfl, hmade | hmade | hmade⟩
    · rcases h.file other name hold with ⟨e, he, heq⟩ | howner
      · exact Or.inl ⟨e, hmono e he, heq⟩
      · exact Or.inr (exists_update_of_idle (by simp [hc]) (fun _ => Phase.OwnsFile.cleans) new howner)
    · obtain ⟨name', hname, hpath⟩ := List.mem_map.mp hmade
      obtain ⟨rfl, rfl⟩ := filePath_inj.mp hpath
      rcases hown names rfl with hcomplete | rfl
      · exact Or.inl ⟨_, hcomplete, rfl, Or.inl hname⟩
      · exact Or.inr ⟨c, .refresh, Function.update_self c _ _, trivial⟩
    · exact absurd hmade.symm (versionDir_ne_filePath _ _ _)
    · exact absurd hmade.symm (appDir_ne_filePath _ _ _)
  version other hversion := by
    rcases kind_of_create hversion with hold | ⟨names, rfl, hmade | hmade | hmade⟩
    · rcases h.version other hold with ⟨e, he, heq⟩ | howner
      · exact Or.inl ⟨e, hmono e he, heq⟩
      · exact Or.inr
          (exists_update_of_idle (by simp [hc]) (fun _ => Phase.OwnsVersion.cleans) new howner)
    · obtain ⟨name, -, hpath⟩ := List.mem_map.mp hmade
      exact absurd hpath.symm (versionDir_ne_filePath _ _ _)
    · obtain rfl := versionDir_inj.mp hmade
      rcases hown names rfl with hcomplete | rfl
      · exact Or.inl ⟨_, hcomplete, rfl⟩
      · exact Or.inr ⟨c, .refresh, Function.update_self c _ _, by simp⟩
    · exact absurd hmade.symm (appDir_ne_versionDir _ _)
  app other happ := by
    rcases kind_of_create happ with hold | ⟨names, rfl, hmade | hmade | hmade⟩
    · obtain ⟨other', hother, hversion | hremove⟩ := h.app other hold
      · exact ⟨other', hother, Or.inl (kind_create_ne_none hversion info created)⟩
      · exact ⟨other', hother, Or.inr
          (exists_update_of_idle (by simp [hc]) (fun _ heq => ⟨_, _, heq⟩) new hremove)⟩
    · obtain ⟨name, -, hpath⟩ := List.mem_map.mp hmade
      exact absurd hpath.symm (appDir_ne_filePath _ _ _)
    · exact absurd hmade (appDir_ne_versionDir _ _)
    · refine ⟨info, hmade.symm, Or.inl ?_⟩
      simp [(kept_create info st.files names).2.1]
  describing d other hd := by
    dsimp only at hd
    by_cases hdc : d = c
    · rw [hdc, Function.update_self] at hd
      exact hdescribing other hd
    · rw [Function.update_of_ne hdc] at hd
      obtain ⟨e, he, heq⟩ := h.describing d other hd
      exact ⟨e, hmono e he, heq⟩

/-- The description belongs to a checkpoint that succeeded. -/
theorem Accounted.describe {st : Store ι} (h : Accounted st) {c : ι} {info : CheckpointInfo}
    (hc : st.tool c = .describing info) :
    Accounted (⟨openDescription info st.files, Function.update st.tool c .ready, st.complete⟩ :
      Store ι) where
  shaped := h.shaped.openDescription info
  file other name hfile := by
    by_cases hpath : filePath other name = filePath info descriptionName
    · obtain ⟨rfl, rfl⟩ := filePath_inj.mp hpath
      obtain ⟨e, he, heq⟩ := h.describing c other hc
      exact Or.inl ⟨e, he, heq, Or.inr rfl⟩
    · rw [kind_openDescription (Or.inr hpath)] at hfile
      rcases h.file other name hfile with hcomplete | howner
      · exact Or.inl hcomplete
      · exact Or.inr
          (exists_update_of_idle (by simp [hc]) (fun _ => Phase.OwnsFile.cleans) .ready howner)
  version other hversion := by
    rw [kind_openDescription (Or.inr (versionDir_ne_filePath _ _ _))] at hversion
    rcases h.version other hversion with hcomplete | howner
    · exact Or.inl hcomplete
    · exact Or.inr
        (exists_update_of_idle (by simp [hc]) (fun _ => Phase.OwnsVersion.cleans) .ready howner)
  app other happ := by
    rw [kind_openDescription (Or.inr (appDir_ne_filePath _ _ _))] at happ
    obtain ⟨other', hother, hversion | hremove⟩ := h.app other happ
    · refine ⟨other', hother, Or.inl ?_⟩
      rwa [kind_openDescription (Or.inr (versionDir_ne_filePath _ _ _))]
    · exact ⟨other', hother, Or.inr
        (exists_update_of_idle (by simp [hc]) (fun _ heq => ⟨_, _, heq⟩) .ready hremove)⟩
  describing d other hd := by
    dsimp only at hd
    by_cases hdc : d = c
    · rw [hdc, Function.update_self] at hd
      cases hd
    · rw [Function.update_of_ne hdc] at hd
      exact h.describing d other hd

/-- A step in which no call fails keeps the accounts. -/
theorem storeStep_accounted {st st' : Store ι} {e : Event ι} (h : Accounted st)
    (hfresh : Fresh st e) (hsmooth : Smooth e) (hstep : storeStep st e = some st') :
    Accounted st' := by
  cases e with
  | checkpoint c result info created =>
    obtain ⟨hmade, hnumber, -⟩ := hfresh
    simp only [storeStep] at hstep
    split at hstep
    · rename_i hready
      split at hstep
      · obtain rfl := Option.some.inj hstep
        refine h.checkpoint hready (fun e he => List.mem_append_left _ he) (fun names hnames => ?_)
          fun other hother => ?_
        · exact Or.inl (by simp [hnames])
        · obtain rfl := Phase.describing.inj hother
          exact ⟨_, List.mem_append_right _ (List.mem_singleton_self _), rfl⟩
      · obtain rfl := Option.some.inj hstep
        refine h.checkpoint hready (fun e he => he) (fun names hnames => ?_) fun other hother => ?_
        · rw [if_neg (hnumber (by simp [hnames]))]
          exact Or.inr rfl
        · split at hother
          · cases hother
          · cases hother
    · cases hstep
  | describe c ok =>
    obtain rfl : ok = true := hsmooth
    simp only [storeStep] at hstep
    split at hstep
    · rename_i info hdescribing
      obtain rfl := Option.some.inj hstep
      exact h.describe hdescribing
    · cases hstep
  | clean c ok =>
    obtain rfl : ok = true := hsmooth
    simp only [storeStep] at hstep
    split at hstep
    · rename_i info pc hcleaning
      obtain ⟨⟨next, files'⟩, hclean, rfl⟩ := Option.map_eq_some_iff.mp hstep
      exact h.clean hcleaning hclean
    · cases hstep

/-- A step in which no call fails keeps the descriptions. -/
theorem storeStep_described {st st' : Store ι} {e : Event ι} (h : Described st) (hkept : Kept st)
    (hfailed : CleansFailed st) (hsmooth : Smooth e) (hstep : storeStep st e = some st') :
    Described st' := by
  cases e with
  | checkpoint c result info created =>
    have hold (new : Phase) (hready : st.tool c = .ready) (e : CheckpointInfo × List Name)
        (he : e ∈ st.complete) :
        (create info st.files created).kind (filePath e.1 descriptionName) ≠ none ∨
          ∃ d, Function.update st.tool c new d = .describing e.1 := by
      rcases h e he with hkind | howner
      · exact Or.inl (kind_create_ne_none hkind info created)
      · refine Or.inr (exists_update (Q := (· = .describing e.1)) c new howner fun heq => ?_)
        rw [hready] at heq
        cases heq
    simp only [storeStep] at hstep
    split at hstep
    · rename_i hready
      split at hstep
      · obtain rfl := Option.some.inj hstep
        intro e he
        rcases List.mem_append.mp he with he | he
        · exact hold _ hready e he
        · obtain rfl := List.mem_singleton.mp he
          exact Or.inr ⟨c, Function.update_self c _ _⟩
      · obtain rfl := Option.some.inj hstep
        exact hold _ hready
    · cases hstep
  | describe c ok =>
    obtain rfl : ok = true := hsmooth
    simp only [storeStep] at hstep
    split at hstep
    · rename_i info hdescribing
      obtain rfl := Option.some.inj hstep
      intro e he
      change (openDescription info st.files).kind _ ≠ none ∨ _
      by_cases hinfo : e.1 = info
      · have hversion := (hkept e he).2.1
        rw [hinfo] at hversion ⊢
        refine Or.inl ?_
        rw [openDescription]
        split
        · simp
        · rename_i hopen
          exact fun hnone => hopen ⟨hnone, hversion⟩
      · rcases h e he with hkind | howner
        · exact Or.inl (by rwa [kind_openDescription (Or.inl hkind)])
        · refine Or.inr (exists_update (Q := (· = .describing e.1)) c .ready howner fun heq => ?_)
          rw [hdescribing] at heq
          exact absurd (Phase.describing.inj heq).symm hinfo
    · cases hstep
  | clean c ok =>
    simp only [storeStep] at hstep
    split at hstep
    · rename_i info pc hcleaning
      obtain ⟨⟨next, files'⟩, hclean, rfl⟩ := Option.map_eq_some_iff.mp hstep
      intro e he
      rcases h e he with hkind | howner
      · have hkeep := (cleanStep_keeps (hfailed c info pc hcleaning e he) hclean).2.1 descriptionName
        exact Or.inl (by rwa [hkeep])
      · refine Or.inr (exists_update (Q := (· = .describing e.1)) c _ howner fun heq => ?_)
        rw [hcleaning] at heq
        cases heq
    · cases hstep

/-- There is nothing but the directories, the files and the descriptions of the checkpoints that
succeeded, and all of these. -/
def Exact (st : Store ι) : Prop :=
  ∀ path, st.files.kind path ≠ none ↔ ∃ e ∈ st.complete,
    path = appDir e.1 ∨ path = versionDir e.1 ∨ path = filePath e.1 descriptionName ∨
      ∃ name ∈ e.2, path = filePath e.1 name

omit [DecidableEq ι] in
/-- When no tool is at work, the accounts are exact. -/
theorem Accounted.exact {st : Store ι} (h : Accounted st) (hkept : Kept st)
    (hdescribed : Described st) (hready : ∀ c, st.tool c = .ready) : Exact st := by
  intro path
  constructor
  · intro hpath
    have hidle (c : ι) (info : CheckpointInfo) (pc : CleanPc) : st.tool c ≠ .cleaning info pc := by
      simp [hready c]
    have hversion (info : CheckpointInfo) (hkind : st.files.kind (versionDir info) ≠ none) :
        ∃ e ∈ st.complete, e.1 = info := by
      rcases h.version info hkind with hcomplete | ⟨c, pc, hphase, -⟩
      · exact hcomplete
      · exact absurd hphase (hidle c info pc)
    obtain ⟨k, hk⟩ := Option.ne_none_iff_exists'.mp hpath
    rcases h.shaped.shape path k hk with ⟨info, rfl, -⟩ | ⟨info, rfl, -⟩ | ⟨info, name, rfl, -⟩
    · obtain ⟨other, hother, hkind | ⟨c, hphase⟩⟩ := h.app info hpath
      · obtain ⟨e, he, rfl⟩ := hversion other hkind
        exact ⟨e, he, Or.inl hother.symm⟩
      · exact absurd hphase (hidle c other .removeApp)
    · obtain ⟨e, he, rfl⟩ := hversion info hpath
      exact ⟨e, he, Or.inr (Or.inl rfl)⟩
    · rcases h.file info name hpath with ⟨e, he, rfl, hname | rfl⟩ | ⟨c, pc, hphase, -⟩
      · exact ⟨e, he, Or.inr (Or.inr (Or.inr ⟨name, hname, rfl⟩))⟩
      · exact ⟨e, he, Or.inr (Or.inr (Or.inl rfl))⟩
      · exact absurd hphase (hidle c info pc)
  · rintro ⟨e, he, rfl | rfl | rfl | ⟨name, hname, rfl⟩⟩
    · simp [(hkept e he).1]
    · simp [(hkept e he).2.1]
    · rcases hdescribed e he with hkind | ⟨c, hphase⟩
      · exact hkind
      · simp [hready c] at hphase
    · simp [(hkept e he).2.2 name hname]

omit [DecidableEq ι] in
/-- Before the first checkpoint there is nothing to account for. -/
theorem accounted_start : Accounted (Store.start ι) where
  shaped := by
    constructor
    · intro path k hk
      cases hk
    · intro info hversion
      exact absurd rfl hversion
    · intro info name hfile
      exact absurd rfl hfile
  file info name hfile := absurd rfl hfile
  version info hversion := absurd rfl hversion
  app info happ := absurd rfl happ
  describing c info hphase := by cases hphase

/-- Whatever tools work in the directory at the same time and in whatever order their calls come:
where none of them fails, the directory holds exactly the checkpoints that succeeded, with their
descriptions, whenever no tool is at work. -/
theorem exact_when_ready (events : List (Event ι))
    (hrun : Along storeStep (fun st e => Fresh st e ∧ Smooth e) (Store.start ι) events) :
    Throughout storeStep (fun st => (∀ c, st.tool c = .ready) → Exact st) (Store.start ι) events := by
  have hstart : (Kept (Store.start ι) ∧ CleansFailed (Store.start ι)) ∧
      Accounted (Store.start ι) ∧ Described (Store.start ι) :=
    ⟨kept_start, accounted_start, by simp [Described, Store.start]⟩
  have hkeep (st : Store ι) (e : Event ι) (st' : Store ι)
      (hinv : (Kept st ∧ CleansFailed st) ∧ Accounted st ∧ Described st)
      (hcond : Fresh st e ∧ Smooth e) (hstep : storeStep st e = some st') :
      (Kept st' ∧ CleansFailed st') ∧ Accounted st' ∧ Described st' :=
    ⟨storeStep_kept hinv.1 hcond.1 hstep,
      storeStep_accounted hinv.2.1 hcond.1 hcond.2 hstep,
      storeStep_described hinv.2.2 hinv.1.1 hinv.1.2 hcond.2 hstep⟩
  have hall := throughout_of_along hkeep hstart events hrun
  exact hall.mono fun st hinv hready => hinv.2.1.exact hinv.1.1 hinv.2.2 hready

/-- A failed checkpoint is cleaned up while another one of its application is described: the
directory of the application stays. -/
theorem failed_version_removed :
    ∃ st, run storeStep (Store.start Bool) mixedEvents = some st ∧ Exact st := by
  have hready : ∀ c, ((run storeStep (Store.start Bool) mixedEvents).get
      (by decide +kernel)).tool c = .ready := by decide +kernel
  have hst := (Option.some_get (x := run storeStep (Store.start Bool) mixedEvents)
    (by decide +kernel)).symm
  exact ⟨_, hst, (exact_when_ready mixedEvents (by decide +kernel)).finish hst hready⟩

end Kerrighed.Tools.CheckpointStore
