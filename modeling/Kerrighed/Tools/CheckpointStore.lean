import Kerrighed.Common.Files
import Kerrighed.Common.Runs
import Kerrighed.Tools.Description
import Mathlib.Data.Fintype.Basic
import Mathlib.Logic.Function.Basic

/-!
# The directory of the checkpoints

Each version of a checkpoint has a directory of its own below that of its application. The kernel
fills it, and the tool adds the description. After a checkpoint that failed the tool removes what the
kernel has left: the regular files of the version, its directory, and the directory of the
application.

Any number of tools work in the same directory at the same time, and each removal is tried whatever
the others have done in between. A checkpoint that succeeded is never touched. Where no call fails,
nothing else is left when the tools are done.
-/

namespace Kerrighed.Tools.CheckpointStore

open Kerrighed.Common Description

/-- The name of a file or directory. -/
abbrev Name := List Char

/-- The name of the directory of an application. -/
def appName (info : CheckpointInfo) : Name := printDecimal info.appId.toInt

/-- The name of the directory of a version. -/
def versionName (info : CheckpointInfo) : Name := 'v' :: printDecimal info.chkptSn.toInt

/-- The directory of an application, below that of all checkpoints. -/
def appDir (info : CheckpointInfo) : List Name := [appName info]

/-- The directory of a version. -/
def versionDir (info : CheckpointInfo) : List Name := [appName info, versionName info]

/-- A file of a version. -/
def filePath (info : CheckpointInfo) (name : Name) : List Name :=
  [appName info, versionName info, name]

/-- The text of a path. -/
def pathText (path : List Name) : List Char := "/var/chkpt".toList ++ path.flatMap ('/' :: ·)

/-- The name of the description. -/
def descriptionName : Name := "description.txt".toList

/-- The next call of `clean_checkpoint_dir`: the two directories that are opened to refresh the cache,
the directory of the version, the files that are still to be read from it, and the removals of the
two directories. -/
inductive CleanPc where
  | refresh
  | refreshApp
  | openVersion
  | reading (rest : List (Name × Kind))
  | removeVersion
  | removeApp
  deriving DecidableEq, Repr

/-- One call of `clean_checkpoint_dir`, which the system may let fail: where the function stands then,
unless it has returned, and the files. It has no result when the path of a file does not fit into its
buffer. -/
def cleanStep (info : CheckpointInfo) (ok : Bool) (files : Files Name) :
    CleanPc → Option (Option CleanPc × Files Name)
  | .refresh => some (if ok then some .refreshApp else none, files)
  | .refreshApp =>
    some (if ok ∧ files.kind (appDir info) = some .directory then some .openVersion else none, files)
  | .openVersion =>
    some (if ok ∧ files.kind (versionDir info) = some .directory
      then some (.reading (files.namesIn (versionDir info))) else none, files)
  | .reading [] => some (some .removeVersion, files)
  | .reading ((name, kind) :: rest) =>
    if kind = .regular then
      if 256 ≤ (pathText (filePath info name)).length then none
      else some (some (.reading rest), if ok then files.tryRemove (filePath info name) else files)
    else some (some (.reading rest), files)
  | .removeVersion =>
    some (some .removeApp, if ok then files.tryRemove (versionDir info) else files)
  | .removeApp => some (none, if ok then files.tryRemove (appDir info) else files)

/-- What a tool does: nothing, write the description, or clean up. -/
inductive Phase where
  | ready
  | describing (info : CheckpointInfo)
  | cleaning (info : CheckpointInfo) (pc : CleanPc)
  deriving DecidableEq, Repr

/-- The checkpoint that a tool works on. -/
def Phase.info : Phase → Option CheckpointInfo
  | .ready => none
  | .describing info => some info
  | .cleaning info _ => some info

/-- The files, the tools, and the checkpoints that succeeded, with the files the kernel made for
them. -/
structure Store (ι : Type*) where
  files : Files Name
  tool : ι → Phase
  complete : List (CheckpointInfo × List Name)

/-- What happens next: the kernel answers a request, having made nothing or the directories and some
files; or a tool makes its next call, which may fail. -/
inductive Event (ι : Type*) where
  | checkpoint (c : ι) (result : ℤ) (info : CheckpointInfo) (created : Option (List Name))
  | describe (c : ι) (ok : Bool)
  | clean (c : ι) (ok : Bool)
  deriving DecidableEq, Repr

variable {ι : Type*} [DecidableEq ι]

/-- What the kernel makes for a checkpoint. -/
def create (info : CheckpointInfo) (files : Files Name) : Option (List Name) → Files Name
  | none => files
  | some names =>
    names.foldl (fun files name => files.put (filePath info name) .regular)
      ((files.put (appDir info) .directory).put (versionDir info) .directory)

/-- `fopen` for appending: the file is made if it is not there and its directory is. -/
def openDescription (info : CheckpointInfo) (files : Files Name) : Files Name :=
  if files.kind (filePath info descriptionName) = none ∧
      files.kind (versionDir info) = some .directory then
    files.put (filePath info descriptionName) .regular
  else files

/-- One step of the store. -/
def storeStep (st : Store ι) : Event ι → Option (Store ι)
  | .checkpoint c result info created =>
    match st.tool c with
    | .ready =>
      if result = 0 then
        some ⟨create info st.files created, Function.update st.tool c (.describing info),
          st.complete ++ [(info, created.getD [])]⟩
      else
        some ⟨create info st.files created,
          Function.update st.tool c (if info.chkptSn = 0 then .ready else .cleaning info .refresh),
          st.complete⟩
    | _ => none
  | .describe c ok =>
    match st.tool c with
    | .describing info =>
      some ⟨if ok then openDescription info st.files else st.files,
        Function.update st.tool c .ready, st.complete⟩
    | _ => none
  | .clean c ok =>
    match st.tool c with
    | .cleaning info pc =>
      (cleanStep info ok st.files pc).map fun r =>
        ⟨r.2, Function.update st.tool c (r.1.elim .ready (.cleaning info)), st.complete⟩
    | _ => none

/-- The store before the first checkpoint. -/
def Store.start (ι : Type*) : Store ι := ⟨[], fun _ => .ready, []⟩

/-- The kernel has made the directories of a checkpoint that succeeded, and numbers a checkpoint as
none that succeeded and none that a tool still works on. -/
def Fresh (st : Store ι) : Event ι → Prop
  | .checkpoint _ result info created =>
    (result = 0 → created ≠ none) ∧ (created ≠ none → info.chkptSn ≠ 0) ∧
      (info.chkptSn ≠ 0 →
        (∀ e ∈ st.complete, e.1 ≠ info) ∧ ∀ d, (st.tool d).info ≠ some info)
  | _ => True

instance [Fintype ι] (st : Store ι) : ∀ e, Decidable (Fresh st e)
  | .checkpoint _ result info created =>
    inferInstanceAs (Decidable ((result = 0 → created ≠ none) ∧
      (created ≠ none → info.chkptSn ≠ 0) ∧
        (info.chkptSn ≠ 0 →
          (∀ e ∈ st.complete, e.1 ≠ info) ∧ ∀ d, (st.tool d).info ≠ some info)))
  | .describe _ _ | .clean _ _ => isTrue trivial

/-- The directories and the files of every checkpoint that succeeded are there. -/
def Kept (st : Store ι) : Prop :=
  ∀ e ∈ st.complete, st.files.kind (appDir e.1) = some .directory ∧
    st.files.kind (versionDir e.1) = some .directory ∧
    ∀ name ∈ e.2, st.files.kind (filePath e.1 name) = some .regular

/-- Nobody cleans up a checkpoint that succeeded. -/
def CleansFailed (st : Store ι) : Prop :=
  ∀ c info pc, st.tool c = .cleaning info pc → ∀ e ∈ st.complete, e.1 ≠ info

/-- The names of the directories tell the checkpoints apart. -/
theorem eq_of_names {a b : CheckpointInfo} (happ : appName a = appName b)
    (hversion : versionName a = versionName b) : a = b := by
  obtain ⟨appId, chkptSn⟩ := a
  obtain ⟨appId', chkptSn'⟩ := b
  have happId : appId = appId' := Int64.toInt_inj.mp (printDecimal_injective happ)
  have hchkptSn : chkptSn = chkptSn' :=
    Int32.toInt_inj.mp (printDecimal_injective (List.cons.inj hversion).2)
  rw [happId, hchkptSn]

/-- A version has one directory. -/
@[simp]
theorem versionDir_inj {a b : CheckpointInfo} : versionDir a = versionDir b ↔ a = b := by
  refine ⟨fun h => ?_, fun h => h ▸ rfl⟩
  simp only [versionDir, List.cons.injEq, and_true] at h
  exact eq_of_names h.1 h.2

/-- A file belongs to one version. -/
@[simp]
theorem filePath_inj {a b : CheckpointInfo} {m n : Name} :
    filePath a m = filePath b n ↔ a = b ∧ m = n := by
  constructor
  · intro h
    simp only [filePath, List.cons.injEq, and_true] at h
    exact ⟨eq_of_names h.1 h.2.1, h.2.2⟩
  · rintro ⟨rfl, rfl⟩
    rfl

@[simp]
theorem appDir_ne_versionDir (a b : CheckpointInfo) : appDir a ≠ versionDir b := by
  simp [appDir, versionDir]

@[simp]
theorem appDir_ne_filePath (a b : CheckpointInfo) (n : Name) : appDir a ≠ filePath b n := by
  simp [appDir, filePath]

@[simp]
theorem versionDir_ne_filePath (a b : CheckpointInfo) (n : Name) : versionDir a ≠ filePath b n := by
  simp [versionDir, filePath]

/-- What the kernel has made is there, and everything else as before. -/
theorem kind_create (info : CheckpointInfo) (files : Files Name) (names : List Name)
    (path : List Name) :
    (create info files (some names)).kind path =
      if path ∈ names.map (filePath info) then some .regular
      else if path = versionDir info ∨ path = appDir info then some .directory
      else files.kind path := by
  have hfold (base : Files Name) :
      (names.foldl (fun files name => files.put (filePath info name) .regular) base).kind path =
        if path ∈ names.map (filePath info) then some .regular else base.kind path := by
    induction names generalizing base with
    | nil => simp
    | cons name rest ih =>
      simp only [List.foldl_cons, ih, List.map_cons, List.mem_cons, kind_put]
      by_cases hrest : path ∈ rest.map (filePath info)
      · rw [if_pos hrest, if_pos (Or.inr hrest)]
      · by_cases hname : path = filePath info name
        · rw [if_neg hrest, if_pos hname, if_pos (Or.inl hname)]
        · rw [if_neg hrest, if_neg hname, if_neg (not_or.mpr ⟨hname, hrest⟩)]
  rw [create, hfold, kind_put, kind_put]
  by_cases hversion : path = versionDir info
  · simp [hversion]
  · simp [hversion]

/-- A checkpoint leaves the files of all others. -/
theorem kind_create_of_ne {info other : CheckpointInfo} (h : other ≠ info) (files : Files Name)
    (created : Option (List Name)) :
    (create info files created).kind (versionDir other) = files.kind (versionDir other) ∧
      ∀ name, (create info files created).kind (filePath other name) =
        files.kind (filePath other name) := by
  cases created with
  | none => exact ⟨rfl, fun _ => rfl⟩
  | some names =>
    have hne := Ne.symm h
    refine ⟨?_, fun name => ?_⟩
    · rw [kind_create]
      simp [h, (appDir_ne_versionDir info other).symm, (versionDir_ne_filePath other _ _).symm]
    · rw [kind_create]
      simp [hne, (versionDir_ne_filePath info other name).symm,
        (appDir_ne_filePath info other name).symm]

/-- What the kernel makes for a checkpoint is there then. -/
theorem kept_create (info : CheckpointInfo) (files : Files Name) (names : List Name) :
    (create info files (some names)).kind (appDir info) = some .directory ∧
      (create info files (some names)).kind (versionDir info) = some .directory ∧
      ∀ name ∈ names,
        (create info files (some names)).kind (filePath info name) = some .regular := by
  refine ⟨?_, ?_, fun name hname => ?_⟩
  · rw [kind_create]
    simp [(appDir_ne_filePath info _ _).symm]
  · rw [kind_create]
    simp [(versionDir_ne_filePath info _ _).symm]
  · rw [kind_create, if_pos (List.mem_map_of_mem hname)]

/-- A directory of an application stays one. -/
theorem kind_create_appDir {info other : CheckpointInfo} {files : Files Name}
    (created : Option (List Name)) (h : files.kind (appDir other) = some .directory) :
    (create info files created).kind (appDir other) = some .directory := by
  cases created with
  | none => exact h
  | some names =>
    rw [kind_create]
    simp [h, (appDir_ne_filePath other _ _).symm]

/-- A call of the cleaning tries to remove one path of its own checkpoint at most: a file, the
directory of the version before that of the application, or the latter at the end. -/
theorem cleanStep_files {info : CheckpointInfo} {ok : Bool} {files files' : Files Name}
    {pc : CleanPc} {next : Option CleanPc} (h : cleanStep info ok files pc = some (next, files')) :
    files' = files ∨ (∃ name, files' = files.tryRemove (filePath info name)) ∨
      (next = some .removeApp ∧ files' = files.tryRemove (versionDir info)) ∨
      (pc = .removeApp ∧ files' = files.tryRemove (appDir info)) := by
  cases pc with
  | refresh => exact Or.inl (Prod.mk.inj (Option.some.inj h)).2.symm
  | refreshApp => exact Or.inl (Prod.mk.inj (Option.some.inj h)).2.symm
  | openVersion => exact Or.inl (Prod.mk.inj (Option.some.inj h)).2.symm
  | reading rest =>
    cases rest with
    | nil => exact Or.inl (Prod.mk.inj (Option.some.inj h)).2.symm
    | cons entry rest =>
      obtain ⟨name, kind⟩ := entry
      rw [cleanStep] at h
      split at h
      · split at h
        · cases h
        · have hfiles := (Prod.mk.inj (Option.some.inj h)).2
          cases ok with
          | false => exact Or.inl hfiles.symm
          | true => exact Or.inr (Or.inl ⟨name, hfiles.symm⟩)
      · exact Or.inl (Prod.mk.inj (Option.some.inj h)).2.symm
  | removeVersion =>
    obtain ⟨hnext, hfiles⟩ := Prod.mk.inj (Option.some.inj h)
    cases ok with
    | false => exact Or.inl hfiles.symm
    | true => exact Or.inr (Or.inr (Or.inl ⟨hnext.symm, hfiles.symm⟩))
  | removeApp =>
    have hfiles := (Prod.mk.inj (Option.some.inj h)).2
    cases ok with
    | false => exact Or.inl hfiles.symm
    | true => exact Or.inr (Or.inr (Or.inr ⟨rfl, hfiles.symm⟩))

/-- A directory with a version in it has something below it. -/
theorem hasBelow_appDir {files : Files Name} {info other : CheckpointInfo}
    (happ : appDir other = appDir info) (hversion : files.kind (versionDir other) ≠ none) :
    files.HasBelow (appDir info) := by
  rw [hasBelow_iff, ← happ]
  exact ⟨versionDir other, ⟨[versionName other], rfl⟩, (appDir_ne_versionDir other other).symm,
    hversion⟩

/-- The cleaning of one checkpoint keeps the directories and the files of another. -/
theorem cleanStep_keeps {info other : CheckpointInfo} (hother : other ≠ info) {ok : Bool}
    {files files' : Files Name} {pc : CleanPc} {next : Option CleanPc}
    (h : cleanStep info ok files pc = some (next, files')) :
    files'.kind (versionDir other) = files.kind (versionDir other) ∧
      (∀ name, files'.kind (filePath other name) = files.kind (filePath other name)) ∧
      (files.kind (appDir other) = some .directory → files.kind (versionDir other) ≠ none →
        files'.kind (appDir other) = some .directory) := by
  rcases cleanStep_files h with rfl | ⟨name, rfl⟩ | ⟨-, rfl⟩ | ⟨-, rfl⟩
  · exact ⟨rfl, fun _ => rfl, fun hdir _ => hdir⟩
  · refine ⟨kind_tryRemove_of_ne files (versionDir_ne_filePath _ _ _), fun n => ?_, fun hdir _ => ?_⟩
    · exact kind_tryRemove_of_ne files fun heq => hother (filePath_inj.mp heq).1
    · rw [kind_tryRemove_of_ne files (appDir_ne_filePath _ _ _), hdir]
  · refine ⟨kind_tryRemove_of_ne files fun heq => hother (versionDir_inj.mp heq), fun n => ?_,
      fun hdir _ => ?_⟩
    · exact kind_tryRemove_of_ne files (versionDir_ne_filePath _ _ _).symm
    · rw [kind_tryRemove_of_ne files (appDir_ne_versionDir _ _), hdir]
  · refine ⟨kind_tryRemove_of_ne files (appDir_ne_versionDir _ _).symm, fun n => ?_,
      fun hdir hversion => ?_⟩
    · exact kind_tryRemove_of_ne files (appDir_ne_filePath _ _ _).symm
    · by_cases happ : appDir other = appDir info
      · rw [tryRemove_of_hasBelow (happ ▸ hdir) (hasBelow_appDir happ hversion), hdir]
      · rw [kind_tryRemove_of_ne files happ, hdir]

/-- The description is a file of its checkpoint that was not there. -/
theorem kind_openDescription {info : CheckpointInfo} {files : Files Name} {path : List Name}
    (h : files.kind path ≠ none ∨ path ≠ filePath info descriptionName) :
    (openDescription info files).kind path = files.kind path := by
  rw [openDescription]
  split
  · rename_i hopen
    have hne : path ≠ filePath info descriptionName := by
      rcases h with hkind | hne
      · exact fun heq => hkind (heq ▸ hopen.1)
      · exact hne
    rw [kind_put, if_neg hne]
  · rfl

/-- A step keeps the checkpoints that succeeded, and nobody comes to clean them up. -/
theorem storeStep_kept {st st' : Store ι} {e : Event ι} (h : Kept st ∧ CleansFailed st)
    (hfresh : Fresh st e) (hstep : storeStep st e = some st') : Kept st' ∧ CleansFailed st' := by
  obtain ⟨hkept, hfailed⟩ := h
  cases e with
  | checkpoint c result info created =>
    obtain ⟨hmade, hnumber, hunused⟩ := hfresh
    have hother (hsn : info.chkptSn ≠ 0) (e : CheckpointInfo × List Name) (he : e ∈ st.complete) :
        (create info st.files created).kind (appDir e.1) = some .directory ∧
          (create info st.files created).kind (versionDir e.1) = some .directory ∧
          ∀ name ∈ e.2, (create info st.files created).kind (filePath e.1 name) =
            some .regular := by
      obtain ⟨happ, hversion, hfiles⟩ := hkept e he
      obtain ⟨hkeepVersion, hkeepFiles⟩ := kind_create_of_ne ((hunused hsn).1 e he) st.files created
      refine ⟨kind_create_appDir created happ, hkeepVersion.trans hversion, fun name hname => ?_⟩
      exact (hkeepFiles name).trans (hfiles name hname)
    simp only [storeStep] at hstep
    split at hstep
    · split at hstep
      · rename_i hready hresult
        obtain rfl := Option.some.inj hstep
        obtain ⟨names, rfl⟩ := Option.ne_none_iff_exists'.mp (hmade hresult)
        have hsn := hnumber (by simp)
        refine ⟨fun e he => ?_, fun d other pc hd e he => ?_⟩
        · rcases List.mem_append.mp he with he | he
          · exact hother hsn e he
          · obtain rfl := List.mem_singleton.mp he
            exact kept_create info st.files names
        · by_cases hdc : d = c
          · rw [hdc] at hd
            simp at hd
          · dsimp only at hd
            rw [Function.update_of_ne hdc] at hd
            rcases List.mem_append.mp he with he | he
            · exact hfailed d other pc hd e he
            · obtain rfl := List.mem_singleton.mp he
              intro heq
              exact (hunused hsn).2 d (by rw [hd, Phase.info, ← heq])
      · obtain rfl := Option.some.inj hstep
        by_cases hsn : info.chkptSn = 0
        · have hnone : created = none := by
            by_contra hsome
            exact hnumber hsome hsn
          rw [hnone, if_pos hsn]
          refine ⟨hkept, fun d other pc hd => ?_⟩
          by_cases hdc : d = c
          · rw [hdc] at hd
            simp at hd
          · dsimp only at hd
            rw [Function.update_of_ne hdc] at hd
            exact hfailed d other pc hd
        · refine ⟨hother hsn, fun d other pc hd e he => ?_⟩
          by_cases hdc : d = c
          · dsimp only at hd
            rw [hdc, Function.update_self, if_neg hsn] at hd
            obtain ⟨rfl, -⟩ := Phase.cleaning.inj hd
            exact (hunused hsn).1 e he
          · dsimp only at hd
            rw [Function.update_of_ne hdc] at hd
            exact hfailed d other pc hd e he
    · cases hstep
  | describe c ok =>
    simp only [storeStep] at hstep
    split at hstep
    · rename_i info hdescribing
      obtain rfl := Option.some.inj hstep
      refine ⟨fun e he => ?_, fun d other pc hd => ?_⟩
      · obtain ⟨happ, hversion, hfiles⟩ := hkept e he
        cases ok with
        | false => exact ⟨happ, hversion, hfiles⟩
        | true =>
          refine ⟨?_, ?_, fun name hname => ?_⟩
          · exact (kind_openDescription (Or.inr (appDir_ne_filePath _ _ _))).trans happ
          · exact (kind_openDescription (Or.inr (versionDir_ne_filePath _ _ _))).trans hversion
          · have hfile := hfiles name hname
            exact (kind_openDescription (Or.inl (by simp [hfile]))).trans hfile
      · by_cases hdc : d = c
        · rw [hdc] at hd
          simp at hd
        · dsimp only at hd
          rw [Function.update_of_ne hdc] at hd
          exact hfailed d other pc hd
    · cases hstep
  | clean c ok =>
    simp only [storeStep] at hstep
    split at hstep
    · rename_i info pc hcleaning
      obtain ⟨⟨next, files'⟩, hclean, rfl⟩ := Option.map_eq_some_iff.mp hstep
      refine ⟨fun e he => ?_, fun d other pc' hd e he => ?_⟩
      · obtain ⟨happ, hversion, hfiles⟩ := hkept e he
        obtain ⟨hkeepVersion, hkeepFiles, hkeepApp⟩ :=
          cleanStep_keeps (hfailed c info pc hcleaning e he) hclean
        refine ⟨hkeepApp happ (by simp [hversion]), hkeepVersion.trans hversion,
          fun name hname => (hkeepFiles name).trans (hfiles name hname)⟩
      · by_cases hdc : d = c
        · dsimp only at hd
          rw [hdc, Function.update_self] at hd
          cases next with
          | none => cases hd
          | some pc'' =>
            obtain ⟨rfl, -⟩ := Phase.cleaning.inj hd
            exact hfailed c info pc hcleaning e he
        · dsimp only at hd
          rw [Function.update_of_ne hdc] at hd
          exact hfailed d other pc' hd e he
    · cases hstep

omit [DecidableEq ι] in
/-- Before the first checkpoint there is none to keep. -/
theorem kept_start : Kept (Store.start ι) ∧ CleansFailed (Store.start ι) := by
  simp [Kept, CleansFailed, Store.start]

/-- Whatever tools work in the directory at the same time, in whatever order their calls come and
whichever of them fail: the directories and the files of every checkpoint that succeeded stay there,
as long as the kernel numbers each checkpoint as none before. -/
theorem kept_throughout (events : List (Event ι))
    (hfresh : Along storeStep Fresh (Store.start ι) events) :
    Throughout storeStep Kept (Store.start ι) events := by
  have hboth := throughout_of_along (fun _ _ _ => storeStep_kept) kept_start events hfresh
  exact hboth.mono fun st h => h.1

/-- Two tools checkpoint an application. The checkpoint of the second fails, and it cleans up while the
first one writes its description. -/
def mixedEvents : List (Event Bool) :=
  [.checkpoint false 0 ⟨5, 1⟩ (some ["task.txt".toList]),
    .checkpoint true (-1) ⟨5, 2⟩ (some ["task.txt".toList, "mm.txt".toList]),
    .clean true true, .clean true true, .describe false true] ++
    List.replicate 6 (.clean true true)

/-- The cleaning of the second version keeps the first one. -/
theorem first_version_kept : Throughout storeStep Kept (Store.start Bool) mixedEvents :=
  kept_throughout mixedEvents (by decide +kernel)

end Kerrighed.Tools.CheckpointStore
