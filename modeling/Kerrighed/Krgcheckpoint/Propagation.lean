import Kerrighed.Krgcheckpoint.Exclusions

/-!
# The checkpoint and restart rounds over a process tree

Every process that excludes regions answers the checkpoint signal by submitting its list to
the kernel and then signals its children; on restart it calls the functions of its regions
and then signals its children. The two callbacks are translated on the heap of the
registry, and a tree of processes follows the lists of children.

The checkpoint callback returns before the loop over the children when the process excludes
nothing itself, and the restart callback does not. The two rounds reach the same processes
exactly when every process with a child excludes a region.
-/

namespace Kerrighed.Krgcheckpoint

open Kerrighed.Common

variable {F : Type}

/-- What the kernel reads of a region it is told to exclude. -/
structure SubmittedRegion where
  pid : ℤ
  addr : ℕ
  size : ℕ
  deriving DecidableEq, Repr

/-- The list of regions as the kernel walks it. -/
def submissionLink (F : Type) : LinkField ℕ (CrMmRegionExcluded F) SubmittedRegion where
  next c := c.region.next
  setNext q c := { c with region := { c.region with next := q } }
  payload c := ⟨c.region.pid, c.region.addr, c.region.size⟩
  next_setNext := CrMmRegionExcluded.next_write
  payload_setNext _ _ := rfl

/-- A process with its registry of excluded regions, what `KSYS_APP_CR_EXCLUDE` returns to it and
what the functions of its regions return. -/
structure Excluder (F : Type) where
  pid : ℤ
  registry : Regions F
  regions : List (Exclusion F)
  lists : exclusions registry = some regions
  crExclude : ℤ
  ret : F → ℕ → ℤ

/-- The list of children of a process, each with its own list. -/
inductive Family (F : Type) where
  | none
  | child (process : Excluder F) (firstChild next : Family F)

/-- What a callback round has done: the pids of the processes whose callback ran, and the calls
of `KSYS_APP_CR_EXCLUDE` with their callers. -/
structure Round where
  reached : List ℤ
  submitted : List (ℤ × List SubmittedRegion)
  deriving DecidableEq, Repr

/-- One round after another. -/
def Round.append (r s : Round) : Round := ⟨r.reached ++ s.reached, r.submitted ++ s.submitted⟩

/-- Write the own pid into every region. -/
def updatePids (pid : ℤ) (s : Regions F) : Option (Regions F) := do
  let heap ← updateAll (regionLink F) (fun c => { c with region := { c.region with pid := pid } })
    (walkSteps s.heap) s.heap s.firstMmRegionExcluded
  some { s with heap := heap }

/-- The checkpoint callback of a process, given the round that its loop over the children makes. -/
def crMmExclusionCheckpointCb (p : Excluder F) (children : Option Round) : Option (ℤ × Round) :=
  match p.registry.firstMmRegionExcluded with
  | none => some (0, ⟨[p.pid], []⟩)
  | some _ => do
    let registry ← updatePids p.pid p.registry
    let regions ← contents (submissionLink F) registry.heap registry.firstMmRegionExcluded
    let round ← children
    some (p.crExclude, Round.append ⟨[p.pid], [(p.pid, regions)]⟩ round)

/-- What the loop over the regions makes of the result so far when it is at a region. -/
def restartResult (p : Excluder F) (ret : ℤ) (e : Exclusion F) : ℤ :=
  match e.func with
  | none => ret
  | some f => if p.ret f e.arg ≠ 0 then p.ret f e.arg else ret

/-- The restart callback of a process, given the round that its loop over the children makes. -/
def crMmExclusionRestartCb (p : Excluder F) (children : Option Round) : Option (ℤ × Round) := do
  let regions ← exclusions p.registry
  let round ← children
  some (regions.foldl (restartResult p) 0, Round.append ⟨[p.pid], []⟩ round)

/-- The loop of the checkpoint callback over the children, whose results it ignores. -/
def checkpointChildren : Family F → Option Round
  | .none => some ⟨[], []⟩
  | .child process firstChild next => do
    let (_, round) ← crMmExclusionCheckpointCb process (checkpointChildren firstChild)
    let rest ← checkpointChildren next
    some (round.append rest)

/-- The loop of the restart callback over the children, whose results it ignores. -/
def restartChildren : Family F → Option Round
  | .none => some ⟨[], []⟩
  | .child process firstChild next => do
    let (_, round) ← crMmExclusionRestartCb process (restartChildren firstChild)
    let rest ← restartChildren next
    some (round.append rest)

/-- One checkpoint round on the root of a tree. -/
def checkpointRound (root : Excluder F) (children : Family F) : Option Round :=
  (crMmExclusionCheckpointCb root (checkpointChildren children)).map Prod.snd

/-- One restart round on the root of a tree. -/
def restartRound (root : Excluder F) (children : Family F) : Option Round :=
  (crMmExclusionRestartCb root (restartChildren children)).map Prod.snd

/-- The process excludes some region. -/
def Excluder.excludes (p : Excluder F) : Bool := !p.regions.isEmpty

/-- The call a process should make: its own list, under its own pid. -/
def Excluder.submission (p : Excluder F) : ℤ × List SubmittedRegion :=
  (p.pid, p.regions.map fun e => ⟨p.pid, e.addr, e.size⟩)

/-- All processes of a family, parents before children. -/
def Family.processes : Family F → List (Excluder F)
  | .none => []
  | .child process firstChild next => process :: (firstChild.processes ++ next.processes)

/-- The processes of a family that have no strict ancestor in it without a region. -/
def Family.visible : Family F → List (Excluder F)
  | .none => []
  | .child process firstChild next =>
    process :: ((if process.excludes then firstChild.visible else []) ++ next.visible)

/-- Every process with a region submits its whole list once, and nobody else submits anything. -/
def SubmitsOnce (root : Excluder F) (children : Family F) : Prop :=
  ∃ round ∈ checkpointRound root children,
    round.submitted.Perm (((root :: children.processes).filter Excluder.excludes).map
      Excluder.submission)

/-- The checkpoint round reaches the processes that the restart round reaches. -/
def ReachesAlike (root : Excluder F) (children : Family F) : Prop :=
  ∃ round ∈ checkpointRound root children, ∃ round' ∈ restartRound root children,
    round.reached.Perm round'.reached

instance (root : Excluder F) (children : Family F) : Decidable (SubmitsOnce root children) :=
  inferInstanceAs (Decidable (∃ round ∈ checkpointRound root children, _))

instance (root : Excluder F) (children : Family F) : Decidable (ReachesAlike root children) :=
  inferInstanceAs (Decidable (∃ round ∈ checkpointRound root children,
    ∃ round' ∈ restartRound root children, _))

/-- The family has no process. -/
def Family.isNone : Family F → Bool
  | .none => true
  | .child _ _ _ => false

/-- In a family every process with a child excludes a region. -/
def Family.ParentsExclude : Family F → Prop
  | .none => True
  | .child process firstChild next =>
    (firstChild.isNone = false → process.excludes = true) ∧ firstChild.ParentsExclude ∧
      next.ParentsExclude

/-- In a family no process that meets `q` has a strict ancestor without a region. -/
def Family.NoneHidden (q : Excluder F → Bool) : Family F → Prop
  | .none => True
  | .child process firstChild next =>
    (process.excludes = false → ∀ p ∈ firstChild.processes, q p = false) ∧
      firstChild.NoneHidden q ∧ next.NoneHidden q

/-- Writing the pid turns the list of a process into its submission. -/
theorem updatePids_eq (p : Excluder F) :
    ∃ registry, updatePids p.pid p.registry = some registry ∧
      contents (submissionLink F) registry.heap registry.firstMmRegionExcluded =
        some p.submission.2 := by
  obtain ⟨l, hl, hregions⟩ := contents_eq_some.mp p.lists
  obtain ⟨heap, hupdate, hseg, -⟩ := updateAll_eq (submissionLink F)
    (g := fun c => { c with region := { c.region with pid := p.pid } })
    (k := fun e : Exclusion F => (⟨p.pid, e.addr, e.size⟩ : SubmittedRegion))
    (fun _ => rfl) (fun _ => rfl) (fun _ => rfl) hl hl.length_lt
  refine ⟨{ p.registry with heap := heap }, by simp [updatePids, hupdate], ?_⟩
  refine contents_eq_some.mpr ⟨_, hseg, ?_⟩
  rw [Excluder.submission, ← hregions, List.map_map, List.map_map]
  rfl

/-- The pointer to the first region is null exactly when the process excludes nothing. -/
theorem Excluder.first_eq_none_iff (p : Excluder F) :
    p.registry.firstMmRegionExcluded = none ↔ p.excludes = false := by
  obtain ⟨l, hl, hregions⟩ := contents_eq_some.mp p.lists
  rw [Excluder.excludes, ← hregions]
  cases l with
  | nil => simpa [IsSeg] using hl
  | cons x rest => simp [hl.1]

/-- The checkpoint callback submits the list and signals the children, if there is a region. -/
theorem crMmExclusionCheckpointCb_eq (p : Excluder F) (children : Option Round) :
    crMmExclusionCheckpointCb p children =
      if p.excludes then
        children.map fun round => (p.crExclude, Round.append ⟨[p.pid], [p.submission]⟩ round)
      else some (0, ⟨[p.pid], []⟩) := by
  have hfirst := p.first_eq_none_iff
  cases hexcludes : p.excludes with
  | false => simp [crMmExclusionCheckpointCb, hfirst.mpr hexcludes]
  | true =>
    cases hp : p.registry.firstMmRegionExcluded with
    | none => simp [hfirst.mp hp] at hexcludes
    | some first =>
      obtain ⟨registry, hupdate, hcontents⟩ := updatePids_eq p
      cases children with
      | none => simp [crMmExclusionCheckpointCb, hp, hupdate]
      | some round =>
        simp [crMmExclusionCheckpointCb, hp, hupdate, hcontents, Excluder.submission]

/-- The restart callback signals the children in any case. -/
theorem crMmExclusionRestartCb_eq (p : Excluder F) (children : Option Round) :
    crMmExclusionRestartCb p children =
      children.map fun round =>
        (p.regions.foldl (restartResult p) 0, Round.append ⟨[p.pid], []⟩ round) := by
  cases children <;> simp [crMmExclusionRestartCb, p.lists]

/-- The loop over the children reaches those that no process without a region hides. -/
theorem checkpointChildren_eq (family : Family F) :
    checkpointChildren family =
      some ⟨family.visible.map Excluder.pid,
        (family.visible.filter Excluder.excludes).map Excluder.submission⟩ := by
  induction family with
  | none => rfl
  | child process firstChild next ihFirst ihNext =>
    rw [checkpointChildren, crMmExclusionCheckpointCb_eq, ihFirst, ihNext]
    cases hexcludes : process.excludes <;>
      simp [hexcludes, Family.visible, Round.append]

/-- The restart loop reaches everybody. -/
theorem restartChildren_eq (family : Family F) :
    restartChildren family = some ⟨family.processes.map Excluder.pid, []⟩ := by
  induction family with
  | none => rfl
  | child process firstChild next ihFirst ihNext =>
    rw [restartChildren, crMmExclusionRestartCb_eq, ihFirst, ihNext]
    simp [Family.processes, Round.append]

/-- The checkpoint round on a root is that on a family with this one member. -/
theorem checkpointRound_eq (root : Excluder F) (children : Family F) :
    checkpointRound root children = checkpointChildren (.child root children .none) := by
  rw [checkpointRound, checkpointChildren]
  cases crMmExclusionCheckpointCb root (checkpointChildren children) <;>
    simp [checkpointChildren, Round.append]

/-- The restart round on a root is that on a family with this one member. -/
theorem restartRound_eq (root : Excluder F) (children : Family F) :
    restartRound root children = restartChildren (.child root children .none) := by
  rw [restartRound, restartChildren]
  cases crMmExclusionRestartCb root (restartChildren children) <;>
    simp [restartChildren, Round.append]

/-- The visible processes are some of all processes, in the same order. -/
theorem Family.visible_sublist (family : Family F) : family.visible.Sublist family.processes := by
  induction family with
  | none => exact List.Sublist.refl _
  | child process firstChild next ihFirst ihNext =>
    rw [Family.visible, Family.processes]
    apply List.Sublist.cons_cons
    split
    · exact ihFirst.append ihNext
    · exact (List.nil_sublist _).append ihNext

/-- All processes that meet `q` are visible exactly when none of them is hidden. -/
theorem Family.countP_visible_eq_iff (q : Excluder F → Bool) (family : Family F) :
    family.visible.countP q = family.processes.countP q ↔ family.NoneHidden q := by
  induction family with
  | none => simp [Family.visible, Family.processes, Family.NoneHidden]
  | child process firstChild next ihFirst ihNext =>
    have hfirst := firstChild.visible_sublist.countP_le (p := q)
    have hnext := next.visible_sublist.countP_le (p := q)
    have hzero : firstChild.processes.countP q = 0 ↔ ∀ p ∈ firstChild.processes, q p = false := by
      simp [List.countP_eq_zero]
    rw [Family.NoneHidden, ← ihFirst, ← ihNext, ← hzero]
    simp only [Family.visible, Family.processes, List.countP_cons, List.countP_append]
    cases process.excludes with
    | false =>
      simp only [Bool.false_eq_true, if_false, List.countP_nil, true_imp_iff]
      omega
    | true =>
      simp only [if_true, Bool.true_eq_false, false_imp_iff, true_and]
      omega

/-- A process with a child excludes a region exactly when no process at all is hidden. -/
theorem Family.parentsExclude_iff (family : Family F) :
    family.ParentsExclude ↔ family.NoneHidden fun _ => true := by
  induction family with
  | none => exact Iff.rfl
  | child process firstChild next ihFirst ihNext =>
    have hnobody : (firstChild.isNone = false → process.excludes = true) ↔
        (process.excludes = false → ∀ p ∈ firstChild.processes, true = false) := by
      cases firstChild with
      | none => simp [Family.isNone, Family.processes]
      | child first _ _ =>
        cases process.excludes with
        | false => simpa [Family.isNone] using ⟨first, by simp [Family.processes]⟩
        | true => simp
    rw [Family.ParentsExclude, Family.NoneHidden, ihFirst, ihNext, hnobody]

/-- Hiding nobody hides none of those that meet `q`. -/
theorem Family.ParentsExclude.noneHidden {family : Family F} (h : family.ParentsExclude)
    (q : Excluder F → Bool) : family.NoneHidden q := by
  rw [Family.parentsExclude_iff, ← Family.countP_visible_eq_iff] at h
  rw [← Family.countP_visible_eq_iff]
  simp only [List.countP_true] at h
  rw [family.visible_sublist.eq_of_length h]

/-- Every process with a region submits it once exactly when none of them has a strict ancestor
without a region. -/
theorem submitsOnce_iff (root : Excluder F) (children : Family F) :
    SubmitsOnce root children ↔
      (Family.child root children .none).NoneHidden Excluder.excludes := by
  have hprocesses : root :: children.processes = (Family.child root children .none).processes := by
    simp [Family.processes]
  rw [← Family.countP_visible_eq_iff]
  simp only [SubmitsOnce, checkpointRound_eq, checkpointChildren_eq, Option.mem_some_iff,
    exists_eq_left', hprocesses, List.countP_eq_length_filter]
  constructor
  · intro hperm
    simpa using hperm.length_eq
  · intro hlen
    have hsub := (Family.child root children .none).visible_sublist.filter Excluder.excludes
    rw [hsub.eq_of_length hlen]

/-- The checkpoint round reaches what the restart round reaches exactly when every process with a
child excludes a region. -/
theorem reachesAlike_iff (root : Excluder F) (children : Family F) :
    ReachesAlike root children ↔ (Family.child root children .none).ParentsExclude := by
  rw [Family.parentsExclude_iff, ← Family.countP_visible_eq_iff]
  simp only [ReachesAlike, checkpointRound_eq, restartRound_eq, checkpointChildren_eq,
    restartChildren_eq, Option.mem_some_iff, exists_eq_left', List.countP_true]
  constructor
  · intro hperm
    simpa using hperm.length_eq
  · intro hlen
    rw [(Family.child root children .none).visible_sublist.eq_of_length hlen]

/-- A checkpoint round on the root makes every process with a region submit its list once, and
reaches the processes that a restart round reaches, exactly when every process with a child
excludes a region. -/
theorem checkpointRound_complete_iff (root : Excluder F) (children : Family F) :
    SubmitsOnce root children ∧ ReachesAlike root children ↔
      (Family.child root children .none).ParentsExclude := by
  rw [submitsOnce_iff, reachesAlike_iff]
  constructor
  · exact fun h => h.2
  · exact fun h => ⟨h.noneHidden _, h⟩

/-- A process with one excluded region. -/
def Excluder.single (pid : ℤ) : Excluder Unit where
  pid := pid
  registry := ⟨some 1, AList.insert 1 ⟨⟨0, 4096, 8, none⟩, none, 0⟩ ∅⟩
  regions := [⟨4096, 8, none, 0⟩]
  lists := by decide
  crExclude := 0
  ret _ _ := 0

/-- A process that excludes nothing. -/
def Excluder.bare (pid : ℤ) : Excluder Unit where
  pid := pid
  registry := .empty
  regions := []
  lists := rfl
  crExclude := 0
  ret _ _ := 0

/-- The child of a process without regions is not asked for its own. -/
theorem child_of_bare_root_hidden :
    ¬ (SubmitsOnce (.bare 100) (.child (.single 101) .none .none) ∧
      ReachesAlike (.bare 100) (.child (.single 101) .none .none)) := by
  decide

end Kerrighed.Krgcheckpoint
