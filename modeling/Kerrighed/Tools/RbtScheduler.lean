import Kerrighed.Common.Shell

/-!
# Loading and unloading the scheduler

`krg_rbt_scheduler` loads the probes and the policy of a scheduler by making directories in configfs,
connects their ports by links, and takes all of it away again. The script runs under `set -e`, with
chains of commands in between.

With a kernel that does what it can, the scheduler is wholly there or wholly gone after any sequence of
starts and stops, and each of them succeeds exactly when it changes that. With a kernel that refuses
commands, a start may end half-way. If it made the first probe and not yet the link for the elapsed
jiffies, no later start or stop gets past its first commands again.
-/

namespace Kerrighed.Tools.RbtScheduler

open Kerrighed.Common

/-- The probes, in `PROBEDIR`. -/
inductive Probe where
  | user
  | load
  | cpuspeed
  | mattload
  | processsize
  deriving DecidableEq, Repr

/-- The links from the ports of a probe and of the policy to what another probe measures. -/
inductive Port where
  | cpuSpeed
  | cpuConnected
  | activeTasks
  | userConnected
  | processJiffies
  | processSize
  deriving DecidableEq, Repr

/-- The ports of the policy that have a cache filter. -/
inductive Filter where
  | mattload
  | loadinc
  | activeTasks
  deriving DecidableEq, Repr

/-- What the script makes: directories, and links in them. -/
inductive Item where
  | probe (p : Probe)
  | scheduler
  | policy
  | port (p : Port)
  | filter (f : Filter)
  | filterLink (f : Filter)
  deriving DecidableEq, Repr

/-- The directories that an item is in or leads to. -/
def needs : Item → List Item
  | .probe _ => []
  | .scheduler => []
  | .policy => [.scheduler]
  | .port .cpuSpeed => [.probe .cpuspeed, .probe .mattload]
  | .port .cpuConnected => [.probe .cpuspeed, .probe .mattload]
  | .port .activeTasks => [.probe .load, .probe .mattload]
  | .port .userConnected => [.probe .user, .probe .mattload]
  | .port .processJiffies => [.probe .load, .policy]
  | .port .processSize => [.probe .processsize, .policy]
  | .filter _ => [.policy]
  | .filterLink .mattload => [.probe .mattload, .filter .mattload]
  | .filterLink .loadinc => [.probe .mattload, .filter .loadinc]
  | .filterLink .activeTasks => [.probe .load, .filter .activeTasks]

/-- The modules of the kernel that are loaded with the first directory of their kind. -/
inductive Module where
  | probe (p : Probe)
  | rbtPolicy
  | rbtCacheFilter
  | remoteCacheFilter
  deriving DecidableEq, Repr

/-- The module of an item. -/
def moduleOf : Item → Option Module
  | .probe p => some (.probe p)
  | .policy => some .rbtPolicy
  | .filter .mattload => some .rbtCacheFilter
  | .filter .loadinc => some .rbtCacheFilter
  | .filter .activeTasks => some .remoteCacheFilter
  | _ => none

/-- The commands of the script: a test for a directory, `mkdir` or `ln -s`, one step of `mkdir -p`, the
period of a filter, the switch of the scheduler, `rmdir` or `rm`, and `rmmod`. -/
inductive Command where
  | test (p : Probe)
  | make (i : Item)
  | makeIfAbsent (i : Item)
  | setPollingPeriod (f : Filter)
  | handleAll
  | take (i : Item)
  | rmmod (m : Module)
  deriving DecidableEq, Repr

/-- `start_user`, `start_load`, `start_cpuspeed` and `start_processsize`. -/
def startProbe (p : Probe) : List (List Command) := [[.make (.probe p)]]

/-- `start_mattload`. -/
def startMattload : List (List Command) :=
  [[.make (.probe .mattload)],
    [.make (.port .cpuSpeed), .make (.port .cpuConnected), .make (.port .activeTasks),
      .make (.port .userConnected)]]

/-- Load a cache filter and plug it. -/
def startFilter (f : Filter) : List Command :=
  [.make (.filter f), .setPollingPeriod f, .make (.filterLink f)]

/-- `start_rbt`. -/
def startRbt : List (List Command) :=
  [[.test .mattload], [.test .load], [.test .processsize],
    [.makeIfAbsent .scheduler, .makeIfAbsent .policy, .make (.port .processJiffies),
      .make (.port .processSize)],
    startFilter .mattload, startFilter .loadinc, startFilter .activeTasks, [.handleAll]]

/-- `start`. -/
def start : List (List (List Command)) :=
  [startProbe .user, startProbe .load, startProbe .cpuspeed, startMattload, startProbe .processsize,
    startRbt]

/-- `stop_user`, `stop_load`, `stop_cpuspeed` and `stop_processsize`. -/
def stopProbe (p : Probe) : List (List Command) := [[.take (.probe p), .rmmod (.probe p)]]

/-- `stop_mattload`. -/
def stopMattload : List (List Command) :=
  [[.take (.port .cpuSpeed), .take (.port .cpuConnected), .take (.port .activeTasks),
      .take (.port .userConnected)],
    [.take (.probe .mattload), .rmmod (.probe .mattload)]]

/-- Unplug a cache filter. -/
def stopFilter (f : Filter) : List Command := [.take (.filterLink f), .take (.filter f)]

/-- `stop_rbt`. -/
def stopRbt : List (List Command) :=
  [stopFilter .mattload, stopFilter .loadinc, stopFilter .activeTasks, [.take (.port .processJiffies)],
    [.take (.port .processSize)], [.take .policy], [.rmmod .rbtCacheFilter], [.rmmod .rbtPolicy]]

/-- `stop`. -/
def stop : List (List (List Command)) :=
  [stopRbt, stopProbe .processsize, stopMattload, stopProbe .cpuspeed, stopProbe .load, stopProbe .user]

/-- The argument of the script. -/
inductive Action where
  | start
  | stop
  | other
  deriving DecidableEq, Repr

/-- The kernel: whether configfs is mounted and has a scheduler, what a command does and whether it
succeeds, which items are there and which modules are loaded. -/
structure Configfs (S : Type) where
  mounted : Bool
  exec : Command → S → Bool × S
  has : S → Item → Prop
  loaded : S → Module → Prop

variable {S : Type}

/-- The script: whether it reaches its end, where a start and a stop report their success. -/
def krgRbtScheduler (fs : Configfs S) (action : Action) (s : S) : Bool × S :=
  if fs.mounted = false then (false, s)
  else
    match action with
    | .start => runScript fs.exec start s
    | .stop => runScript fs.exec stop s
    | .other => (true, s)

/-- The outcomes of one call after the other. -/
def calls (fs : Configfs S) : List Action → S → List Bool × S
  | [], s => ([], s)
  | action :: rest, s =>
    let r := krgRbtScheduler fs action s
    let outcomes := calls fs rest r.2
    (r.1 :: outcomes.1, outcomes.2)

/-- The items that a command that succeeds leaves. -/
def After (has : Item → Prop) : Command → Item → Prop
  | .make j, i => has i ∨ i = j
  | .makeIfAbsent j, i => has i ∨ i = j
  | .take j, i => has i ∧ i ≠ j
  | _, i => has i

/-- What a kernel does even if it refuses commands: nothing is made twice, what is not there cannot be
taken away, and a command that fails changes nothing. -/
structure Lawful (fs : Configfs S) : Prop where
  not_twice : ∀ s i, fs.has s i → (fs.exec (.make i) s).1 = false
  not_absent : ∀ s i, ¬ fs.has s i → (fs.exec (.take i) s).1 = false
  has_exec : ∀ c s i, fs.has (fs.exec c s).2 i ↔
    if (fs.exec c s).1 then After (fs.has s) c i else fs.has s i

/-- What can be done: a directory or link is made where all it needs is there, and taken away when no
other needs it, and a module is unloaded when nothing of it is left. -/
def Possible (has : Item → Prop) (loaded : Module → Prop) : Command → Prop
  | .test p => has (.probe p)
  | .make i => ¬ has i ∧ ∀ j ∈ needs i, has j
  | .makeIfAbsent i => ∀ j ∈ needs i, has j
  | .setPollingPeriod f => has (.filter f)
  | .handleAll => has .scheduler
  | .take i => has i ∧ ∀ j, i ∈ needs j → ¬ has j
  | .rmmod m => loaded m ∧ ∀ i, moduleOf i = some m → ¬ has i

/-- The modules that a command that succeeds leaves loaded. -/
def LoadedAfter (loaded : Module → Prop) : Command → Module → Prop
  | .make i, m => loaded m ∨ moduleOf i = some m
  | .makeIfAbsent i, m => loaded m ∨ moduleOf i = some m
  | .rmmod m', m => loaded m ∧ m ≠ m'
  | _, m => loaded m

/-- A kernel that does what can be done. -/
structure Reliable (fs : Configfs S) : Prop extends Lawful fs where
  mounted : fs.mounted = true
  succeeds_iff : ∀ c s, (fs.exec c s).1 = true ↔ Possible (fs.has s) (fs.loaded s) c
  loaded_exec : ∀ c s m, fs.loaded (fs.exec c s).2 m ↔
    if (fs.exec c s).1 then LoadedAfter (fs.loaded s) c m else fs.loaded s m

/-- The items and modules as lists, a kernel that is reliable. -/
structure Tree where
  items : List Item
  loaded : List Module
  deriving DecidableEq, Repr

/-- All items. -/
def Item.all : List Item :=
  [.probe .user, .probe .load, .probe .cpuspeed, .probe .mattload, .probe .processsize, .scheduler,
    .policy, .port .cpuSpeed, .port .cpuConnected, .port .activeTasks, .port .userConnected,
    .port .processJiffies, .port .processSize, .filter .mattload, .filter .loadinc,
    .filter .activeTasks, .filterLink .mattload, .filterLink .loadinc, .filterLink .activeTasks]

/-- All modules. -/
def Module.all : List Module :=
  [.probe .user, .probe .load, .probe .cpuspeed, .probe .mattload, .probe .processsize, .rbtPolicy,
    .rbtCacheFilter, .remoteCacheFilter]

/-- Each item is among them. -/
theorem Item.mem_all : ∀ i, i ∈ Item.all
  | .probe p => by cases p <;> decide
  | .scheduler => by decide
  | .policy => by decide
  | .port p => by cases p <;> decide
  | .filter f => by cases f <;> decide
  | .filterLink f => by cases f <;> decide

/-- Each module is among them. -/
theorem Module.mem_all : ∀ m, m ∈ Module.all
  | .probe p => by cases p <;> decide
  | .rbtPolicy => by decide
  | .rbtCacheFilter => by decide
  | .remoteCacheFilter => by decide

/-- What can be done to the lists. -/
def Tree.possible (t : Tree) : Command → Bool
  | .test p => .probe p ∈ t.items
  | .make i => i ∉ t.items ∧ ∀ j ∈ needs i, j ∈ t.items
  | .makeIfAbsent i => ∀ j ∈ needs i, j ∈ t.items
  | .setPollingPeriod f => .filter f ∈ t.items
  | .handleAll => .scheduler ∈ t.items
  | .take i => i ∈ t.items ∧ ∀ j ∈ t.items, i ∉ needs j
  | .rmmod m => m ∈ t.loaded ∧ ∀ i ∈ t.items, moduleOf i ≠ some m

/-- The lists after a command. -/
def Tree.after (t : Tree) : Command → Tree
  | .make i => ⟨i :: t.items, (moduleOf i).toList ++ t.loaded⟩
  | .makeIfAbsent i => ⟨if i ∈ t.items then t.items else i :: t.items, (moduleOf i).toList ++ t.loaded⟩
  | .take i => ⟨t.items.filter (· ≠ i), t.loaded⟩
  | .rmmod m => ⟨t.items, t.loaded.filter (· ≠ m)⟩
  | _ => t

/-- The kernel of the lists. -/
def Tree.kernel : Configfs Tree where
  mounted := true
  exec c t := if t.possible c then (true, t.after c) else (false, t)
  has t i := i ∈ t.items
  loaded t m := m ∈ t.loaded

/-- What can be done to the lists is what can be done. -/
theorem Tree.possible_iff (t : Tree) (c : Command) :
    t.possible c = true ↔ Possible (· ∈ t.items) (· ∈ t.loaded) c := by
  cases c with
  | test p => simp [Tree.possible, Possible]
  | make i => simp [Tree.possible, Possible]
  | makeIfAbsent i => simp [Tree.possible, Possible]
  | setPollingPeriod f => simp [Tree.possible, Possible]
  | handleAll => simp [Tree.possible, Possible]
  | take i =>
    simp only [Tree.possible, Possible, decide_eq_true_eq, and_congr_right_iff]
    exact fun _ => ⟨fun h j hi hj => h j hj hi, fun h j hj hi => h j hi hj⟩
  | rmmod m =>
    simp only [Tree.possible, Possible, decide_eq_true_eq, and_congr_right_iff]
    exact fun _ => ⟨fun h i hm hi => h i hi hm, fun h i hi hm => h i hm hi⟩

/-- The lists after a command hold what it leaves. -/
theorem Tree.after_spec (t : Tree) (c : Command) :
    (∀ i, i ∈ (t.after c).items ↔ After (· ∈ t.items) c i) ∧
      ∀ m, m ∈ (t.after c).loaded ↔ LoadedAfter (· ∈ t.loaded) c m := by
  cases c with
  | test p => exact ⟨fun _ => Iff.rfl, fun _ => Iff.rfl⟩
  | setPollingPeriod f => exact ⟨fun _ => Iff.rfl, fun _ => Iff.rfl⟩
  | handleAll => exact ⟨fun _ => Iff.rfl, fun _ => Iff.rfl⟩
  | make i =>
    simp only [Tree.after, After, LoadedAfter, List.mem_cons, List.mem_append, Option.mem_toList]
    exact ⟨fun _ => or_comm, fun _ => or_comm⟩
  | makeIfAbsent i =>
    refine ⟨fun j => ?_, fun m => ?_⟩
    · simp only [Tree.after, After]
      by_cases hi : i ∈ t.items
      · rw [if_pos hi]
        exact ⟨Or.inl, fun h => h.elim id fun heq => heq ▸ hi⟩
      · rw [if_neg hi, List.mem_cons, or_comm]
    · simp only [Tree.after, LoadedAfter, List.mem_append, Option.mem_toList]
      exact or_comm
  | take i => simp [Tree.after, After, LoadedAfter]
  | rmmod m => simp [Tree.after, After, LoadedAfter]

/-- A command on the lists. -/
theorem Tree.exec_eq (c : Command) (t : Tree) :
    Tree.kernel.exec c t = (t.possible c, if t.possible c then t.after c else t) := by
  cases h : t.possible c with
  | true => simp [Tree.kernel, h]
  | false => simp [Tree.kernel, h]

/-- The kernel of the lists is reliable. -/
theorem Tree.reliable : Reliable Tree.kernel where
  mounted := rfl
  succeeds_iff c t := by
    rw [Tree.exec_eq]
    exact Tree.possible_iff t c
  not_twice t i h := by
    rw [Tree.exec_eq, Bool.eq_false_iff, Ne, Tree.possible_iff]
    exact fun hpossible => hpossible.1 h
  not_absent t i h := by
    rw [Tree.exec_eq, Bool.eq_false_iff, Ne, Tree.possible_iff]
    exact fun hpossible => h hpossible.1
  has_exec c t i := by
    rw [Tree.exec_eq]
    cases t.possible c with
    | true => exact (Tree.after_spec t c).1 i
    | false => exact Iff.rfl
  loaded_exec c t m := by
    rw [Tree.exec_eq]
    cases t.possible c with
    | true => exact (Tree.after_spec t c).2 m
    | false => exact Iff.rfl

/-- The lists hold the items that are there, and modules that are loaded. -/
def Agrees (fs : Configfs S) (s : S) (t : Tree) : Prop :=
  (∀ i, fs.has s i ↔ i ∈ t.items) ∧ ∀ m ∈ t.loaded, fs.loaded s m

/-- More can be done where more modules are loaded. -/
theorem Possible.mono {has : Item → Prop} {loaded loaded' : Module → Prop} {c : Command}
    (h : Possible has loaded c) (hle : ∀ m, loaded m → loaded' m) : Possible has loaded' c := by
  cases c with
  | rmmod m => exact ⟨hle m h.1, h.2⟩
  | test p => exact h
  | make i => exact h
  | makeIfAbsent i => exact h
  | setPollingPeriod f => exact h
  | handleAll => exact h
  | take i => exact h

/-- A command leaves more modules loaded where more were loaded. -/
theorem LoadedAfter.mono {loaded loaded' : Module → Prop} {c : Command} {m : Module}
    (h : LoadedAfter loaded c m) (hle : ∀ m, loaded m → loaded' m) : LoadedAfter loaded' c m := by
  cases c with
  | make i => exact h.imp_left (hle m)
  | makeIfAbsent i => exact h.imp_left (hle m)
  | rmmod m' => exact ⟨hle m h.1, h.2⟩
  | test p => exact hle m h
  | setPollingPeriod f => exact hle m h
  | handleAll => exact hle m h
  | take i => exact hle m h

/-- What succeeds on the lists succeeds in the kernel, and they agree again. -/
theorem agrees_exec {fs : Configfs S} (hfs : Reliable fs) (c : Command) (s : S) (t : Tree)
    (h : Agrees fs s t) (hsucceeds : (Tree.kernel.exec c t).1 = true) :
    (fs.exec c s).1 = true ∧ Agrees fs (fs.exec c s).2 (Tree.kernel.exec c t).2 := by
  have hhas : fs.has s = (· ∈ t.items) := funext fun i => propext (h.1 i)
  rw [Tree.exec_eq] at hsucceeds ⊢
  dsimp only at hsucceeds ⊢
  have hpossible := (Tree.possible_iff t c).mp hsucceeds
  have hdone : (fs.exec c s).1 = true := by
    rw [hfs.succeeds_iff, hhas]
    exact hpossible.mono h.2
  rw [if_pos hsucceeds]
  refine ⟨hdone, fun i => ?_, fun m hm => ?_⟩
  · rw [hfs.has_exec, if_pos hdone, hhas, (Tree.after_spec t c).1]
  · rw [hfs.loaded_exec, if_pos hdone]
    exact ((Tree.after_spec t c).2 m |>.mp hm).mono h.2

/-- Where the whole script succeeds on the lists, it succeeds in the kernel. -/
theorem runScript_agrees {fs : Configfs S} (hfs : Reliable fs) {script : List (List (List Command))}
    {s : S} {t t' : Tree} (h : Agrees fs s t)
    (hrun : runAll Tree.kernel.exec script.flatten.flatten t = some t') :
    ∃ s', runScript fs.exec script s = (true, s') ∧ Agrees fs s' t' := by
  obtain ⟨s', hall, hagrees⟩ := runAll_of_model (R := Agrees fs) (agrees_exec hfs) h hrun
  exact ⟨s', runScript_of_runAll hall, hagrees⟩

/-- The scheduler is gone, but for its directory, or wholly there with its modules. -/
def Stands (fs : Configfs S) (s : S) : Bool → Prop
  | false => ∀ i, fs.has s i → i = .scheduler
  | true => (∀ i, fs.has s i) ∧ ∀ m, fs.loaded s m

/-- A start loads everything. -/
theorem start_there {fs : Configfs S} (hfs : Reliable fs) {s : S} (h : Stands fs s false) :
    (runScript fs.exec start s).1 = true ∧ Stands fs (runScript fs.exec start s).2 true := by
  have hlists (items : List Item) (hitems : items = [] ∨ items = [.scheduler]) :
      ((runAll Tree.kernel.exec start.flatten.flatten ⟨items, []⟩).any fun t =>
        (∀ i ∈ Item.all, i ∈ t.items) ∧ ∀ m ∈ Module.all, m ∈ t.loaded) = true := by
    rcases hitems with rfl | rfl
    · decide +kernel
    · decide +kernel
  have hfrom (items : List Item) (hitems : items = [] ∨ items = [.scheduler])
      (hagrees : Agrees fs s ⟨items, []⟩) :
      (runScript fs.exec start s).1 = true ∧ Stands fs (runScript fs.exec start s).2 true := by
    obtain ⟨t, hrun, hfull⟩ := (Option.any_eq_true _ _).mp (hlists items hitems)
    obtain ⟨hitem, hmodule⟩ := of_decide_eq_true hfull
    obtain ⟨s', hscript, hhas, hloaded⟩ := runScript_agrees hfs hagrees hrun
    rw [hscript]
    refine ⟨rfl, fun i => ?_, fun m => ?_⟩
    · exact (hhas i).mpr (hitem i (Item.mem_all i))
    · exact hloaded m (hmodule m (Module.mem_all m))
  by_cases hdir : fs.has s .scheduler
  · refine hfrom [.scheduler] (Or.inr rfl) ⟨fun i => ?_, fun m hm => (by cases hm)⟩
    rw [List.mem_singleton]
    exact ⟨h i, fun heq => heq ▸ hdir⟩
  · refine hfrom [] (Or.inl rfl) ⟨fun i => ?_, fun m hm => (by cases hm)⟩
    refine iff_of_false (fun hi => ?_) List.not_mem_nil
    rw [h i hi] at hi
    exact hdir hi

/-- A stop takes away what a start has loaded. -/
theorem stop_gone {fs : Configfs S} (hfs : Reliable fs) {s : S} (h : Stands fs s true) :
    (runScript fs.exec stop s).1 = true ∧ Stands fs (runScript fs.exec stop s).2 false := by
  have hlists : ((runAll Tree.kernel.exec stop.flatten.flatten ⟨Item.all, Module.all⟩).any fun t =>
      ∀ i ∈ t.items, i = .scheduler) = true := by
    decide +kernel
  have hagrees : Agrees fs s ⟨Item.all, Module.all⟩ :=
    ⟨fun i => iff_of_true (h.1 i) (Item.mem_all i), fun m _ => h.2 m⟩
  obtain ⟨t, hrun, hempty⟩ := (Option.any_eq_true _ _).mp hlists
  obtain ⟨s', hscript, hhas, -⟩ := runScript_agrees hfs hagrees hrun
  rw [hscript]
  exact ⟨rfl, fun i hi => of_decide_eq_true hempty i ((hhas i).mp hi)⟩

/-- Where the first probe is there, a start ends at its first command. -/
theorem start_blocked {fs : Configfs S} (hfs : Lawful fs) {P : S → Prop}
    (hthere : ∀ s, P s → fs.has s (.probe .user) ∧ P (fs.exec (.make (.probe .user)) s).2) {s : S}
    (h : P s) : (runScript fs.exec start s).1 = false ∧ P (runScript fs.exec start s).2 := by
  have hnothing : ∀ line ∈ ([] : List (List Command)), ∀ c ∈ line, ∀ t, P t → P (fs.exec c t).2 :=
    fun line hline => absurd hline List.not_mem_nil
  refine runScript_blocked (runFunction_blocked hnothing (fun t ht => ?_) h)
  exact ⟨hfs.not_twice t _ (hthere t ht).1, (hthere t ht).2⟩

/-- What a stop may take away before it comes to the link for the elapsed jiffies. -/
def FilterCommand (c : Command) : Prop := ∃ f, c = .take (.filterLink f) ∨ c = .take (.filter f)

/-- Where the link for the elapsed jiffies is missing, a stop ends there. -/
theorem stop_blocked {fs : Configfs S} (hfs : Lawful fs) {P : S → Prop}
    (hkeep : ∀ c, FilterCommand c → ∀ s, P s → P (fs.exec c s).2)
    (hmissing : ∀ s, P s → ¬ fs.has s (.port .processJiffies) ∧
      P (fs.exec (.take (.port .processJiffies)) s).2) {s : S} (h : P s) :
    (runScript fs.exec stop s).1 = false ∧ P (runScript fs.exec stop s).2 := by
  have hfilters : ∀ line ∈ [stopFilter .mattload, stopFilter .loadinc, stopFilter .activeTasks],
      ∀ c ∈ line, ∀ t, P t → P (fs.exec c t).2 := by
    intro line hline c hc
    refine hkeep c ?_
    simp only [List.mem_cons, List.not_mem_nil, or_false] at hline
    rcases hline with rfl | rfl | rfl
    all_goals
      simp only [stopFilter, List.mem_cons, List.not_mem_nil, or_false] at hc
      exact ⟨_, hc⟩
  refine runScript_blocked (runFunction_blocked hfilters (fun t ht => ?_) h)
  exact ⟨hfs.not_absent t _ (hmissing t ht).1, (hmissing t ht).2⟩

/-- What a call does to a scheduler that is gone or wholly there, and whether it succeeds. -/
def wholly (up : Bool) : Action → Bool × Bool
  | .start => (!up, true)
  | .stop => (up, false)
  | .other => (true, up)

/-- The outcomes of one call after the other. -/
def whollyCalls : List Action → Bool → List Bool × Bool
  | [], up => ([], up)
  | action :: rest, up =>
    let outcomes := whollyCalls rest (wholly up action).2
    ((wholly up action).1 :: outcomes.1, outcomes.2)

/-- A call in a reliable kernel does what it does to a scheduler that is gone or wholly there. -/
theorem krgRbtScheduler_wholly {fs : Configfs S} (hfs : Reliable fs) {s : S} {up : Bool}
    (h : Stands fs s up) (action : Action) :
    (krgRbtScheduler fs action s).1 = (wholly up action).1 ∧
      Stands fs (krgRbtScheduler fs action s).2 (wholly up action).2 := by
  simp only [krgRbtScheduler, hfs.mounted, Bool.true_eq_false, if_false]
  cases action with
  | other => exact ⟨rfl, h⟩
  | start =>
    cases up with
    | false => exact start_there hfs h
    | true =>
      refine start_blocked hfs.toLawful (P := fun t => Stands fs t true) (fun t ht => ?_) h
      have hfails := hfs.not_twice t _ (ht.1 (.probe .user))
      refine ⟨ht.1 _, fun i => ?_, fun m => ?_⟩
      · rw [hfs.has_exec, hfails, if_neg Bool.false_ne_true]
        exact ht.1 i
      · rw [hfs.loaded_exec, hfails, if_neg Bool.false_ne_true]
        exact ht.2 m
  | stop =>
    cases up with
    | true => exact stop_gone hfs h
    | false =>
      have htake (i : Item) (t : S) (ht : Stands fs t false) : Stands fs (fs.exec (.take i) t).2 false := by
        intro j hj
        rw [hfs.has_exec] at hj
        split at hj
        · exact ht j hj.1
        · exact ht j hj
      refine stop_blocked hfs.toLawful (P := fun t => Stands fs t false) (fun c hc t ht => ?_)
        (fun t ht => ⟨fun hlink => (by cases ht _ hlink), htake _ t ht⟩) h
      obtain ⟨f, rfl | rfl⟩ := hc
      · exact htake _ t ht
      · exact htake _ t ht

/-- With a kernel that does what can be done, the scheduler is gone or wholly there after any calls of the
script, and a start succeeds exactly when it was gone, a stop exactly when it was there. -/
theorem scheduler_wholly {fs : Configfs S} (hfs : Reliable fs) {s : S} {up : Bool}
    (h : Stands fs s up) (actions : List Action) :
    (calls fs actions s).1 = (whollyCalls actions up).1 ∧
      Stands fs (calls fs actions s).2 (whollyCalls actions up).2 := by
  induction actions generalizing s up with
  | nil => exact ⟨rfl, h⟩
  | cons action rest ih =>
    obtain ⟨hsucceeds, hstands⟩ := krgRbtScheduler_wholly hfs h action
    obtain ⟨hrest, hend⟩ := ih hstands
    refine ⟨?_, hend⟩
    rw [calls, whollyCalls, hsucceeds, hrest]

/-- The script is started twice, stopped twice and started again. -/
theorem twice_wholly :
    (calls Tree.kernel [.start, .start, .stop, .stop, .start] ⟨[], []⟩).1 =
        (whollyCalls [.start, .start, .stop, .stop, .start] false).1 ∧
      Stands Tree.kernel (calls Tree.kernel [.start, .start, .stop, .stop, .start] ⟨[], []⟩).2
        (whollyCalls [.start, .start, .stop, .stop, .start] false).2 := by
  have hgone : Stands Tree.kernel ⟨[], []⟩ false := fun i hi => absurd hi List.not_mem_nil
  exact scheduler_wholly Tree.reliable hgone _

/-- The first probe is there, and the link for the elapsed jiffies is not. -/
def HalfWay (fs : Configfs S) (s : S) : Prop :=
  fs.has s (.probe .user) ∧ ¬ fs.has s (.port .processJiffies)

/-- A call that starts or stops leaves the scheduler half-way. -/
theorem krgRbtScheduler_halfWay {fs : Configfs S} (hfs : Lawful fs) {s : S} (h : HalfWay fs s)
    {action : Action} (haction : action ≠ .other) :
    (krgRbtScheduler fs action s).1 = false ∧ HalfWay fs (krgRbtScheduler fs action s).2 := by
  have htake (i : Item) (hi : i ≠ .probe .user) (t : S) (ht : HalfWay fs t) :
      HalfWay fs (fs.exec (.take i) t).2 := by
    rw [HalfWay, hfs.has_exec, hfs.has_exec]
    split
    · exact ⟨⟨ht.1, hi.symm⟩, fun hlink => ht.2 hlink.1⟩
    · exact ht
  unfold krgRbtScheduler
  split
  · exact ⟨rfl, h⟩
  · cases action with
    | other => exact absurd rfl haction
    | start =>
      refine start_blocked hfs (P := HalfWay fs) (fun t ht => ⟨ht.1, ?_⟩) h
      have hfails := hfs.not_twice t _ ht.1
      rw [HalfWay, hfs.has_exec, hfs.has_exec, hfails]
      exact ht
    | stop =>
      refine stop_blocked hfs (P := HalfWay fs) (fun c hc t ht => ?_)
        (fun t ht => ⟨ht.2, htake _ (by decide) t ht⟩) h
      obtain ⟨f, rfl | rfl⟩ := hc
      · exact htake _ Item.noConfusion t ht
      · exact htake _ Item.noConfusion t ht

/-- Whatever the kernel refuses: once the first probe is there and the link for the elapsed jiffies is
not, as after a start that failed in between, no start and no stop ever succeeds, and this stays so. -/
theorem scheduler_stuck {fs : Configfs S} (hfs : Lawful fs) {s : S} (h : HalfWay fs s)
    (actions : List Action) (hactions : .other ∉ actions) :
    (∀ outcome ∈ (calls fs actions s).1, outcome = false) ∧ HalfWay fs (calls fs actions s).2 := by
  induction actions generalizing s with
  | nil => exact ⟨fun outcome houtcome => (by cases houtcome), h⟩
  | cons action rest ih =>
    obtain ⟨hfails, hhalf⟩ := krgRbtScheduler_halfWay hfs h (List.ne_of_not_mem_cons hactions).symm
    obtain ⟨hrest, hend⟩ := ih hhalf (List.not_mem_of_not_mem_cons hactions)
    refine ⟨fun outcome houtcome => ?_, hend⟩
    rcases List.mem_cons.mp houtcome with rfl | houtcome
    · exact hfails
    · exact hrest outcome houtcome

/-- The kernel of the lists, which refuses the probe of the load. -/
def Tree.withoutLoad : Configfs Tree where
  mounted := true
  exec c t := if c = .make (.probe .load) then (false, t) else Tree.kernel.exec c t
  has t i := i ∈ t.items
  loaded t m := m ∈ t.loaded

/-- It is lawful. -/
theorem Tree.withoutLoad_lawful : Lawful Tree.withoutLoad where
  not_twice t i h := by
    by_cases hi : Command.make i = .make (.probe .load)
    · simp [Tree.withoutLoad, hi]
    · simpa [Tree.withoutLoad, hi] using Tree.reliable.not_twice t i h
  not_absent t i h := Tree.reliable.not_absent t i h
  has_exec c t i := by
    by_cases hc : c = .make (.probe .load)
    · simp [Tree.withoutLoad, hc]
    · simp only [Tree.withoutLoad, hc, if_false]
      exact Tree.reliable.has_exec c t i

/-- A start that makes only the first probe. -/
theorem stuck_without_load :
    (∀ outcome ∈ (calls Tree.withoutLoad [.stop, .start]
        (krgRbtScheduler Tree.withoutLoad .start ⟨[], []⟩).2).1, outcome = false) ∧
      HalfWay Tree.withoutLoad (calls Tree.withoutLoad [.stop, .start]
        (krgRbtScheduler Tree.withoutLoad .start ⟨[], []⟩).2).2 := by
  have hstart : (krgRbtScheduler Tree.withoutLoad .start ⟨[], []⟩).2 =
      ⟨[.probe .user], [.probe .user]⟩ := by
    decide +kernel
  have hhalf : HalfWay Tree.withoutLoad ⟨[.probe .user], [.probe .user]⟩ :=
    ⟨List.mem_cons_self, fun hlink => (by cases List.mem_singleton.mp hlink)⟩
  exact scheduler_stuck Tree.withoutLoad_lawful (hstart ▸ hhalf) _ (by decide)

end Kerrighed.Tools.RbtScheduler
