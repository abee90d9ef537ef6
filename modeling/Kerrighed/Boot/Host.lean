import Kerrighed.Boot.Krgboot
import Kerrighed.Common.Runs
import Kerrighed.Common.Text

/-!
# The host script

At boot, the init script of a host writes its configuration into files of sysfs, where a value left
empty leaves the setting of the kernel. On the node that starts the container it then runs a helper
script, which reads the files back and turns them into options for `krgboot`.

A setting so goes through the configuration, the kernel, a text of options and a mask of flags. It
arrives unchanged: the container is isolated from a namespace exactly when the last start that
configured it said so. The settings that the script has no variable for stay those of the kernel.

The helper is expanded twice by a shell, once before it is written and once after it is read, and
`echo` stands in between. Words without special characters pass all three.
-/

namespace Kerrighed.Boot

open Kerrighed.Common

/-- The variables of the configuration file. -/
structure Configuration where
  isolateUts : List Char
  isolateMnt : List Char
  isolateNet : List Char
  isolateUser : List Char
  clusterInitHelper : List Char
  netDevices : List Char
  bootId : List Char
  deriving DecidableEq, Repr

/-- The files of sysfs that the scripts use: the settings, the helper, the network devices given so
far, and the number of the node as its file shows it. -/
structure Sysfs where
  isolate : Namespace → ℤ
  clusterInitHelper : List Char
  netDevices : List (List Char)
  nodeId : List Char

/-- What is written into a file. -/
inductive Write where
  | isolate (ns : Namespace) (v : ℤ)
  | clusterInitHelper (text : List Char)
  | netDevices (dev : List Char)
  deriving DecidableEq, Repr

/-- No word has a character that the shell or `echo` treats in its own way, and the first one is no
option. -/
def Plain (ws : List Arg) : Prop :=
  (∀ w ∈ ws, ∀ c ∈ w, isGlob c = false ∧ c ≠ '\\') ∧ ∀ w ∈ ws.head?, w.head? ≠ some '-'

instance (ws : List Arg) : Decidable (Plain ws) :=
  decidable_of_iff ((ws.all fun w => w.all fun c => !isGlob c && c != '\\') = true ∧
    ∀ w ∈ ws.head?, w.head? ≠ some '-') (by simp [Plain])

/-- What `echo` writes for some words before the end of its line: plain ones with a blank between
them. -/
structure Echo where
  writes : List Arg → List Char
  plain {ws : List Arg} : Plain ws → writes ws = [' '].intercalate ws

/-- What the scripts do not decide themselves: which writes the kernel refuses, which files can be
executed and which ones match a pattern, what `echo` writes, what `krgboot` finds, and the exit
status of a helper that it executes. -/
structure Host where
  refuses : Write → Bool
  executable : List Char → Bool
  glob : List Char → List Arg
  echo : Echo
  kernel : Kernel
  helper : List Arg → ℤ

/-- A write that the kernel does not refuse. -/
def Sysfs.put (sys : Sysfs) : Write → Sysfs
  | .isolate ns v => { sys with isolate := Function.update sys.isolate ns v }
  | .clusterInitHelper text => { sys with clusterInitHelper := text }
  | .netDevices dev => { sys with netDevices := sys.netDevices ++ [dev] }

/-- Write into a file: whether the command succeeds, and the files. -/
def write (host : Host) (w : Write) (sys : Sysfs) : Bool × Sysfs :=
  if host.refuses w then (false, sys) else (true, sys.put w)

/-- `first || return 1`, and then the next command. -/
def andThen (first next : Sysfs → Bool × Sysfs) (sys : Sysfs) : Bool × Sysfs :=
  let r := first sys
  if r.1 then next r.2 else (false, r.2)

/-- Write the setting for a namespace, if there is one. -/
def dSetIsolateNs (host : Host) (value : List Char) (ns : Namespace) (sys : Sysfs) : Bool × Sysfs :=
  if value = "true".toList then write host (.isolate ns 1) sys
  else if value = "false".toList then write host (.isolate ns 0) sys
  else if value = [] then (true, sys)
  else (false, sys)

/-- What `echo` writes for the value of an unquoted variable. -/
def Host.echoes (host : Host) (value : List Char) : List Char :=
  host.echo.writes (expand host.glob value)

/-- Write the helper. Of an empty text nothing is written. -/
def setHelper (host : Host) (value : List Char) (sys : Sysfs) : Bool × Sysfs :=
  if host.echoes value = [] then (true, sys)
  else write host (.clusterInitHelper (host.echoes value)) sys

/-- The loop over the network devices. -/
def setDevices (host : Host) : List (List Char) → Sysfs → Bool × Sysfs
  | [], sys => (true, sys)
  | dev :: rest, sys =>
    andThen (write host (.netDevices (host.echoes dev))) (setDevices host rest) sys

/-- The settings that a start writes. -/
def setUp (host : Host) (cfg : Configuration) : Sysfs → Bool × Sysfs :=
  andThen (dSetIsolateNs host cfg.isolateUts .uts) <|
  andThen (dSetIsolateNs host cfg.isolateMnt .mnt) <|
  andThen (dSetIsolateNs host cfg.isolateNet .net) <|
  andThen (dSetIsolateNs host cfg.isolateUser .user) <|
  andThen (setHelper host cfg.clusterInitHelper) <|
  setDevices host (expand host.glob cfg.netDevices)

/-- The text of the options, extended for each setting that is not 0. -/
def nsArgs (sys : Sysfs) : List Char :=
  Namespace.all.foldl
    (fun args ns => if sys.isolate ns ≠ 0 then args ++ [' ', '-', ns.letter] else args) []

/-- The arguments with which the helper script executes `krgboot`, unless it stops with an error. -/
def krgbootHelper (host : Host) (krgbootPath : List Char) (sys : Sysfs) : Option (List Arg) :=
  if host.executable krgbootPath = false then none
  else
    let helper := commandOutput sys.clusterInitHelper
    if helper = [] then none
    else if host.executable helper = false then none
    else some (expand host.glob (nsArgs sys) ++ "--".toList :: expand host.glob helper)

/-- The exit status of the helper script. -/
def Ending.status (host : Host) : Ending → ℤ
  | .exit status => status
  | .cloned _ _ => 0
  | .executed argv => host.helper argv

/-- The end of a start: whether the script reports success, the files, and how `krgboot` ended if it
was executed. -/
structure Started where
  ok : Bool
  sys : Sysfs
  container : Option Ending

/-- A start of the host. -/
def dStart (host : Host) (krgbootPath : List Char) (cfg : Configuration) (sys : Sysfs) : Started :=
  let r := setUp host cfg sys
  if r.1 = false then ⟨false, r.2, none⟩
  else if commandOutput r.2.nodeId = cfg.bootId then
    match krgbootHelper host krgbootPath r.2 with
    | none => ⟨false, r.2, none⟩
    | some argv =>
      let ending := krgboot host.kernel argv
      ⟨decide (ending.status host = 0), r.2, some ending⟩
  else ⟨true, r.2, none⟩

/-- What a value of the configuration says about a namespace. -/
def settingOf (value : List Char) : Option ℤ :=
  if value = "true".toList then some 1 else if value = "false".toList then some 0 else none

/-- What a configuration says about a namespace. Of two kinds it does not speak. -/
def Configuration.setting (cfg : Configuration) : Namespace → Option ℤ
  | .uts => settingOf cfg.isolateUts
  | .mnt => settingOf cfg.isolateMnt
  | .net => settingOf cfg.isolateNet
  | .user => settingOf cfg.isolateUser
  | .ipc => none
  | .pid => none

/-- The setting for a namespace after some configurations, the last of which that speaks of it
counts. -/
def lastSetting (cfgs : List Configuration) (ns : Namespace) (v : ℤ) : ℤ :=
  cfgs.foldl (fun v cfg => (cfg.setting ns).getD v) v

/-- The words of the helper that the kernel knows. -/
def Sysfs.helperWords (sys : Sysfs) : List Arg := words isIfs (commandOutput sys.clusterInitHelper)

/-- The words that the helper script makes of the helper that the kernel knows. -/
def Sysfs.helperArgs (host : Host) (sys : Sysfs) : List Arg :=
  expand host.glob (commandOutput sys.clusterInitHelper)

/-- The text of the helper after some starts, the last of which that writes one counts. -/
def lastText (starts : List (Host × Configuration)) (text : List Char) : List Char :=
  starts.foldl
    (fun text start =>
      if start.1.echoes start.2.clusterInitHelper = [] then text
      else start.1.echoes start.2.clusterInitHelper)
    text

/-- The helper after some configurations, the last of which that names one counts. -/
def lastHelper (cfgs : List Configuration) (helper : List Arg) : List Arg :=
  cfgs.foldl
    (fun helper cfg =>
      if words isIfs cfg.clusterInitHelper = [] then helper else words isIfs cfg.clusterInitHelper)
    helper

/-- One start of the host, with what it finds and the configuration that it reads. -/
def startStep (krgbootPath : List Char) (sys : Sysfs) (start : Host × Configuration) :
    Option Sysfs :=
  some (dStart start.1 krgbootPath start.2 sys).sys

/-- The start writes all its settings. -/
def WritesSettings (sys : Sysfs) (start : Host × Configuration) : Prop :=
  (setUp start.1 start.2 sys).1 = true

instance (sys : Sysfs) (start : Host × Configuration) : Decidable (WritesSettings sys start) :=
  inferInstanceAs (Decidable (_ = _))

/-- Writing a setting changes it and no other. -/
theorem isolate_put (sys : Sysfs) (ns other : Namespace) (v : ℤ) :
    (sys.put (.isolate ns v)).isolate other = if other = ns then v else sys.isolate other :=
  Function.update_apply sys.isolate ns v other

/-- A sequence of commands succeeds when each of them does. -/
theorem andThen_ok {first next : Sysfs → Bool × Sysfs} {sys : Sysfs}
    (h : (andThen first next sys).1 = true) :
    (first sys).1 = true ∧ (next (first sys).2).1 = true ∧
      (andThen first next sys).2 = (next (first sys).2).2 := by
  simp only [andThen] at h ⊢
  split at h
  · rename_i hfirst
    exact ⟨hfirst, h, by rw [if_pos hfirst]⟩
  · cases h

/-- A write that succeeds has written. -/
theorem write_ok {host : Host} {w : Write} {sys : Sysfs} (h : (write host w sys).1 = true) :
    (write host w sys).2 = sys.put w := by
  simp only [write] at h ⊢
  split at h
  · cases h
  · rename_i hrefused
    rw [if_neg hrefused]

/-- A setting that is written is what the value says. -/
theorem dSetIsolateNs_ok {host : Host} {value : List Char} {ns : Namespace} {sys : Sysfs}
    (h : (dSetIsolateNs host value ns sys).1 = true) :
    (dSetIsolateNs host value ns sys).2 =
      sys.put (.isolate ns ((settingOf value).getD (sys.isolate ns))) := by
  simp only [dSetIsolateNs, settingOf] at h ⊢
  split at h
  · rename_i htrue
    rw [if_pos htrue, if_pos htrue, write_ok h]
    rfl
  · rename_i htrue
    rw [if_neg htrue, if_neg htrue]
    split at h
    · rename_i hfalse
      rw [if_pos hfalse, if_pos hfalse, write_ok h]
      rfl
    · rename_i hfalse
      rw [if_neg hfalse, if_neg hfalse]
      split at h
      · rename_i hempty
        rw [if_pos hempty, Option.getD_none, Sysfs.put, Function.update_eq_self]
      · cases h

/-- Network devices are no settings. -/
theorem setDevices_isolate {host : Host} {devices : List (List Char)} {sys : Sysfs}
    (h : (setDevices host devices sys).1 = true) :
    (setDevices host devices sys).2.isolate = sys.isolate := by
  induction devices generalizing sys with
  | nil => rfl
  | cons dev rest ih =>
    obtain ⟨hfirst, hrest, heq⟩ := andThen_ok h
    rw [setDevices, heq, ih hrest, write_ok hfirst]
    rfl

/-- The helper is no setting. -/
theorem setHelper_isolate {host : Host} {value : List Char} {sys : Sysfs}
    (h : (setHelper host value sys).1 = true) :
    (setHelper host value sys).2.isolate = sys.isolate := by
  simp only [setHelper] at h ⊢
  split at h
  · rename_i hempty
    rw [if_pos hempty]
  · rename_i hempty
    rw [if_neg hempty, write_ok h]
    rfl

/-- After a start that has written its settings, each namespace has the setting of the configuration,
or the one it had. -/
theorem setUp_isolate {host : Host} {cfg : Configuration} {sys : Sysfs}
    (h : (setUp host cfg sys).1 = true) (ns : Namespace) :
    (setUp host cfg sys).2.isolate ns = (cfg.setting ns).getD (sys.isolate ns) := by
  rw [setUp] at h ⊢
  obtain ⟨huts, h, heq⟩ := andThen_ok h
  obtain ⟨hmnt, h, hmore⟩ := andThen_ok h
  obtain ⟨hnet, h, hthird⟩ := andThen_ok h
  obtain ⟨huser, h, hfourth⟩ := andThen_ok h
  obtain ⟨hhelper, h, hlast⟩ := andThen_ok h
  rw [heq, hmore, hthird, hfourth, hlast, setDevices_isolate h, setHelper_isolate hhelper,
    dSetIsolateNs_ok huser, dSetIsolateNs_ok hnet, dSetIsolateNs_ok hmnt, dSetIsolateNs_ok huts]
  cases ns <;> simp [Configuration.setting, isolate_put]

/-- The options are those of the namespaces whose setting is not 0. -/
theorem nsArgs_eq (sys : Sysfs) :
    nsArgs sys = prepended ' ' ((Namespace.all.filter fun ns => sys.isolate ns ≠ 0).map
      fun ns => ['-', ns.letter]) := by
  have hfold (namespaces : List Namespace) (args : List Char) :
      namespaces.foldl (fun args ns =>
          if sys.isolate ns ≠ 0 then args ++ [' ', '-', ns.letter] else args) args =
        args ++ prepended ' ' ((namespaces.filter fun ns => sys.isolate ns ≠ 0).map
          fun ns => ['-', ns.letter]) := by
    induction namespaces generalizing args with
    | nil => simp [prepended]
    | cons ns rest ih =>
      rw [List.foldl_cons, ih]
      by_cases hns : sys.isolate ns = 0
      · simp [hns]
      · simp [hns, prepended]
  exact hfold Namespace.all []

/-- The arguments of `krgboot` are the options of the namespaces whose setting is not 0, and behind
`--` the words of the helper. -/
theorem krgbootHelper_eq {host : Host} {krgbootPath : List Char} {sys : Sysfs} {argv : List Arg}
    (h : krgbootHelper host krgbootPath sys = some argv) :
    argv = (Namespace.all.filter fun ns => sys.isolate ns ≠ 0).map (fun ns => ['-', ns.letter]) ++
      "--".toList :: sys.helperArgs host := by
  have hplain (ns : Namespace) : ∀ c ∈ ['-', ns.letter], isIfs c = false ∧ isGlob c = false := by
    cases ns <;> simp [isIfs, isGlob, Namespace.letter]
  have hwords : words isIfs (nsArgs sys) =
      (Namespace.all.filter fun ns => sys.isolate ns ≠ 0).map fun ns => ['-', ns.letter] := by
    rw [nsArgs_eq]
    refine words_prepended rfl (fun w hw => ?_) fun w hw c hc => ?_
    · obtain ⟨ns, -, rfl⟩ := List.mem_map.mp hw
      simp
    · obtain ⟨ns, -, rfl⟩ := List.mem_map.mp hw
      exact (hplain ns c hc).1
  have hargs : expand host.glob (nsArgs sys) =
      (Namespace.all.filter fun ns => sys.isolate ns ≠ 0).map fun ns => ['-', ns.letter] := by
    rw [expand_of_plain host.glob fun w hw c hc => ?_, hwords]
    rw [hwords] at hw
    obtain ⟨ns, -, rfl⟩ := List.mem_map.mp hw
    exact (hplain ns c hc).2
  simp only [krgbootHelper] at h
  split at h
  · cases h
  · split at h
    · cases h
    · split at h
      · cases h
      · rw [← Option.some.inj h, hargs]
        rfl

/-- How the container is started: isolated from exactly the namespaces whose setting is not 0, unless
the kernel does not let it or there is no helper. -/
theorem krgboot_of_helper {host : Host} {krgbootPath : List Char} {sys : Sysfs} {argv : List Arg}
    (h : krgbootHelper host krgbootPath sys = some argv) :
    (krgboot host.kernel argv = .exit 1 ∧ (sys.helperArgs host = [] ∨ ¬ host.kernel.Allows ∨
        (∀ ns, sys.isolate ns = 0) ∧ host.kernel.execvp (sys.helperArgs host) = false)) ∨
      (krgboot host.kernel argv = .executed (sys.helperArgs host) ∧ ∀ ns, sys.isolate ns = 0) ∨
      ∃ flags, krgboot host.kernel argv =
          .cloned flags (doExecHelper host.kernel (sys.helperArgs host)) ∧
        (∃ ns, sys.isolate ns ≠ 0) ∧ ∀ ns, isolated flags ns = decide (sys.isolate ns ≠ 0) := by
  obtain ⟨flags, hconfig, hflags, hempty⟩ :=
    getConfig_letters (Namespace.all.filter fun ns => sys.isolate ns ≠ 0) (sys.helperArgs host)
  rw [krgbootHelper_eq h]
  have hset (ns : Namespace) : isolated flags ns = decide (sys.isolate ns ≠ 0) := by
    have hall : ns ∈ Namespace.all := by cases ns <;> decide
    rw [hflags, decide_eq_decide, List.mem_filter]
    simp [hall]
  simp only [krgboot, hconfig]
  by_cases hhelper : sys.helperArgs host = []
  · exact Or.inl ⟨by rw [if_pos hhelper], Or.inl hhelper⟩
  · rw [if_neg hhelper]
    by_cases hhotplug : host.kernel.krgCheckHotplug = 0
    · exact Or.inl ⟨by rw [if_pos hhotplug], .inr (.inl fun hallows => hallows.1 hhotplug)⟩
    · rw [if_neg hhotplug]
      by_cases hcontainer : host.kernel.krgCheckContainer = 0
      · exact Or.inl ⟨by rw [if_pos hcontainer], .inr (.inl fun hallows => hallows.2.1 hcontainer)⟩
      · rw [if_neg hcontainer]
        by_cases hcreator : host.kernel.krgSetClusterCreator = 0
        · rw [if_neg (not_not.mpr hcreator)]
          by_cases hzero : flags = 0
          · have hnone (ns : Namespace) : sys.isolate ns = 0 := by
              have hns := hset ns
              rw [hzero, isolated, Nat.zero_testBit] at hns
              simpa using hns.symm
            rw [if_neg (not_not.mpr hzero), doExecHelper]
            by_cases hexec : host.kernel.execvp (sys.helperArgs host) = true
            · exact Or.inr (Or.inl ⟨if_pos hexec, hnone⟩)
            · exact Or.inl ⟨if_neg hexec, .inr (.inr ⟨hnone, by simpa using hexec⟩)⟩
          · rw [if_pos hzero]
            by_cases hclone : host.kernel.clone < 0
            · exact Or.inl ⟨by rw [if_pos hclone], .inr (.inl fun hallows => by
                have hge := hallows.2.2.2
                omega)⟩
            · rw [if_neg hclone]
              refine Or.inr (Or.inr ⟨_, rfl, ?_, fun ns => by rw [isolated_sigchld, hset]⟩)
              by_contra hnone
              refine hzero (hempty (List.filter_eq_nil_iff.mpr fun ns _ => ?_))
              simpa using not_exists.mp hnone ns
        · exact Or.inl ⟨by rw [if_pos hcreator], .inr (.inl fun hallows => hcreator hallows.2.2.1)⟩

/-- The shell leaves a text without newlines as it is. -/
theorem commandOutput_of_notMem {text : List Char} (htext : '\n' ∉ text) :
    commandOutput text = text := by
  rw [commandOutput, List.rdropWhile_eq_self_iff]
  intro hne hlast
  exact htext (of_decide_eq_true hlast ▸ List.getLast_mem hne)

/-- Network devices are no helper. -/
theorem setDevices_helper {host : Host} {devices : List (List Char)} {sys : Sysfs}
    (h : (setDevices host devices sys).1 = true) :
    (setDevices host devices sys).2.clusterInitHelper = sys.clusterInitHelper := by
  induction devices generalizing sys with
  | nil => rfl
  | cons dev rest ih =>
    obtain ⟨hfirst, hrest, heq⟩ := andThen_ok h
    rw [setDevices, heq, ih hrest, write_ok hfirst]
    rfl

/-- A helper that is written is what `echo` writes for the value. -/
theorem setHelper_text {host : Host} {value : List Char} {sys : Sysfs}
    (h : (setHelper host value sys).1 = true) :
    (setHelper host value sys).2.clusterInitHelper =
      if host.echoes value = [] then sys.clusterInitHelper else host.echoes value := by
  rw [setHelper] at h ⊢
  split at h
  · rename_i hempty
    rw [if_pos hempty, if_pos hempty]
  · rename_i hne
    rw [if_neg hne, if_neg hne, write_ok h]
    rfl

/-- After a start that has written its settings, the helper is the one it has written, or the one that
was there. -/
theorem setUp_helper {host : Host} {cfg : Configuration} {sys : Sysfs}
    (h : (setUp host cfg sys).1 = true) :
    (setUp host cfg sys).2.clusterInitHelper = lastText [(host, cfg)] sys.clusterInitHelper := by
  have hkeep {value : List Char} {ns : Namespace} {sys : Sysfs}
      (hset : (dSetIsolateNs host value ns sys).1 = true) :
      (dSetIsolateNs host value ns sys).2.clusterInitHelper = sys.clusterInitHelper := by
    rw [dSetIsolateNs_ok hset]
    rfl
  rw [setUp] at h ⊢
  obtain ⟨huts, h, heq⟩ := andThen_ok h
  obtain ⟨hmnt, h, hmore⟩ := andThen_ok h
  obtain ⟨hnet, h, hthird⟩ := andThen_ok h
  obtain ⟨huser, h, hfourth⟩ := andThen_ok h
  obtain ⟨hhelper, h, hlast⟩ := andThen_ok h
  rw [heq, hmore, hthird, hfourth, hlast, setDevices_helper h, setHelper_text hhelper, hkeep huser,
    hkeep hnet, hkeep hmnt, hkeep huts]
  rfl

/-- A start leaves the files as its settings have made them. -/
theorem dStart_sys (host : Host) (krgbootPath : List Char) (cfg : Configuration) (sys : Sysfs) :
    (dStart host krgbootPath cfg sys).sys = (setUp host cfg sys).2 := by
  simp only [dStart]
  split
  · rfl
  · split
    · cases krgbootHelper host krgbootPath (setUp host cfg sys).2 <;> rfl
    · rfl

/-- After starts that have written their settings, each namespace and the helper are as the last of
them that speaks of it says. -/
theorem settings_of_starts {krgbootPath : List Char} {sys sys' : Sysfs}
    {starts : List (Host × Configuration)} (hrun : run (startStep krgbootPath) sys starts = some sys')
    (halong : Along (startStep krgbootPath) WritesSettings sys starts) :
    (∀ ns, sys'.isolate ns = lastSetting (starts.map Prod.snd) ns (sys.isolate ns)) ∧
      sys'.clusterInitHelper = lastText starts sys.clusterInitHelper := by
  induction starts generalizing sys with
  | nil =>
    obtain rfl := Option.some.inj hrun
    exact ⟨fun ns => rfl, rfl⟩
  | cons start rest ih =>
    obtain ⟨hwrites, hrest⟩ := (along_cons rfl).mp halong
    obtain ⟨hisolate, hhelper⟩ := ih hrun hrest
    rw [dStart_sys] at hisolate hhelper
    refine ⟨fun ns => ?_, ?_⟩
    · rw [hisolate, setUp_isolate hwrites]
      rfl
    · rw [hhelper, setUp_helper hwrites]
      rfl

/-- Plain words come back from what `echo` writes for them. -/
theorem words_echoes (host : Host) {value : List Char} (h : Plain (words isIfs value)) :
    (host.echoes value = [] ↔ words isIfs value = []) ∧
      words isIfs (commandOutput (host.echoes value)) = words isIfs value := by
  have htext : host.echoes value = [' '].intercalate (words isIfs value) := by
    rw [Host.echoes, expand_of_plain host.glob fun w hw c hc => (h.1 w hw c hc).1, host.echo.plain h]
  have hblank : isIfs ' ' = true := rfl
  have hback := words_intercalate hblank value
  have hnewline : '\n' ∉ [' '].intercalate (words isIfs value) := by
    refine notMem_intercalate (by decide) fun w hw hmem => ?_
    exact absurd (blank_of_mem_words hw hmem) (by decide)
  rw [htext, commandOutput_of_notMem hnewline]
  refine ⟨⟨fun hempty => ?_, fun hnone => ?_⟩, hback⟩
  · rw [← hback, hempty, words_nil]
  · rw [hnone]
    rfl

/-- Where all helpers are plain, the words of the last text are those of the helper named last, and
they are plain. -/
theorem words_lastText {starts : List (Host × Configuration)} {text : List Char}
    (htext : Plain (words isIfs (commandOutput text)))
    (hstarts : ∀ start ∈ starts, Plain (words isIfs start.2.clusterInitHelper)) :
    words isIfs (commandOutput (lastText starts text)) =
        lastHelper (starts.map Prod.snd) (words isIfs (commandOutput text)) ∧
      Plain (words isIfs (commandOutput (lastText starts text))) := by
  induction starts generalizing text with
  | nil => exact ⟨rfl, htext⟩
  | cons start rest ih =>
    obtain ⟨hstart, hrest⟩ := List.forall_mem_cons.mp hstarts
    obtain ⟨hempty, hback⟩ := words_echoes start.1 hstart
    change words isIfs (commandOutput (lastText rest (if _ then _ else _))) =
        lastHelper (rest.map Prod.snd) (if _ then _ else _) ∧
      Plain (words isIfs (commandOutput (lastText rest (if _ then _ else _))))
    by_cases hnone : words isIfs start.2.clusterInitHelper = []
    · rw [if_pos (hempty.mpr hnone), if_pos hnone]
      exact ih htext hrest
    · rw [if_neg (mt hempty.mp hnone), if_neg hnone, ← hback]
      exact ih (by rwa [hback]) hrest

/-- The helper is plain wherever it is named, and before. -/
def PlainHelpers (starts : List (Host × Configuration)) (sys : Sysfs) : Prop :=
  Plain sys.helperWords ∧ ∀ start ∈ starts, Plain (words isIfs start.2.clusterInitHelper)

instance (starts : List (Host × Configuration)) (sys : Sysfs) : Decidable (PlainHelpers starts sys) :=
  decidable_of_iff (Plain sys.helperWords ∧
    (starts.all fun start => decide (Plain (words isIfs start.2.clusterInitHelper))) = true)
    (by simp [PlainHelpers])

/-- After any number of starts that have written their settings, the one that starts the container
clones it with the flags of exactly those namespaces for which the last configuration that speaks of
them says so, or the kernel where none does. Without such a namespace the helper is executed, and
`krgboot` fails only where there is no helper, the kernel does not allow a container, or the helper
cannot be executed. The helper is what the shell makes of the text written last, and where no helper
has special characters it is the one named last, word for word. -/
theorem container_isolation {krgbootPath : List Char} {sys sys' : Sysfs}
    {starts : List (Host × Configuration)} (hrun : run (startStep krgbootPath) sys starts = some sys')
    (halong : Along (startStep krgbootPath) WritesSettings sys starts) {host : Host}
    {cfg : Configuration} {ending : Ending}
    (h : (dStart host krgbootPath cfg sys').container = some ending) :
    ∃ helper, helper = expand host.glob
        (commandOutput (lastText (starts ++ [(host, cfg)]) sys.clusterInitHelper)) ∧
      (PlainHelpers (starts ++ [(host, cfg)]) sys →
        helper = lastHelper (starts.map Prod.snd ++ [cfg]) sys.helperWords) ∧
      ((ending = .exit 1 ∧ (helper = [] ∨ ¬ host.kernel.Allows ∨
          (∀ ns, lastSetting (starts.map Prod.snd ++ [cfg]) ns (sys.isolate ns) = 0) ∧
            host.kernel.execvp helper = false)) ∨
        (ending = .executed helper ∧
          ∀ ns, lastSetting (starts.map Prod.snd ++ [cfg]) ns (sys.isolate ns) = 0) ∨
        ∃ flags, ending = .cloned flags (doExecHelper host.kernel helper) ∧
          (∃ ns, lastSetting (starts.map Prod.snd ++ [cfg]) ns (sys.isolate ns) ≠ 0) ∧
          ∀ ns, isolated flags ns =
            decide (lastSetting (starts.map Prod.snd ++ [cfg]) ns (sys.isolate ns) ≠ 0)) := by
  obtain ⟨hisolate, hhelper⟩ := settings_of_starts hrun halong
  refine ⟨_, rfl, fun hplain => ?_, ?_⟩
  · obtain ⟨hlast, hwords⟩ := words_lastText hplain.1 hplain.2
    rw [expand_of_plain host.glob fun w hw c hc => (hwords.1 w hw c hc).1, hlast, List.map_append]
    rfl
  · simp only [dStart] at h
    split at h
    · cases h
    · rename_i hwritten
      have hwrites : (setUp host cfg sys').1 = true := by simpa using hwritten
      split at h
      · cases hargv : krgbootHelper host krgbootPath (setUp host cfg sys').2 with
        | none => simp [hargv] at h
        | some argv =>
          simp only [hargv, Option.some.injEq] at h
          obtain rfl := h
          have hsetting (ns : Namespace) : (setUp host cfg sys').2.isolate ns =
              lastSetting (starts.map Prod.snd ++ [cfg]) ns (sys.isolate ns) := by
            rw [setUp_isolate hwrites, hisolate, lastSetting, lastSetting, List.foldl_append]
            rfl
          have hargs : (setUp host cfg sys').2.helperArgs host = expand host.glob
              (commandOutput (lastText (starts ++ [(host, cfg)]) sys.clusterInitHelper)) := by
            rw [Sysfs.helperArgs, setUp_helper hwrites, hhelper, lastText, lastText, lastText,
              List.foldl_append]
          have hends := krgboot_of_helper hargv
          simp only [hsetting, hargs] at hends
          exact hends
      · cases h

/-- A host where nothing fails. -/
def plainHost : Host where
  refuses _ := false
  executable _ := true
  glob _ := []
  echo := ⟨fun ws => [' '].intercalate ws, fun _ => rfl⟩
  kernel := ⟨-1, -1, 0, 100, fun _ => true⟩
  helper _ := 0

/-- A configuration that isolates from two kinds of namespaces and starts no container. -/
def firstConfiguration : Configuration :=
  ⟨"true".toList, "true".toList, [], [], "/sbin/krginit_helper".toList, "ALL".toList, "-1".toList⟩

/-- A configuration that takes one of them back, and starts the container on node 0. -/
def secondConfiguration : Configuration :=
  ⟨[], "false".toList, [], [], [], [], "0".toList⟩

/-- The container is isolated from the one that was not taken back, and runs the helper. -/
theorem second_start_isolates :
    ∃ flags, (dStart plainHost "/sbin/krgboot".toList secondConfiguration
        (dStart plainHost "/sbin/krgboot".toList firstConfiguration
          ⟨fun _ => 0, [], [], "0\n".toList⟩).sys).container =
        some (.cloned flags (.executed ["/sbin/krginit_helper".toList])) ∧
      ∀ ns, isolated flags ns = decide (ns = .uts) := by
  have hcontainer : (dStart plainHost "/sbin/krgboot".toList secondConfiguration
      (dStart plainHost "/sbin/krgboot".toList firstConfiguration
        ⟨fun _ => 0, [], [], "0\n".toList⟩).sys).container =
      some (.cloned (2 ^ 26 ||| sigchld) (.executed ["/sbin/krginit_helper".toList])) := by
    decide
  have halong : Along (startStep "/sbin/krgboot".toList) WritesSettings
      ⟨fun _ => 0, [], [], "0\n".toList⟩ [(plainHost, firstConfiguration)] := by
    decide
  obtain ⟨helper, -, hplain, ⟨hexit, -⟩ | ⟨hexecuted, -⟩ | ⟨flags, hcloned, -, hflags⟩⟩ :=
    container_isolation rfl halong hcontainer
  · contradiction
  · contradiction
  · obtain ⟨rfl, -⟩ := Ending.cloned.inj hcloned
    obtain rfl := hplain (by decide)
    refine ⟨_, hcontainer, fun ns => ?_⟩
    rw [hflags]
    cases ns <;> decide

end Kerrighed.Boot
