import Kerrighed.Tools.CheckpointMain

/-!
# Options that exclude each other

The manual of the checkpoint tool declares the options that freeze, that checkpoint only, that
unfreeze and that send a signal mutually exclusive. The tool does not look for two of them: the
last of the first three picks the mode, and a signal is kept for a mode that may not use it.

A command line with two of the options is therefore refused only for some other reason.
-/

namespace Kerrighed.Tools.Checkpoint

open Kerrighed.Common

/-- `--freeze`, `--ckpt-only`, `--unfreeze` and `--kill`. -/
def modeOptions : List Char := ['f', 'c', 'u', 'k']

/-- Two different of the options that exclude each other are given. -/
def Contradictory (options : List (Char × Option Arg)) : Prop :=
  ∃ a ∈ options, ∃ b ∈ options, a.1 ≠ b.1 ∧ a.1 ∈ modeOptions ∧ b.1 ∈ modeOptions

instance : DecidablePred Contradictory := fun options =>
  inferInstanceAs (Decidable (∃ a ∈ options, ∃ b ∈ options, _))

/-- Neither the help nor the version is asked for. -/
def Plain (options : List (Char × Option Arg)) : Prop := ∀ o ∈ options, o.1 ≠ 'h' ∧ o.1 ≠ 'v'

instance : DecidablePred Plain := fun options => inferInstanceAs (Decidable (∀ o ∈ options, _))

/-- No freeze, checkpoint or unfreeze request is made and the tool fails. -/
def Refused (r : ℤ × Progress) : Prop :=
  r.1 ≠ 0 ∧ ∀ service info, .service service info ∉ r.2.requests

/-- The mode after one more option. -/
def modeAfter (action : AppAction) (o : Char × Option Arg) : AppAction :=
  match o.1 with
  | 'c' => .checkpoint
  | 'f' => .freeze
  | 'u' => .unfreeze
  | _ => action

/-- The mode that the options pick: that of the last one that picks any. -/
def pickedMode (options : List (Char × Option Arg)) : AppAction := options.foldl modeAfter .all

/-- The globals that the options set. -/
def givenGlobals (options : List (Char × Option Arg)) : Globals where
  fromAppid := options.any (·.1 = 'a')
  noCallbacks := options.any (·.1 = 'b')
  action := pickedMode options

/-- A single mode ends before its kernel request: a signal has come, or its callback round fails. -/
def ModeStops (g : Globals) (env : Environment) (pid : ℤ) : Prop :=
  env.interruptAt = some 0 ∨
    match g.action with
    | .freeze => roundPasses g env (.chkptCallbacks pid g.fromAppid) = false
    | .unfreeze => roundPasses g env (.continueCallbacks pid g.fromAppid) = false
    | _ => False

/-- The tool ends before its first kernel request for a reason other than the options that exclude
each other: getopt finds an error, there is not exactly one operand, the environment is missing,
the operand is below 2, or the mode stops. -/
def StopsEarly (env : Environment) (checkEnvironment : Bool) (argv : List Arg) : Prop :=
  let parsed := getoptLong longOptions argv
  parsed.failed = true ∨ checkEnvironment = false ∨
    ∀ operand, parsed.operands = [operand] →
      atol operand < 2 ∨ ModeStops (givenGlobals parsed.options) env (atol operand)

/-- What one option does to the globals. -/
def globalsAfter (g : Globals) (o : Char × Option Arg) : Globals where
  fromAppid := g.fromAppid || o.1 = 'a'
  noCallbacks := g.noCallbacks || o.1 = 'b'
  action := modeAfter g.action o

/-- A known option other than help and version is accepted. -/
theorem applyOption_ok {o : Char × Option Arg} (hknown : longOptions.Knows o.1)
    (hplain : o.1 ≠ 'h' ∧ o.1 ≠ 'v') (args : Args) :
    ∃ args', applyOption args o = .ok args' ∧ args'.globals = globalsAfter args.globals o := by
  obtain ⟨c, optarg⟩ := o
  have hkinds : c = 'h' ∨ c = 'q' ∨ c = 'a' ∨ c = 'c' ∨ c = 'd' ∨ c = 'b' ∨ c = 'f' ∨ c = 'u' ∨
      c = 'k' ∨ c = 'i' ∨ c = 'v' := by
    simp only [OptTable.Knows, longOptions, List.mem_cons, List.not_mem_nil, or_false,
      Prod.mk.injEq, exists_or, exists_and_left, exists_eq, and_true, exists_eq_or_imp,
      exists_eq_left] at hknown
    grind
  rcases hkinds with rfl | rfl | rfl | rfl | rfl | rfl | rfl | rfl | rfl | rfl | rfl
  case inl => simp at hplain
  case inr.inr.inr.inr.inr.inr.inr.inr.inr.inr => simp at hplain
  all_goals exact ⟨_, rfl, by simp [globalsAfter, modeAfter]⟩

/-- The globals after all options. -/
theorem foldl_globalsAfter (options : List (Char × Option Arg)) (g : Globals) :
    options.foldl globalsAfter g =
      ⟨g.fromAppid || options.any (·.1 = 'a'), g.noCallbacks || options.any (·.1 = 'b'),
        options.foldl modeAfter g.action⟩ := by
  induction options generalizing g with
  | nil => simp
  | cons o options ih => simp [ih, globalsAfter, Bool.or_assoc]

/-- Known options other than help and version are accepted. -/
theorem foldlM_applyOption {options : List (Char × Option Arg)}
    (hknown : ∀ o ∈ options, longOptions.Knows o.1) (hplain : Plain options) (args : Args) :
    ∃ args', options.foldlM applyOption args = .ok args' ∧
      args'.globals = options.foldl globalsAfter args.globals := by
  induction options generalizing args with
  | nil => exact ⟨args, rfl, rfl⟩
  | cons o options ih =>
    obtain ⟨next, hnext, hglobals⟩ :=
      applyOption_ok (hknown o List.mem_cons_self) (hplain o List.mem_cons_self) args
    obtain ⟨last, hlast, hlastGlobals⟩ := ih (fun o ho => hknown o (List.mem_cons_of_mem _ ho))
      (fun o ho => hplain o (List.mem_cons_of_mem _ ho)) next
    refine ⟨last, ?_, ?_⟩
    · rw [List.foldlM_cons, hnext]
      exact hlast
    · rw [hlastGlobals, hglobals, List.foldl_cons]

/-- A command line without help and version is rejected with a failure, or read. -/
theorem parseArgs_of_plain {argv : List Arg} (hplain : Plain (getoptLong longOptions argv).options) :
    parseArgs argv = .error 1 ∧ ((getoptLong longOptions argv).failed = true ∨
        ∀ operand, (getoptLong longOptions argv).operands ≠ [operand]) ∨
      ∃ args operand, parseArgs argv = .ok (args, operand) ∧
        (getoptLong longOptions argv).failed = false ∧
        (getoptLong longOptions argv).operands = [operand] ∧
        args.globals = givenGlobals (getoptLong longOptions argv).options := by
  obtain ⟨args, hfold, hglobals⟩ :=
    foldlM_applyOption (knows_getoptLong longOptions argv) hplain .start
  rw [foldl_globalsAfter] at hglobals
  rw [Args.start, Bool.false_or, Bool.false_or] at hglobals
  cases hfailed : (getoptLong longOptions argv).failed with
  | true =>
    refine .inl ⟨?_, .inl rfl⟩
    simp only [parseArgs, hfold, hfailed]
    rfl
  | false =>
    rcases hoperands : (getoptLong longOptions argv).operands with _ | ⟨operand, _ | ⟨next, rest⟩⟩
    · refine .inl ⟨?_, .inr fun operand => by simp⟩
      simp only [parseArgs, hfold, hfailed, hoperands]
      rfl
    · refine .inr ⟨args, operand, ?_, rfl, rfl, hglobals⟩
      simp only [parseArgs, hfold, hfailed, hoperands]
      rfl
    · refine .inl ⟨?_, .inr fun operand => by simp⟩
      simp only [parseArgs, hfold, hfailed, hoperands]
      rfl

/-- An option that picks a mode leaves one picked. -/
theorem pickedMode_ne_all {options : List (Char × Option Arg)} (h : Contradictory options) :
    pickedMode options ≠ .all := by
  have hkept : ∀ (options : List (Char × Option Arg)) {action : AppAction}, action ≠ .all →
      options.foldl modeAfter action ≠ .all := by
    intro options
    induction options with
    | nil => exact fun h => h
    | cons o options ih =>
      intro action haction
      refine ih ?_
      unfold modeAfter
      split <;> simp [haction]
  have hpicks : ∀ o : Char × Option Arg, o.1 ∈ ['f', 'c', 'u'] → ∀ action, modeAfter action o ≠ .all := by
    rintro ⟨c, optarg⟩ hc action
    simp only [List.mem_cons, List.not_mem_nil, or_false] at hc
    rcases hc with rfl | rfl | rfl <;> simp [modeAfter]
  obtain ⟨a, ha, b, hb, hne, hma, hmb⟩ := h
  obtain ⟨o, ho, hc⟩ : ∃ o ∈ options, o.1 ∈ ['f', 'c', 'u'] := by
    simp only [modeOptions, List.mem_cons, List.not_mem_nil, or_false] at hma hmb ⊢
    by_cases hk : a.1 = 'k'
    · exact ⟨b, hb, by grind⟩
    · exact ⟨a, ha, by grind⟩
  obtain ⟨before, after, rfl⟩ := List.append_of_mem ho
  rw [pickedMode, List.foldl_append, List.foldl_cons]
  exact hkept after (hpicks o hc _)

/-- At the start the tool is interrupted if a signal has come before the first request. -/
theorem interruptedBySignal_start (env : Environment) :
    interruptedBySignal env .start = true ↔ env.interruptAt = some 0 := by
  cases h : env.interruptAt <;> simp [interruptedBySignal, Progress.start, h]

/-- A step with a kernel request is not refused. -/
theorem not_refused_of_mem {r : ℤ × Progress} {service : Service} {info : CheckpointInfo}
    (h : .service service info ∈ r.2.requests) : ¬ Refused r :=
  fun hrefused => hrefused.2 service info h

/-- A step that fails and only prints is refused. -/
theorem refused_print {r : ℤ} (hr : r ≠ 0) {s : Progress}
    (hs : ∀ service info, .service service info ∉ s.requests) (line : Output) :
    Refused (r, s.print line) := ⟨hr, hs⟩

/-- A kernel request is among the requests of the step that reports on it. -/
theorem mem_reported (env : Environment) (r : Request) (answer : ℤ) (s : Progress) :
    r ∈ (if answer = 0 then (request env r s).2
      else showError env.errno (request env r s).2).requests := by
  rw [reported_requests, request_requests]
  exact List.mem_append_right _ List.mem_cons_self

/-- A step that makes a kernel request behind a callback round is refused when the round fails. -/
theorem refused_round_iff {g : Globals} {env : Environment} {round : Request} {r : ℤ} {t : Progress}
    (hround : ∀ service info, .service service info ≠ round) (hrequests : t.requests = rounds g round)
    (hpasses : r = 0 ↔ roundPasses g env round = true) (line : Output) {rest : ℤ × Progress}
    {service : Service} {info : CheckpointInfo} (hrest : .service service info ∈ rest.2.requests) :
    Refused (if r ≠ 0 then (r, t.print line) else rest) ↔ roundPasses g env round = false := by
  by_cases hr : r = 0
  · rw [if_neg (not_not.mpr hr), hpasses.mp hr]
    exact iff_of_false (not_refused_of_mem hrest) Bool.true_eq_false.mp
  · rw [if_pos hr]
    have hfails : roundPasses g env round = false := by
      rwa [hpasses, Bool.not_eq_true] at hr
    refine iff_of_true (refused_print hr (fun service info => ?_) line) hfails
    rw [hrequests]
    exact not_mem_rounds g (hround service info)

/-- The checkpoint step is refused when it is interrupted. -/
theorem checkpointApp_refused_iff (g : Globals) (env : Environment) (pid : ℤ) (flags : ℕ)
    (quiet : Bool) :
    Refused (checkpointApp g env pid flags quiet .start) ↔
      interruptedBySignal env .start = true := by
  obtain ⟨info, -, hrequest⟩ :=
    applicationCheckpoint_eq g env pid flags (announce "Checkpointing" g pid quiet .start)
  simp only [checkpointApp, hrequest]
  split
  · rename_i hint
    exact iff_of_true (refused_print (by decide) (fun _ _ => List.not_mem_nil) _) hint
  · rename_i hint
    exact iff_of_false (not_refused_of_mem (mem_reported env _ _ _)) hint

/-- The freeze step is refused when it is interrupted or its callback round fails. -/
theorem freezeApp_refused_iff (g : Globals) (env : Environment) (pid : ℤ) (quiet : Bool) :
    Refused (freezeApp g env pid quiet .start) ↔ interruptedBySignal env .start = true ∨
      roundPasses g env (.chkptCallbacks pid g.fromAppid) = false := by
  obtain ⟨r, t, hround, hrequests, hpasses⟩ :=
    callbackRound_spec g env (.chkptCallbacks pid g.fromAppid) .start
  simp only [freezeApp, hround, applicationFreeze_eq]
  split
  · rename_i hint
    exact iff_of_true (refused_print (by decide) (fun _ _ => List.not_mem_nil) _) (.inl hint)
  · rename_i hint
    rw [or_iff_right hint]
    exact refused_round_iff (fun _ _ => Request.noConfusion) hrequests hpasses _
      (mem_reported env _ _ _)

/-- A single unfreeze step is refused when it is interrupted or its callback round fails. -/
theorem unfreezeApp_refused_iff {g : Globals} (haction : g.action ≠ .all) (env : Environment)
    (pid signal : ℤ) (quiet : Bool) :
    Refused (unfreezeApp g env pid signal quiet .start) ↔ interruptedBySignal env .start = true ∨
      roundPasses g env (.continueCallbacks pid g.fromAppid) = false := by
  obtain ⟨r, t, hround, hrequests, hpasses⟩ :=
    callbackRound_spec g env (.continueCallbacks pid g.fromAppid) .start
  simp only [unfreezeApp, haction, ne_eq, not_false_eq_true, and_true, applicationUnfreeze_eq]
  split
  · rename_i hint
    exact iff_of_true (refused_print (by decide) (fun _ _ => List.not_mem_nil) _) (.inl hint)
  · rename_i hint
    rw [or_iff_right hint]
    simp only [hround]
    exact refused_round_iff (fun _ _ => Request.noConfusion) hrequests hpasses _
      (mem_reported env _ _ _)

/-- A single mode is refused exactly when it stops. -/
theorem runAction_refused_iff {args : Args} (hmode : args.globals.action ≠ .all)
    (env : Environment) (pid : ℤ) :
    Refused (runAction args env pid) ↔ ModeStops args.globals env pid := by
  unfold ModeStops runAction
  rw [← interruptedBySignal_start]
  cases haction : args.globals.action with
  | all => contradiction
  | checkpoint => simpa [haction] using checkpointApp_refused_iff args.globals env pid args.flags args.quiet
  | freeze => simpa [haction] using freezeApp_refused_iff args.globals env pid args.quiet
  | unfreeze => simpa [haction] using unfreezeApp_refused_iff hmode env pid args.sig args.quiet

/-- A command line with two of the options that exclude each other is refused exactly when the tool
stops early for another reason. -/
theorem contradictory_refused_iff {argv : List Arg}
    (hmodes : Contradictory (getoptLong longOptions argv).options)
    (hplain : Plain (getoptLong longOptions argv).options) (env : Environment)
    (checkEnvironment : Bool) :
    Refused (main env checkEnvironment argv) ↔ StopsEarly env checkEnvironment argv := by
  have hstart : ∀ status : ℤ, status ≠ 0 → Refused (status, .start) := fun _ hstatus =>
    ⟨hstatus, fun _ _ => List.not_mem_nil⟩
  unfold main StopsEarly
  rcases parseArgs_of_plain hplain with ⟨hparse, hrejected⟩ | ⟨args, operand, hparse, hfailed,
    hoperands, hglobals⟩
  · rw [hparse]
    refine iff_of_true (hstart 1 (by decide)) ?_
    rcases hrejected with hfailed | hoperands
    · exact .inl hfailed
    · exact .inr (.inr fun operand h => absurd h (hoperands operand))
  rw [hparse]
  simp only [hfailed, hoperands, Bool.false_eq_true, false_or, List.cons.injEq, and_true,
    forall_eq']
  split
  · rename_i hcheck
    exact iff_of_true (hstart 1 (by decide)) (.inl hcheck)
  rename_i hcheck
  rw [or_iff_right hcheck]
  split
  · rename_i hpid
    exact iff_of_true (hstart 1 (by decide)) (.inl hpid)
  · rename_i hpid
    have haction : args.globals.action ≠ .all := by
      rw [hglobals]
      exact pickedMode_ne_all hmodes
    rw [or_iff_right hpid, ← hglobals, ← runAction_refused_iff haction]
    unfold Refused
    split <;> simp_all

/-- A freeze and a signal for a process below 2 are refused. -/
theorem freeze_and_kill_of_init_refused :
    Refused (main ⟨fun _ => 0, 0, none⟩ true ["-f".toList, "-k".toList, "1".toList]) := by
  refine (contradictory_refused_iff (by decide) (by decide) _ true).mpr
    (.inr (.inr fun operand h => .inl ?_))
  rw [← (List.cons.inj h).1]
  decide

/-- A signal asked for together with a freeze: the application is frozen, the signal is dropped,
and the tool succeeds. -/
theorem freeze_and_kill_accepted :
    Contradictory (getoptLong longOptions ["-f".toList, "-k".toList, "1234".toList]).options ∧
      Plain (getoptLong longOptions ["-f".toList, "-k".toList, "1234".toList]).options ∧
      (main ⟨fun _ => 0, 0, none⟩ true ["-f".toList, "-k".toList, "1234".toList]).1 = 0 ∧
      (main ⟨fun _ => 0, 0, none⟩ true ["-f".toList, "-k".toList, "1234".toList]).2.requests =
        [.chkptCallbacks 1234 false, .service .appFreeze ⟨1234, appFromPid, 0⟩] ∧
      ¬ Refused (main ⟨fun _ => 0, 0, none⟩ true ["-f".toList, "-k".toList, "1234".toList]) := by
  refine ⟨by decide, by decide, by decide, by decide, fun hrefused => ?_⟩
  exact hrefused.1 (by decide)

end Kerrighed.Tools.Checkpoint
