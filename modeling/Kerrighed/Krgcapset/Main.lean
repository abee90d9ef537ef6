import Kerrighed.Common.Getopt
import Kerrighed.Krgcapset.Capabilities

/-!
# Setting capabilities from the command line

The tool reads its arguments twice: the first pass checks them, the second one applies the
options to the vectors of the target process. Before it gives up the right to change
capabilities it asks on the standard input. The answers of the kernel and the characters of
the standard input are parameters; the outcome is the exit status with the set requests made.

The final test of the answer contains an assignment instead of a comparison. The value it
assigns is always 1, so the test is true for every answer other than yes.
-/

namespace Kerrighed.Krgcapset

open Kerrighed.Common

/-- The option string and the table of long options. -/
def longOptions : OptTable where
  short := [('h', .noArgument), ('v', .noArgument), ('s', .noArgument), ('f', .noArgument),
    ('k', .requiredArgument), ('p', .requiredArgument), ('e', .requiredArgument),
    ('i', .requiredArgument), ('d', .requiredArgument)]
  long := [⟨"help".toList, .noArgument, 'h'⟩, ⟨"version".toList, .noArgument, 'v'⟩,
    ⟨"show".toList, .noArgument, 's'⟩, ⟨"force".toList, .noArgument, 'f'⟩,
    ⟨"pid".toList, .requiredArgument, 'k'⟩, ⟨"permitted".toList, .requiredArgument, 'p'⟩,
    ⟨"effective".toList, .requiredArgument, 'e'⟩,
    ⟨"inheritable-permitted".toList, .requiredArgument, 'i'⟩,
    ⟨"inheritable-effective".toList, .requiredArgument, 'd'⟩]

/-- What the kernel answers and what can be read from the standard input before its end. -/
structure Environment where
  capGetSupported : ℤ
  capget : ℤ
  initialCaps : KrgCap
  capset : ℤ
  stdin : List Char
  deriving DecidableEq, Repr

/-- The exit status and the set requests made, each with the pid it goes to (`-1` for the
father) and the vectors it carries. -/
structure Outcome where
  status : ℤ
  requests : List (ℤ × KrgCap)
  deriving DecidableEq, Repr

/-- The variables that the first pass sets. -/
structure Args where
  pid : ℤ
  showFlag : Bool
  setFlag : Bool
  forceFlag : Bool
  deriving DecidableEq, Repr

/-- The variables before the first pass. -/
def Args.start : Args := ⟨-1, false, false, false⟩

/-- The first pass over the options, which may end the program with an exit status. -/
def firstPass : List (Char × Option Arg) → Args → Except ℤ Args
  | [], args => .ok args
  | (c, optarg) :: rest, args =>
    match c with
    | 'v' => .error 0
    | 'h' => .error 0
    | 's' => firstPass rest { args with showFlag := true }
    | 'k' =>
      if args.pid ≠ -1 then .error 1
      else firstPass rest { args with pid := atoi (optarg.getD []) }
    | 'e' => firstPass rest { args with setFlag := true }
    | 'd' => firstPass rest { args with setFlag := true }
    | 'p' => firstPass rest { args with setFlag := true }
    | 'i' => firstPass rest { args with setFlag := true }
    | 'f' => firstPass rest { args with forceFlag := true }
    | _ => .error 1

/-- The second pass over the options: the vectors and whether an option has changed one. -/
def secondPass : List (Char × Option Arg) → KrgCap × Bool → Except ℤ (KrgCap × Bool)
  | [], st => .ok st
  | (c, optarg) :: rest, (caps, changedCap) =>
    let value := optionValue (optarg.getD [])
    match c with
    | 'f' => secondPass rest (caps, changedCap)
    | 's' => secondPass rest (caps, changedCap)
    | 'k' => secondPass rest (caps, changedCap)
    | 'e' => secondPass rest ({ caps with effective := value caps.effective }, true)
    | 'p' => secondPass rest ({ caps with permitted := value caps.permitted }, true)
    | 'i' =>
      secondPass rest ({ caps with inheritablePermitted := value caps.inheritablePermitted }, true)
    | 'd' =>
      secondPass rest ({ caps with inheritableEffective := value caps.inheritableEffective }, true)
    | _ => .error 1

/-- The next character of the standard input, or `none` for `EOF`. -/
def getchar : List Char → Option Char × List Char
  | [] => (none, [])
  | c :: rest => (some c, rest)

/-- The answers that end the reading loop. -/
def endsReading (answer : Option Char) : Bool :=
  answer ∈ [some 'y', some 'Y', some 'n', some 'N', none, some '\n']

/-- The reading loop: the last answer read and whether it is the first one. -/
def readAnswer : ℕ → Option Char → Bool → List Char → Option (Option Char × Bool)
  | 0, _, _, _ => none
  | fuel + 1, answer, useDefault, stdin =>
    if endsReading answer then some (answer, useDefault)
    else
      let r := getchar stdin
      readAnswer fuel r.1 false r.2

/-- The final test `answer != 'y' && answer != 'Y' && (answer = '\n' || use_default)`, whose
last part assigns the value of the disjunction to `answer`. -/
def givesUp (answer : Option Char) (useDefault : Bool) : Bool :=
  let assigned : ℤ := if '\n'.toNat ≠ 0 ∨ useDefault = true then 1 else 0
  answer ≠ some 'y' ∧ answer ≠ some 'Y' ∧ assigned ≠ 0

/-- The vectors do not leave the right to change capabilities. -/
def LosesCap (caps : KrgCap) : Prop :=
  capRaised caps.permitted capChangeKerrighedCap = false ∨
    capRaised caps.effective capChangeKerrighedCap = false

instance : DecidablePred LosesCap := fun caps =>
  inferInstanceAs (Decidable (capRaised caps.permitted _ = false ∨ capRaised caps.effective _ = false))

/-- Ask where the right to change capabilities would be lost: whether the request is given up. -/
def asksAndGivesUp (fuel : ℕ) (env : Environment) (args : Args) (caps : KrgCap) : Option Bool :=
  if args.forceFlag = false ∧ LosesCap caps then
    let r := getchar env.stdin
    (readAnswer fuel r.1 true r.2).map fun a => givesUp a.1 a.2
  else some false

/-- Make the set request unless it is given up. -/
def confirmAndSet (fuel : ℕ) (env : Environment) (args : Args) (caps : KrgCap) : Option Outcome :=
  (asksAndGivesUp fuel env args caps).map fun gaveUp =>
    if gaveUp then ⟨0, []⟩ else ⟨if env.capset ≠ 0 then 1 else 0, [(args.pid, caps)]⟩

/-- The tool behind the checks of the first pass. -/
def setOrShow (fuel : ℕ) (env : Environment) (options : List (Char × Option Arg)) (args : Args) :
    Option Outcome :=
  if env.capGetSupported ≠ 0 then some ⟨env.capGetSupported, []⟩
  else if env.capget ≠ 0 then some ⟨env.capget, []⟩
  else if args.setFlag then
    match secondPass options (env.initialCaps, false) with
    | .error status => some ⟨status, []⟩
    | .ok (caps, changedCap) =>
      if changedCap then confirmAndSet fuel env args caps else some ⟨0, []⟩
  else some ⟨0, []⟩

/-- The checks of the first pass: the variables it has set, or the exit status. -/
def checkArguments (argv : List Arg) : Except ℤ Args := do
  let parsed := getoptLong longOptions argv
  let args ← firstPass parsed.options .start
  if parsed.failed then .error 1
  else if parsed.operands ≠ [] then .error 1
  else if args.showFlag ∧ args.setFlag then .error 1
  else .ok args

/-- The tool on the arguments behind its name. It has no outcome when the fuel does not reach
the end of the reading loop. -/
def main (fuel : ℕ) (env : Environment) (argv : List Arg) : Option Outcome :=
  match checkArguments argv with
  | .error status => some ⟨status, []⟩
  | .ok args => setOrShow fuel env (getoptLong longOptions argv).options args

/-- An option that changes a vector. -/
def isSetOption (c : Char) : Bool := c ∈ ['e', 'd', 'p', 'i']

/-- The options that neither end the first pass nor fail it. -/
def isAccepted (c : Char) : Bool := c ∈ ['s', 'k', 'e', 'd', 'p', 'i', 'f']

/-- The pid after the values of `-k`; a second pid fails the first pass. -/
def choosePid : ℤ → List Arg → Option ℤ
  | pid, [] => some pid
  | pid, value :: rest => if pid ≠ -1 then none else choosePid (atoi value) rest

/-- What one option makes of the vectors. -/
def applyOption (caps : KrgCap) (o : Char × Option Arg) : KrgCap :=
  let value := optionValue (o.2.getD [])
  match o.1 with
  | 'e' => { caps with effective := value caps.effective }
  | 'p' => { caps with permitted := value caps.permitted }
  | 'i' => { caps with inheritablePermitted := value caps.inheritablePermitted }
  | 'd' => { caps with inheritableEffective := value caps.inheritableEffective }
  | _ => caps

/-- The input contains a `y` or `Y` before any `n`, `N` or newline. -/
def Confirms (stdin : List Char) : Prop :=
  ∃ before c after, stdin = before ++ c :: after ∧ (c = 'y' ∨ c = 'Y') ∧
    ∀ d ∈ before, d ≠ 'n' ∧ d ≠ 'N' ∧ d ≠ '\n'

/-- An empty input confirms nothing. -/
theorem not_confirms_nil : ¬ Confirms [] := by
  rintro ⟨before, c, after, h, -, -⟩
  simp at h

/-- The first character decides unless it is none of the answers. -/
theorem confirms_cons {c : Char} {rest : List Char} :
    Confirms (c :: rest) ↔
      (c = 'y' ∨ c = 'Y') ∨ (c ≠ 'n' ∧ c ≠ 'N' ∧ c ≠ '\n') ∧ Confirms rest := by
  constructor
  · rintro ⟨before, d, after, h, hd, hbefore⟩
    cases before with
    | nil =>
      obtain ⟨rfl, rfl⟩ := List.cons.inj h
      exact .inl hd
    | cons b before =>
      obtain ⟨rfl, rfl⟩ := List.cons.inj h
      exact .inr ⟨hbefore c List.mem_cons_self,
        before, d, after, rfl, hd, fun x hx => hbefore x (List.mem_cons_of_mem _ hx)⟩
  · rintro (hc | ⟨hc, before, d, after, rfl, hd, hbefore⟩)
    · exact ⟨[], c, rest, rfl, hc, by simp⟩
    · refine ⟨c :: before, d, after, rfl, hd, fun x hx => ?_⟩
      rcases List.mem_cons.mp hx with rfl | hx
      · exact hc
      · exact hbefore x hx

/-- The reading loop ends, and the answer is yes exactly when the input confirms. -/
theorem readAnswer_eq (stdin : List Char) {fuel : ℕ} (hfuel : stdin.length < fuel)
    (useDefault : Bool) :
    ∃ answer default, readAnswer fuel (getchar stdin).1 useDefault (getchar stdin).2 =
        some (answer, default) ∧
      ((answer = some 'y' ∨ answer = some 'Y') ↔ Confirms stdin) := by
  induction stdin generalizing fuel useDefault with
  | nil =>
    obtain ⟨fuel, rfl⟩ : ∃ f, fuel = f + 1 := ⟨fuel - 1, by simp at hfuel; omega⟩
    exact ⟨none, useDefault, rfl, by simp [not_confirms_nil]⟩
  | cons c rest ih =>
    obtain ⟨fuel, rfl⟩ : ∃ f, fuel = f + 1 := ⟨fuel - 1, by simp at hfuel; omega⟩
    rw [confirms_cons]
    by_cases hends : endsReading (some c) = true
    · refine ⟨some c, useDefault, by simp [getchar, readAnswer, hends], ?_⟩
      simp only [endsReading, List.mem_cons, Option.some.injEq, reduceCtorEq, List.not_mem_nil,
        or_false, false_or, decide_eq_true_eq] at hends
      grind
    · have hrest : rest.length < fuel := by simpa using hfuel
      obtain ⟨answer, default, hread, hiff⟩ := ih hrest false
      refine ⟨answer, default, by simpa [getchar, readAnswer, hends] using hread, ?_⟩
      simp only [endsReading, List.mem_cons, Option.some.injEq, reduceCtorEq, List.not_mem_nil,
        or_false, false_or, decide_eq_true_eq] at hends
      rw [hiff]
      grind

/-- The assignment makes the final test true for every answer other than yes. -/
theorem givesUp_eq (answer : Option Char) (useDefault : Bool) :
    givesUp answer useDefault = true ↔ ¬ (answer = some 'y' ∨ answer = some 'Y') := by
  simp [givesUp]

/-- The right to change capabilities would be lost, `-f` was not given, and the input does not
confirm. -/
def Declined (env : Environment) (args : Args) (caps : KrgCap) : Prop :=
  args.forceFlag = false ∧ LosesCap caps ∧ ¬ Confirms env.stdin

/-- The question ends, and the request is given up exactly when it is declined. -/
theorem asksAndGivesUp_eq {fuel : ℕ} {env : Environment} (hfuel : env.stdin.length < fuel)
    (args : Args) (caps : KrgCap) :
    ∃ gaveUp, asksAndGivesUp fuel env args caps = some gaveUp ∧
      (gaveUp = true ↔ Declined env args caps) := by
  by_cases hask : args.forceFlag = false ∧ LosesCap caps
  · obtain ⟨answer, default, hread, hiff⟩ := readAnswer_eq env.stdin hfuel true
    refine ⟨givesUp answer default, by simp [asksAndGivesUp, hask, hread], ?_⟩
    rw [givesUp_eq, hiff, Declined]
    simp [hask]
  · refine ⟨false, by rw [asksAndGivesUp, if_neg hask], ?_⟩
    rw [Declined]
    tauto

/-- The end of the tool makes one request, or none when it is declined. -/
theorem confirmAndSet_eq {fuel : ℕ} {env : Environment} (hfuel : env.stdin.length < fuel)
    (args : Args) (caps : KrgCap) :
    ∃ o, confirmAndSet fuel env args caps = some o ∧
      (Declined env args caps ∧ o.requests = [] ∨
        ¬ Declined env args caps ∧ o.requests = [(args.pid, caps)]) := by
  obtain ⟨gaveUp, hasks, hiff⟩ := asksAndGivesUp_eq hfuel args caps
  refine ⟨_, congrArg (Option.map _) hasks, ?_⟩
  cases gaveUp with
  | true => exact .inl ⟨hiff.mp rfl, rfl⟩
  | false => exact .inr ⟨fun h => by simpa using hiff.mpr h, rfl⟩

/-- The first pass accepts options of the known kinds with one pid among them, and its flags tell
which kinds are given. -/
theorem firstPass_eq_ok_iff {options : List (Char × Option Arg)} {args args' : Args} :
    firstPass options args = .ok args' ↔
      options.all (isAccepted ·.1) = true ∧
        choosePid args.pid (valuesOf 'k' options) = some args'.pid ∧
        args'.showFlag = (args.showFlag || options.any (·.1 = 's')) ∧
        args'.setFlag = (args.setFlag || options.any (isSetOption ·.1)) ∧
        args'.forceFlag = (args.forceFlag || options.any (·.1 = 'f')) := by
  fun_induction firstPass options args with
  | case1 args =>
    cases args
    cases args'
    simp [choosePid]
    tauto
  | case2 | case3 | case12 => simp_all [isAccepted]
  | case5 args optarg rest hpid => simp [isAccepted, choosePid, hpid]
  | case4 args optarg rest ih | case11 args optarg rest ih => simp [ih, isAccepted, isSetOption]
  | case6 args optarg rest hpid ih => simp_all [isAccepted, isSetOption, choosePid]
  | case7 args optarg rest ih | case8 args optarg rest ih | case9 args optarg rest ih
  | case10 args optarg rest ih => simp [ih, isAccepted, isSetOption]

/-- The second pass over accepted options applies them one after the other. -/
theorem secondPass_eq {options : List (Char × Option Arg)}
    (haccepted : options.all (isAccepted ·.1) = true) (caps : KrgCap) (changedCap : Bool) :
    secondPass options (caps, changedCap) =
      .ok (options.foldl applyOption caps, changedCap || options.any (isSetOption ·.1)) := by
  induction options generalizing caps changedCap with
  | nil => simp [secondPass]
  | cons o options ih =>
    obtain ⟨c, optarg⟩ := o
    rw [List.all_cons, Bool.and_eq_true] at haccepted
    obtain ⟨hc, hrest⟩ := haccepted
    have hkinds : c = 's' ∨ c = 'k' ∨ c = 'e' ∨ c = 'd' ∨ c = 'p' ∨ c = 'i' ∨ c = 'f' := by
      simpa [isAccepted] using hc
    rcases hkinds with rfl | rfl | rfl | rfl | rfl | rfl | rfl
    all_goals simp [secondPass, ih hrest, applyOption, isSetOption]

/-- What the first pass lets through: the force and set flags tell of the options given, and
the second pass knows every option. -/
theorem firstPass_ok {options : List (Char × Option Arg)} {args args' : Args}
    (h : firstPass options args = .ok args') :
    args'.forceFlag = (args.forceFlag || options.any (·.1 = 'f')) ∧
      args'.setFlag = (args.setFlag || options.any (isSetOption ·.1)) ∧
      ∀ st, ∃ caps, secondPass options st = .ok (caps, st.2 || options.any (isSetOption ·.1)) := by
  obtain ⟨haccepted, -, -, hset, hforce⟩ := firstPass_eq_ok_iff.mp h
  exact ⟨hforce, hset, fun st => ⟨_, secondPass_eq haccepted st.1 st.2⟩⟩

/-- The checks let the variables of the first pass through unchanged. -/
theorem checkArguments_ok {argv : List Arg} {args : Args} (h : checkArguments argv = .ok args) :
    firstPass (getoptLong longOptions argv).options .start = .ok args := by
  simp only [checkArguments] at h
  cases hfirst : firstPass (getoptLong longOptions argv).options .start with
  | error status =>
    rw [hfirst] at h
    contradiction
  | ok first =>
    rw [hfirst] at h
    change (if _ then _ else _) = _ at h
    split at h
    · contradiction
    · split at h
      · contradiction
      · split at h
        · contradiction
        · exact h

/-- The vectors that the options make of the initial ones, where the second pass accepts them. -/
def resultingCaps (env : Environment) (argv : List Arg) : Option KrgCap :=
  match secondPass (getoptLong longOptions argv).options (env.initialCaps, false) with
  | .error _ => none
  | .ok (caps, _) => some caps

/-- The run ends before the set request for a reason other than the names of capabilities: the
checks reject the arguments, the kernel does not answer, or the request is declined. -/
def StopsBefore (env : Environment) (argv : List Arg) : Prop :=
  match checkArguments argv with
  | .error _ => True
  | .ok args =>
    env.capGetSupported ≠ 0 ∨ env.capget ≠ 0 ∨
      ∀ caps, resultingCaps env argv = some caps → Declined env args caps

/-- The tool ends. Without a set option it makes no request; with one it makes a single request
for the resulting vectors, or none exactly when it stops before. -/
theorem main_spec {fuel : ℕ} {env : Environment} (hfuel : env.stdin.length < fuel)
    (argv : List Arg) :
    ∃ o, main fuel env argv = some o ∧
      (o.requests = [] ∧ (StopsBefore env argv ∨
          (getoptLong longOptions argv).options.any (isSetOption ·.1) = false) ∨
        ¬ StopsBefore env argv ∧ ∃ args caps, checkArguments argv = .ok args ∧
          resultingCaps env argv = some caps ∧ ¬ Declined env args caps ∧
          o.requests = [(args.pid, caps)]) := by
  rw [main, StopsBefore]
  cases hcheck : checkArguments argv with
  | error status => exact ⟨_, rfl, .inl ⟨rfl, .inl trivial⟩⟩
  | ok args =>
    obtain ⟨-, hset, hsecond⟩ := firstPass_ok (checkArguments_ok hcheck)
    obtain ⟨caps, hcaps⟩ := hsecond (env.initialCaps, false)
    have hresult : resultingCaps env argv = some caps := by rw [resultingCaps, hcaps]
    simp only [setOrShow]
    by_cases hsupported : env.capGetSupported ≠ 0
    · rw [if_pos hsupported]
      exact ⟨_, rfl, .inl ⟨rfl, .inl (.inl hsupported)⟩⟩
    rw [if_neg hsupported]
    by_cases hget : env.capget ≠ 0
    · rw [if_pos hget]
      exact ⟨_, rfl, .inl ⟨rfl, .inl (.inr (.inl hget))⟩⟩
    rw [if_neg hget]
    cases hany : (getoptLong longOptions argv).options.any (isSetOption ·.1) with
    | false =>
      rw [hany] at hset
      rw [hset]
      exact ⟨_, rfl, .inl ⟨rfl, .inr rfl⟩⟩
    | true =>
      rw [hany] at hset hcaps
      obtain ⟨o, hend, hrequests⟩ := confirmAndSet_eq hfuel args caps
      rw [hset, hcaps]
      refine ⟨o, by simpa using hend, ?_⟩
      rcases hrequests with ⟨hdeclined, hnone⟩ | ⟨hdeclined, hone⟩
      · refine .inl ⟨hnone, .inl (.inr (.inr fun caps' h => ?_))⟩
        rwa [← Option.some.inj (hresult.symm.trans h)]
      · refine .inr ⟨fun h => ?_, args, caps, rfl, hresult, hdeclined, hone⟩
        rcases h with h | h | h
        · exact hsupported h
        · exact hget h
        · exact hdeclined (h caps hresult)

/-- Without `-f`, a run ends, and a request for vectors that lose the right to change
capabilities follows only an input that confirms it. -/
theorem main_keeps_cap_unless_confirmed (env : Environment) (argv : List Arg)
    (hforce : ∀ o ∈ (getoptLong longOptions argv).options, o.1 ≠ 'f') {fuel : ℕ}
    (hfuel : env.stdin.length < fuel) :
    ∃ o, main fuel env argv = some o ∧
      (o.requests = [] ∨ ∃ pid caps, o.requests = [(pid, caps)] ∧
        (LosesCap caps → Confirms env.stdin)) := by
  obtain ⟨o, hmain, ⟨hnone, -⟩ | ⟨-, args, caps, hcheck, -, hdeclined, hone⟩⟩ :=
    main_spec hfuel argv
  · exact ⟨o, hmain, .inl hnone⟩
  · refine ⟨o, hmain, .inr ⟨args.pid, caps, hone, fun hloses => ?_⟩⟩
    by_contra hconfirms
    have hnoforce : args.forceFlag = false := by
      rw [(firstPass_ok (checkArguments_ok hcheck)).1]
      simpa [Args.start] using hforce
    exact hdeclined ⟨hnoforce, hloses, hconfirms⟩

/-- The kernel answers, and every vector holds all capabilities. -/
def allCaps (stdin : List Char) : Environment :=
  ⟨0, 0, ⟨4095, 4095, 4095, 4095⟩, 0, stdin⟩

/-- Clearing the effective vector with a no on the standard input. -/
theorem clearing_effective_asks :
    ∃ o, main 9 (allCaps "hum no".toList) ["-e".toList, "0".toList] = some o ∧
      (o.requests = [] ∨ ∃ pid caps, o.requests = [(pid, caps)] ∧
        (LosesCap caps → Confirms (allCaps "hum no".toList).stdin)) :=
  main_keeps_cap_unless_confirmed _ _ (by decide) (by decide)

/-- With a mistyped name among the options the tool makes no request exactly when it stops
before for another reason: the name itself never stops it. -/
theorem mistyped_changes_nothing_iff (env : Environment) (argv : List Arg)
    (hmistyped : ∃ o ∈ (getoptLong longOptions argv).options, isSetOption o.1 = true ∧
      ∃ value, o.2 = some value ∧ Mistyped value)
    {fuel : ℕ} (hfuel : env.stdin.length < fuel) :
    ∃ o, main fuel env argv = some o ∧ (o.requests = [] ↔ StopsBefore env argv) := by
  obtain ⟨option, hoption, hset, -⟩ := hmistyped
  have hany : (getoptLong longOptions argv).options.any (isSetOption ·.1) = true :=
    List.any_eq_true.mpr ⟨option, hoption, hset⟩
  obtain ⟨o, hmain, ⟨hnone, hstops⟩ | ⟨hgoes, args, caps, -, -, -, hone⟩⟩ := main_spec hfuel argv
  · refine ⟨o, hmain, fun _ => hstops.resolve_right fun hfalse => ?_, fun _ => hnone⟩
    rw [hany] at hfalse
    contradiction
  · refine ⟨o, hmain, fun hnone => ?_, fun hstops => absurd hstops hgoes⟩
    rw [hone] at hnone
    contradiction

/-- A mistyped list for the inheritable effective vector, in a run without a question. -/
theorem mistyped_inheritable_iff :
    ∃ o, main 1 (allCaps []) ["-d".toList, "CAN_MIGRAT".toList] = some o ∧
      (o.requests = [] ↔ StopsBefore (allCaps []) ["-d".toList, "CAN_MIGRAT".toList]) :=
  mistyped_changes_nothing_iff _ _
    ⟨('d', some "CAN_MIGRAT".toList), by decide, by decide, _, rfl, by decide⟩ (by decide)

/-- The mistyped list clears the whole vector. -/
theorem mistyped_list_clears_vector :
    Mistyped "CAN_MIGRAT".toList ∧
      main 1 (allCaps []) ["-d".toList, "CAN_MIGRAT".toList] =
        some ⟨0, [(-1, ⟨4095, 4095, 4095, 0⟩)]⟩ := by
  decide

end Kerrighed.Krgcapset
