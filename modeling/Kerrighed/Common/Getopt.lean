import Mathlib.Data.List.Basic

/-!
# Command lines

A model of the GNU `getopt_long`: short options may be bundled and carry their argument in the
same element or the next one, long options may be abbreviated and take `=value`, operands may
stand between options, and `--` ends the options.

`getoptLong` collects what the successive calls return, up to the first error: the options in
order with their arguments, and the operands that are left.
-/

namespace Kerrighed.Common

/-- An element of the argument vector, without its final NUL. -/
abbrev Arg := List Char

/-- Whether an option takes an argument. -/
inductive HasArg where
  | noArgument
  | requiredArgument
  | optionalArgument
  deriving DecidableEq, Repr

/-- An entry of the table of long options; `val` is what `getopt_long` returns for it. -/
structure LongOption where
  name : Arg
  hasArg : HasArg
  val : Char
  deriving DecidableEq, Repr

/-- The option string and the table of long options. -/
structure OptTable where
  short : List (Char × HasArg)
  long : List LongOption

/-- How the options of one element end: all complete, with an option that takes the next
element as its argument, or with an error. -/
inductive Ending where
  | complete
  | needs (c : Char)
  | unknown
  deriving DecidableEq, Repr

/-- What one element of the argument vector is. -/
inductive Element where
  | operand
  | stop
  | options (given : List (Char × Option Arg)) (ending : Ending)
  deriving DecidableEq, Repr

/-- The short options bundled in one element. -/
def shortOptions (table : OptTable) : Arg → List (Char × Option Arg) × Ending
  | [] => ([], .complete)
  | c :: cs =>
    match table.short.lookup c with
    | none => ([], .unknown)
    | some .noArgument =>
      let r := shortOptions table cs
      ((c, none) :: r.1, r.2)
    | some .requiredArgument => if cs = [] then ([], .needs c) else ([(c, some cs)], .complete)
    | some .optionalArgument => ([(c, if cs = [] then none else some cs)], .complete)

/-- The long option of that name, or the only one that the name abbreviates. -/
def findLong (table : OptTable) (name : Arg) : Option LongOption :=
  match table.long.find? (·.name = name) with
  | some option => some option
  | none =>
    match table.long.filter (name.isPrefixOf ·.name) with
    | [] => none
    | option :: rest =>
      if rest.all fun o => o.hasArg = option.hasArg ∧ o.val = option.val then some option else none

/-- A long option, with what follows the first `=` if there is one. -/
def longOption (table : OptTable) (name : Arg) (value : Option Arg) :
    List (Char × Option Arg) × Ending :=
  match findLong table name with
  | none => ([], .unknown)
  | some option =>
    match option.hasArg, value with
    | .noArgument, none => ([(option.val, none)], .complete)
    | .noArgument, some _ => ([], .unknown)
    | .requiredArgument, none => ([], .needs option.val)
    | .requiredArgument, some v => ([(option.val, some v)], .complete)
    | .optionalArgument, v => ([(option.val, v)], .complete)

/-- Tell options from operands. -/
def element (table : OptTable) (arg : Arg) : Element :=
  match arg with
  | ['-', '-'] => .stop
  | '-' :: '-' :: rest =>
    let name := rest.takeWhile (· ≠ '=')
    let r := longOption table name (rest.drop name.length).tail?
    .options r.1 r.2
  | '-' :: c :: cs =>
    let r := shortOptions table (c :: cs)
    .options r.1 r.2
  | _ => .operand

/-- The options that the calls return, whether an error comes after them, and the operands that
are left where none does. -/
structure Parsed where
  options : List (Char × Option Arg)
  failed : Bool
  operands : List Arg
  deriving DecidableEq, Repr

/-- The calls over the whole argument vector, without the name of the program. -/
def getoptLong (table : OptTable) : List Arg → Parsed
  | [] => ⟨[], false, []⟩
  | arg :: rest =>
    match element table arg with
    | .stop => ⟨[], false, rest⟩
    | .operand =>
      let r := getoptLong table rest
      { r with operands := arg :: r.operands }
    | .options given .complete =>
      let r := getoptLong table rest
      { r with options := given ++ r.options }
    | .options given .unknown => ⟨given, true, []⟩
    | .options given (.needs c) =>
      match rest with
      | [] => ⟨given, true, []⟩
      | value :: rest =>
        let r := getoptLong table rest
        { r with options := given ++ (c, some value) :: r.options }

/-- An option of the table. -/
def OptTable.Knows (table : OptTable) (c : Char) : Prop :=
  (∃ hasArg, (c, hasArg) ∈ table.short) ∨ ∃ option ∈ table.long, option.val = c

/-- The short options of an element are those of the table. -/
theorem knows_shortOptions (table : OptTable) (arg : Arg) :
    (∀ o ∈ (shortOptions table arg).1, table.Knows o.1) ∧
      ∀ c, (shortOptions table arg).2 = .needs c → table.Knows c := by
  induction arg with
  | nil => simp [shortOptions]
  | cons c cs ih =>
    have hknows : ∀ {hasArg}, table.short.lookup c = some hasArg → table.Knows c := fun h => by
      obtain ⟨before, after, heq, -⟩ := List.lookup_eq_some_iff.mp h
      exact .inl ⟨_, heq ▸ List.mem_append_right _ List.mem_cons_self⟩
    unfold shortOptions
    split
    · simp
    · rename_i h
      refine ⟨fun o ho => ?_, ih.2⟩
      rcases List.mem_cons.mp ho with rfl | ho
      · exact hknows h
      · exact ih.1 o ho
    · rename_i h
      split <;> simp [hknows h]
    · rename_i h
      simp [hknows h]

/-- The long option found is one of the table. -/
theorem mem_of_findLong {table : OptTable} {name : Arg} {option : LongOption}
    (h : findLong table name = some option) : option ∈ table.long := by
  unfold findLong at h
  split at h
  · rename_i found hfound
    cases Option.some.inj h
    exact List.mem_of_find?_eq_some hfound
  · split at h
    · contradiction
    · rename_i first rest hfilter
      split at h
      · cases Option.some.inj h
        have hmem : option ∈ table.long.filter (name.isPrefixOf ·.name) := by
          rw [hfilter]
          exact List.mem_cons_self
        exact (List.mem_filter.mp hmem).1
      · contradiction

/-- The long option of an element is one of the table. -/
theorem knows_longOption (table : OptTable) (name : Arg) (value : Option Arg) :
    (∀ o ∈ (longOption table name value).1, table.Knows o.1) ∧
      ∀ c, (longOption table name value).2 = .needs c → table.Knows c := by
  unfold longOption
  split
  · simp
  · rename_i option h
    have hknows : table.Knows option.val := .inr ⟨option, mem_of_findLong h, rfl⟩
    split <;> simp [hknows]

/-- The options of an element are those of the table. -/
theorem knows_element {table : OptTable} {arg : Arg} {given : List (Char × Option Arg)}
    {ending : Ending} (h : element table arg = .options given ending) :
    (∀ o ∈ given, table.Knows o.1) ∧ ∀ c, ending = .needs c → table.Knows c := by
  unfold element at h
  split at h
  · contradiction
  · cases h
    exact knows_longOption table _ _
  · cases h
    exact knows_shortOptions table _
  · contradiction

/-- The options of a command line are those of the table. -/
theorem knows_getoptLong (table : OptTable) (argv : List Arg) :
    ∀ o ∈ (getoptLong table argv).options, table.Knows o.1 := by
  fun_induction getoptLong table argv with
  | case1 | case2 => simp
  | case3 arg rest h r ih => exact ih
  | case4 arg rest given h r ih =>
    intro o ho
    rcases List.mem_append.mp ho with ho | ho
    · exact (knows_element h).1 o ho
    · exact ih o ho
  | case5 arg rest given h => exact (knows_element h).1
  | case6 arg given c h => exact (knows_element h).1
  | case7 arg given c h value rest r ih =>
    intro o ho
    rcases List.mem_append.mp ho with ho | ho
    · exact (knows_element h).1 o ho
    · rcases List.mem_cons.mp ho with rfl | ho
      · exact (knows_element h).2 c rfl
      · exact ih o ho

/-- Only `--` ends the options. -/
theorem eq_of_element_stop {table : OptTable} {arg : Arg} (h : element table arg = .stop) :
    arg = ['-', '-'] := by
  unfold element at h
  split at h
  · rfl
  · cases h
  · cases h
  · cases h

/-- What stands behind `--` is left as it is. -/
theorem getoptLong_append_stop (table : OptTable) {argv : List Arg} (hstop : ['-', '-'] ∉ argv)
    (hok : (getoptLong table argv).failed = false) (words : List Arg) :
    getoptLong table (argv ++ ['-', '-'] :: words) =
      ⟨(getoptLong table argv).options, false, (getoptLong table argv).operands ++ words⟩ := by
  fun_induction getoptLong table argv with
  | case1 => rfl
  | case2 arg rest h => exact absurd (eq_of_element_stop h ▸ List.mem_cons_self) hstop
  | case3 arg rest h r ih =>
    rw [List.cons_append, getoptLong, h]
    simp only [ih (List.not_mem_of_not_mem_cons hstop) hok]
    rfl
  | case4 arg rest given h r ih =>
    rw [List.cons_append, getoptLong, h]
    simp only [ih (List.not_mem_of_not_mem_cons hstop) hok]
    rfl
  | case5 arg rest given h => cases hok
  | case6 arg given c h => cases hok
  | case7 arg given c h value rest r ih =>
    have hrest := List.not_mem_of_not_mem_cons (List.not_mem_of_not_mem_cons hstop)
    rw [List.cons_append, List.cons_append, getoptLong, h]
    simp only [ih hrest hok]
    rfl

/-- The arguments of the options of one kind, in their order. -/
def valuesOf (c : Char) (options : List (Char × Option Arg)) : List Arg :=
  (options.filter (·.1 = c)).map (·.2.getD [])

/-- Both lists give the options of each kind the same arguments in the same order. -/
def SameArguments (a b : List (Char × Option Arg)) : Prop := ∀ c, valuesOf c a = valuesOf c b

@[simp]
theorem valuesOf_nil (c : Char) : valuesOf c [] = [] := rfl

@[simp]
theorem valuesOf_cons (c : Char) (o : Char × Option Arg) (options : List (Char × Option Arg)) :
    valuesOf c (o :: options) =
      if o.1 = c then o.2.getD [] :: valuesOf c options else valuesOf c options := by
  by_cases h : o.1 = c <;> simp [valuesOf, h]

/-- An option is missing exactly when it has no arguments. -/
theorem valuesOf_eq_nil_iff {c : Char} {options : List (Char × Option Arg)} :
    valuesOf c options = [] ↔ ∀ o ∈ options, o.1 ≠ c := by
  simp [valuesOf]

/-- Two options of different kinds may change places. -/
theorem sameArguments_swap {o o' : Char × Option Arg} (h : o.1 ≠ o'.1)
    (options : List (Char × Option Arg)) :
    SameArguments (o :: o' :: options) (o' :: o :: options) := by
  intro c
  rw [valuesOf_cons, valuesOf_cons, valuesOf_cons, valuesOf_cons]
  by_cases ho : o.1 = c
  · have ho' : o'.1 ≠ c := fun heq => h (ho.trans heq.symm)
    rw [if_pos ho, if_neg ho', if_neg ho', if_pos ho]
  · rw [if_neg ho, if_neg ho]

/-- Where the arguments agree, a test of the kinds finds the same. -/
theorem SameArguments.any_eq {a b : List (Char × Option Arg)} (h : SameArguments a b)
    (p : Char → Bool) : a.any (p ·.1) = b.any (p ·.1) := by
  have hle : ∀ {a b : List (Char × Option Arg)}, SameArguments a b →
      a.any (p ·.1) = true → b.any (p ·.1) = true := by
    intro a b h ha
    obtain ⟨o, ho, hp⟩ := List.any_eq_true.mp ha
    have hne : valuesOf o.1 b ≠ [] := by
      rw [← h o.1]
      exact fun hnil => valuesOf_eq_nil_iff.mp hnil o ho rfl
    rw [ne_eq, valuesOf_eq_nil_iff] at hne
    push Not at hne
    obtain ⟨o', ho', heq⟩ := hne
    exact List.any_eq_true.mpr ⟨o', ho', by rwa [heq]⟩
  rw [Bool.eq_iff_iff]
  exact ⟨hle h, hle fun c => (h c).symm⟩

/-- A component that the options of one kind change, and no other, is folded over their
arguments. -/
theorem proj_foldl_options {σ β : Type*} {step : σ → Char × Option Arg → σ} (proj : σ → β)
    (c : Char) (f : β → Arg → β)
    (hstep : ∀ s o, proj (step s o) = if o.1 = c then f (proj s) (o.2.getD []) else proj s)
    (options : List (Char × Option Arg)) (s : σ) :
    proj (options.foldl step s) = (valuesOf c options).foldl f (proj s) := by
  induction options generalizing s with
  | nil => rfl
  | cons o options ih =>
    rw [List.foldl_cons, ih, hstep, valuesOf_cons]
    split
    · rfl
    · rfl

/-- A component that each option changes in a way of its own is folded over the options that were
applied without an error. -/
theorem proj_foldlM {σ α β ε : Type*} {step : σ → α → Except ε σ} (proj : σ → β) (f : β → α → β)
    (hstep : ∀ s o s', step s o = .ok s' → proj s' = f (proj s) o) {options : List α} {s s' : σ}
    (h : options.foldlM step s = .ok s') : proj s' = options.foldl f (proj s) := by
  induction options generalizing s with
  | nil =>
    cases Except.ok.inj h
    rfl
  | cons o options ih =>
    rw [List.foldlM_cons] at h
    cases hfirst : step s o with
    | error status =>
      rw [hfirst] at h
      contradiction
    | ok first =>
      rw [hfirst] at h
      rw [ih h, hstep s o first hfirst, List.foldl_cons]

/-- A flag that the options of one kind set, and no other changes, tells whether one of them is
there. -/
theorem flag_foldlM {σ ε : Type*} {step : σ → Char × Option Arg → Except ε σ} (flag : σ → Bool)
    (c : Char)
    (hstep : ∀ s o s', step s o = .ok s' → flag s' = (flag s || decide (o.1 = c)))
    {options : List (Char × Option Arg)} {s s' : σ} (h : options.foldlM step s = .ok s') :
    flag s' = (flag s || options.any (·.1 = c)) := by
  rw [proj_foldlM flag (fun set o => set || decide (o.1 = c)) hstep h]
  generalize flag s = set
  clear h hstep
  induction options generalizing set with
  | nil => simp
  | cons o options ih => rw [List.foldl_cons, ih, List.any_cons, Bool.or_assoc]

/-- A value that the options of one kind set, and no other changes, is that of the last of them. -/
theorem value_foldlM {σ β ε : Type*} {step : σ → Char × Option Arg → Except ε σ} (proj : σ → β)
    (c : Char) (read : Arg → β)
    (hstep : ∀ s o s', step s o = .ok s' →
      proj s' = if o.1 = c then read (o.2.getD []) else proj s)
    {options : List (Char × Option Arg)} {s s' : σ} (h : options.foldlM step s = .ok s') :
    proj s' = ((valuesOf c options).getLast?.map read).getD (proj s) := by
  have hfold := proj_foldlM proj (fun b o => if o.1 = c then read (o.2.getD []) else b) hstep h
  have hvalues : options.foldl (fun b o => if o.1 = c then read (o.2.getD []) else b) (proj s) =
      (valuesOf c options).foldl (fun _ value => read value) (proj s) :=
    proj_foldl_options (fun b => b) c (fun _ value => read value) (fun _ _ => rfl) options (proj s)
  rw [hfold, hvalues]
  cases (valuesOf c options).eq_nil_or_concat with
  | inl hnil => simp [hnil]
  | inr hlast =>
    obtain ⟨before, value, hlast⟩ := hlast
    simp [hlast]

end Kerrighed.Common
