import Kerrighed.Krgcapset.Lists
import Kerrighed.Krgcapset.Main

/-!
# The four set options

The options `-e`, `-p`, `-i` and `-d` each change a vector of their own: what the kernel is given
for it is the initial vector with the values of that one option applied in their order. The
options of the other kinds leave it alone, so an order between options of different kinds makes
no difference, not even to the question that is asked.

What a value does to a vector is said by `Applies`, bit by bit: a number is the vector, and a list of
names is one, or is added, or is taken away.
-/

namespace Kerrighed.Krgcapset

open Kerrighed.Common

/-- The list has a token that begins with the name of a capability. -/
def Lists (list : List Char) (i : ℕ) : Prop :=
  ∃ token ∈ list.splitOn ',', ∃ name, capText[i]? = some name ∧ name <+: token

/-- What the value of an option does to a vector. A text that is a number to its end is the new
vector; of any other text the sign and the names count. -/
inductive Applies : Arg → BitVec 32 → BitVec 32 → Prop where
  | number {value : Arg} {n : ℤ} {old : BitVec 32} (h : strtol 0 value = (n, [])) :
    Applies value old (BitVec.ofInt 32 n)
  | added {list : Arg} {old new : BitVec 32} (h : (strtol 0 ('+' :: list)).2 ≠ [])
    (hnew : ∀ i, new.getLsbD i = true ↔ old.getLsbD i = true ∨ Lists list i) :
    Applies ('+' :: list) old new
  | removed {list : Arg} {old new : BitVec 32} (h : (strtol 0 ('-' :: list)).2 ≠ [])
    (hnew : ∀ i, new.getLsbD i = true ↔ old.getLsbD i = true ∧ ¬ Lists list i) :
    Applies ('-' :: list) old new
  | replaced {value : Arg} {old new : BitVec 32} (h : (strtol 0 value).2 ≠ [])
    (hsign : value.head? ≠ some '+' ∧ value.head? ≠ some '-')
    (hnew : ∀ i, new.getLsbD i = true ↔ Lists value i) : Applies value old new

/-- What some values do to a vector, one after the other. -/
inductive AppliesAll : List Arg → BitVec 32 → BitVec 32 → Prop where
  | nil {vector : BitVec 32} : AppliesAll [] vector vector
  | cons {value : Arg} {rest : List Arg} {old mid new : BitVec 32} (hvalue : Applies value old mid)
    (hrest : AppliesAll rest mid new) : AppliesAll (value :: rest) old new

/-- The vectors that the options make of the initial ones, each by the values of its own options. -/
structure MadeBy (options : List (Char × Option Arg)) (initial caps : KrgCap) : Prop where
  effective : AppliesAll (valuesOf 'e' options) initial.effective caps.effective
  permitted : AppliesAll (valuesOf 'p' options) initial.permitted caps.permitted
  inheritablePermitted :
    AppliesAll (valuesOf 'i' options) initial.inheritablePermitted caps.inheritablePermitted
  inheritableEffective :
    AppliesAll (valuesOf 'd' options) initial.inheritableEffective caps.inheritableEffective

/-- The values of the options of one kind applied in order to a vector. -/
def applied (c : Char) (options : List (Char × Option Arg)) (initial : BitVec 32) : BitVec 32 :=
  (valuesOf c options).foldl (fun vector value => optionValue value vector) initial

/-- The values of each set option applied to its own vector. -/
def appliedCaps (options : List (Char × Option Arg)) (initial : KrgCap) : KrgCap where
  effective := applied 'e' options initial.effective
  permitted := applied 'p' options initial.permitted
  inheritablePermitted := applied 'i' options initial.inheritablePermitted
  inheritableEffective := applied 'd' options initial.inheritableEffective

/-- The vector of a list has the bits of the names in it. -/
theorem getLsbD_constructCapability_lists (list : List Char) (i : ℕ) :
    (constructCapability list).getLsbD i = true ↔ Lists list i := by
  rw [constructCapability_eq, getLsbD_nameBits length_capText_le]
  exact exists_congr fun token => and_congr_right fun _ => prefixIndex_eq_some_iff prefixFree_capText

/-- The value of an option is applied. -/
theorem applies_optionValue (value : Arg) (old : BitVec 32) :
    Applies value old (optionValue value old) := by
  by_cases hnumber : (strtol 0 value).2 = []
  · have hvalue : optionValue value old = BitVec.ofInt 32 (strtol 0 value).1 := by
      simp [optionValue, hnumber]
    rw [hvalue]
    exact .number (Prod.ext rfl hnumber)
  · have hvalue : optionValue value old = updateCapability value old := by
      simp [optionValue, hnumber]
    rw [hvalue]
    unfold updateCapability
    split
    · refine .added hnumber fun i => ?_
      rw [BitVec.getLsbD_or, Bool.or_eq_true, getLsbD_constructCapability_lists, or_comm]
    · refine .removed hnumber fun i => ?_
      rw [← getLsbD_constructCapability_lists, BitVec.getLsbD_and, BitVec.getLsbD_not]
      by_cases hi : i < 32
      · simp [hi, and_comm]
      · simp [hi, BitVec.getLsbD_of_ge old i (not_lt.mp hi)]
    · rename_i hplus hminus
      refine .replaced hnumber ⟨?_, ?_⟩ (getLsbD_constructCapability_lists value)
      · intro hhead
        obtain ⟨list, rfl⟩ := List.head?_eq_some_iff.mp hhead
        exact hplus list rfl
      · intro hhead
        obtain ⟨list, rfl⟩ := List.head?_eq_some_iff.mp hhead
        exact hminus list rfl

/-- The values of options are applied in their order. -/
theorem appliesAll_foldl (values : List Arg) (vector : BitVec 32) :
    AppliesAll values vector
      (values.foldl (fun vector value => optionValue value vector) vector) := by
  induction values generalizing vector with
  | nil => exact .nil
  | cons value rest ih => exact .cons (applies_optionValue value vector) (ih _)

/-- The vectors after all options are made by the values of their kinds. -/
theorem madeBy_appliedCaps (options : List (Char × Option Arg)) (initial : KrgCap) :
    MadeBy options initial (appliedCaps options initial) where
  effective := appliesAll_foldl _ _
  permitted := appliesAll_foldl _ _
  inheritablePermitted := appliesAll_foldl _ _
  inheritableEffective := appliesAll_foldl _ _

/-- Options of which there is none leave their vector alone. -/
theorem eq_of_absent {c : Char} {options : List (Char × Option Arg)} (h : ∀ o ∈ options, o.1 ≠ c)
    {old new : BitVec 32} (happlies : AppliesAll (valuesOf c options) old new) : new = old := by
  rw [valuesOf_eq_nil_iff.mpr h] at happlies
  cases happlies
  rfl

/-- One option applies its value to the vector of its kind and leaves the others. -/
theorem applyOption_eq (caps : KrgCap) (o : Char × Option Arg) :
    applyOption caps o =
      { effective :=
          if o.1 = 'e' then optionValue (o.2.getD []) caps.effective else caps.effective
        permitted :=
          if o.1 = 'p' then optionValue (o.2.getD []) caps.permitted else caps.permitted
        inheritablePermitted :=
          if o.1 = 'i' then optionValue (o.2.getD []) caps.inheritablePermitted
          else caps.inheritablePermitted
        inheritableEffective :=
          if o.1 = 'd' then optionValue (o.2.getD []) caps.inheritableEffective
          else caps.inheritableEffective } := by
  unfold applyOption
  split <;> simp_all

/-- The vectors after all options are those that each kind makes of its own. -/
theorem foldl_applyOption (options : List (Char × Option Arg)) (initial : KrgCap) :
    options.foldl applyOption initial = appliedCaps options initial := by
  let applyValue : BitVec 32 → Arg → BitVec 32 := fun vector value => optionValue value vector
  have heffective := proj_foldl_options KrgCap.effective 'e' applyValue
    (fun s o => congrArg KrgCap.effective (applyOption_eq s o)) options initial
  have hpermitted := proj_foldl_options KrgCap.permitted 'p' applyValue
    (fun s o => congrArg KrgCap.permitted (applyOption_eq s o)) options initial
  have hinheritablePermitted := proj_foldl_options KrgCap.inheritablePermitted 'i' applyValue
    (fun s o => congrArg KrgCap.inheritablePermitted (applyOption_eq s o)) options initial
  have hinheritableEffective := proj_foldl_options KrgCap.inheritableEffective 'd' applyValue
    (fun s o => congrArg KrgCap.inheritableEffective (applyOption_eq s o)) options initial
  rw [appliedCaps, applied, applied, applied, applied, ← heffective, ← hpermitted,
    ← hinheritablePermitted, ← hinheritableEffective]

/-- The vectors depend on nothing but the arguments of each kind. -/
theorem appliedCaps_congr {a b : List (Char × Option Arg)} (h : SameArguments a b)
    (initial : KrgCap) : appliedCaps a initial = appliedCaps b initial := by
  simp only [appliedCaps, applied, h _]

/-- The first pass depends on nothing but the arguments of each kind, where it accepts. -/
theorem firstPass_congr {a b : List (Char × Option Arg)} (h : SameArguments a b)
    {args args' : Args} (hfirst : firstPass a args = .ok args') : firstPass b args = .ok args' := by
  rw [firstPass_eq_ok_iff] at hfirst ⊢
  have hall : a.all (isAccepted ·.1) = b.all (isAccepted ·.1) := by
    simpa [List.all_eq_not_any_not] using h.any_eq fun c => !isAccepted c
  rwa [← hall, ← h 'k', ← h.any_eq (· = 's'), ← h.any_eq isSetOption, ← h.any_eq (· = 'f')]

/-- Behind the first pass, the outcome is that of one request for the applied vectors. -/
theorem setOrShow_eq {options : List (Char × Option Arg)} {args : Args}
    (hfirst : firstPass options .start = .ok args) (fuel : ℕ) (env : Environment) :
    setOrShow fuel env options args =
      if env.capGetSupported ≠ 0 then some ⟨env.capGetSupported, []⟩
      else if env.capget ≠ 0 then some ⟨env.capget, []⟩
      else if options.any (isSetOption ·.1) then
        confirmAndSet fuel env args (appliedCaps options env.initialCaps)
      else some ⟨0, []⟩ := by
  obtain ⟨haccepted, -, -, hset, -⟩ := firstPass_eq_ok_iff.mp hfirst
  have hset : args.setFlag = options.any (isSetOption ·.1) := by simpa [Args.start] using hset
  rw [setOrShow, secondPass_eq haccepted, foldl_applyOption, hset]
  cases options.any (isSetOption ·.1) with
  | false => rfl
  | true => rfl

/-- Behind the first pass the tool ends, with one request for the applied vectors or with none; it
makes the request exactly when the kernel answers, a set option is given and the request is not
declined. -/
theorem setOrShow_requests {options : List (Char × Option Arg)} {args : Args}
    (hfirst : firstPass options .start = .ok args) {env : Environment} {fuel : ℕ}
    (hfuel : env.stdin.length < fuel) :
    ∃ o, setOrShow fuel env options args = some o ∧
      (o.requests = [] ∨ o.requests = [(args.pid, appliedCaps options env.initialCaps)]) ∧
      (o.requests ≠ [] ↔ env.capGetSupported = 0 ∧ env.capget = 0 ∧
        options.any (isSetOption ·.1) = true ∧
          ¬ Declined env args (appliedCaps options env.initialCaps)) := by
  rw [setOrShow_eq hfirst]
  by_cases hsupported : env.capGetSupported = 0
  · by_cases hget : env.capget = 0
    · cases hany : options.any (isSetOption ·.1) with
      | false => simp [hsupported, hget]
      | true =>
        obtain ⟨o, hend, h⟩ := confirmAndSet_eq hfuel args (appliedCaps options env.initialCaps)
        refine ⟨o, by simpa [hsupported, hget] using hend, ?_⟩
        rcases h with ⟨hdeclined, hnone⟩ | ⟨hdeclined, hone⟩
        · simp [hnone, hdeclined]
        · simp [hone, hdeclined, hsupported, hget]
    · simp [hsupported, hget]
  · simp [hsupported]

/-- The outcome depends on nothing but the arguments of each kind. -/
theorem setOrShow_congr {a b : List (Char × Option Arg)} (h : SameArguments a b) {args : Args}
    (hfirst : firstPass a .start = .ok args) (fuel : ℕ) (env : Environment) :
    setOrShow fuel env b args = setOrShow fuel env a args := by
  rw [setOrShow_eq (firstPass_congr h hfirst), setOrShow_eq hfirst, appliedCaps_congr h,
    h.any_eq isSetOption]

/-- Behind the first pass the tool ends with at most one request. It is for the vectors that the values
of each kind of options make of the initial ones, a vector without options is the initial one, and
neither the acceptance nor the outcome changes with the order between options of different kinds. -/
theorem set_options_own_vectors {options : List (Char × Option Arg)} {args : Args}
    (hfirst : firstPass options .start = .ok args) :
    (∀ env fuel, env.stdin.length < fuel →
      ∃ caps o, MadeBy options env.initialCaps caps ∧ setOrShow fuel env options args = some o ∧
        (o.requests = [] ∨ o.requests = [(args.pid, caps)]) ∧
        (o.requests ≠ [] ↔ env.capGetSupported = 0 ∧ env.capget = 0 ∧
          options.any (isSetOption ·.1) = true ∧ ¬ Declined env args caps)) ∧
      (∀ c, (∀ o ∈ options, o.1 ≠ c) →
        ∀ old new, AppliesAll (valuesOf c options) old new → new = old) ∧
      ∀ reordered, SameArguments options reordered →
        firstPass reordered .start = .ok args ∧
          ∀ fuel env, setOrShow fuel env reordered args = setOrShow fuel env options args := by
  refine ⟨fun env fuel hfuel => ?_, fun c h old new happlies => eq_of_absent h happlies,
    fun reordered hsame => ⟨firstPass_congr hsame hfirst, setOrShow_congr hsame hfirst⟩⟩
  obtain ⟨o, hend, hrequests⟩ := setOrShow_requests hfirst hfuel
  exact ⟨_, o, madeBy_appliedCaps options env.initialCaps, hend, hrequests⟩

/-- Taking a capability from the permitted vector leaves the inheritable one alone, and the option for
the effective vector may come before or behind it. -/
theorem swapped_options_same_outcome :
    ∃ caps, setOrShow 1 (allCaps []) [('p', some "-DEBUG".toList), ('e', some "+DEBUG".toList)]
          ⟨-1, false, true, false⟩ = some ⟨0, [(-1, caps)]⟩ ∧
        setOrShow 1 (allCaps []) [('e', some "+DEBUG".toList), ('p', some "-DEBUG".toList)]
          ⟨-1, false, true, false⟩ = some ⟨0, [(-1, caps)]⟩ ∧
        AppliesAll ["-DEBUG".toList] 4095 caps.permitted ∧ caps.inheritablePermitted = 4095 := by
  have haccepted : firstPass [('p', some "-DEBUG".toList), ('e', some "+DEBUG".toList)] .start =
      .ok ⟨-1, false, true, false⟩ := by decide
  obtain ⟨houtcome, habsent, hreorder⟩ := set_options_own_vectors haccepted
  obtain ⟨caps, o, hmade, hend, hrequests, hiff⟩ := houtcome (allCaps []) 1 (by decide)
  have hfirst : setOrShow 1 (allCaps []) [('p', some "-DEBUG".toList), ('e', some "+DEBUG".toList)]
      ⟨-1, false, true, false⟩ = some ⟨0, [(-1, ⟨4095, 3071, 4095, 4095⟩)]⟩ := by decide
  obtain rfl := Option.some.inj (hend.symm.trans hfirst)
  obtain rfl : caps = ⟨4095, 3071, 4095, 4095⟩ := by simpa [eq_comm] using hrequests
  exact ⟨_, hfirst, ((hreorder _ (sameArguments_swap (by decide) [])).2 1 (allCaps [])).trans hfirst,
    hmade.permitted, habsent 'i' (by decide) _ _ hmade.inheritablePermitted⟩

end Kerrighed.Krgcapset
