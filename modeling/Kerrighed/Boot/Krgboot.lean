import Kerrighed.Common.Getopt
import Kerrighed.Common.Words
import Mathlib.Data.Nat.Bitwise

/-!
# Starting the container

`krgboot` takes an option for each kind of namespace that the container shall be isolated from,
collects the flags for `clone` in a mask, and runs the helper that the rest of its arguments name.

The options, the flags and the namespaces are three descriptions of one set. The result about them is
that the mask has exactly the flags of the namespaces whose options were given, whatever the order and
the number of the options.
-/

namespace Kerrighed.Boot

open Kerrighed.Common

/-- The kinds of namespaces, in the order in which the helper script goes through them. -/
inductive Namespace where
  | uts
  | ipc
  | mnt
  | pid
  | net
  | user
  deriving DecidableEq, Repr

/-- All kinds of namespaces. -/
def Namespace.all : List Namespace := [.uts, .ipc, .mnt, .pid, .net, .user]

/-- The number of the bit that `CLONE_NEWUTS` and the other flags have. -/
def Namespace.bit : Namespace → ℕ
  | .uts => 26
  | .ipc => 27
  | .mnt => 17
  | .pid => 29
  | .net => 30
  | .user => 28

/-- The flag for `clone`. -/
def Namespace.cloneFlag (ns : Namespace) : ℕ := 2 ^ ns.bit

/-- The option of `krgboot`. -/
def Namespace.letter : Namespace → Char
  | .uts => 'u'
  | .ipc => 'i'
  | .mnt => 'm'
  | .pid => 'p'
  | .net => 'n'
  | .user => 'U'

/-- The options of `krgboot`, which has no long ones. -/
def options : OptTable where
  short := [('h', .noArgument), ('v', .noArgument), ('u', .noArgument), ('i', .noArgument),
    ('m', .noArgument), ('p', .noArgument), ('n', .noArgument), ('U', .noArgument)]
  long := []

/-- One option: the flags with its own, or the status with which the program exits. -/
def applyOption (nsCloneFlags : ℕ) (opt : Char) : Except ℤ ℕ :=
  match opt with
  | 'h' => .error 0
  | 'v' => .error 0
  | 'u' => .ok (nsCloneFlags ||| Namespace.uts.cloneFlag)
  | 'i' => .ok (nsCloneFlags ||| Namespace.ipc.cloneFlag)
  | 'm' => .ok (nsCloneFlags ||| Namespace.mnt.cloneFlag)
  | 'p' => .ok (nsCloneFlags ||| Namespace.pid.cloneFlag)
  | 'n' => .ok (nsCloneFlags ||| Namespace.net.cloneFlag)
  | 'U' => .ok (nsCloneFlags ||| Namespace.user.cloneFlag)
  | _ => .error 1

/-- The flags and the arguments of the helper, or the status with which the program exits. -/
def getConfig (argv : List Arg) : Except ℤ (ℕ × List Arg) :=
  let parsed := getoptLong options argv
  match parsed.options.foldlM (fun flags opt => applyOption flags opt.1) 0 with
  | .error status => .error status
  | .ok nsCloneFlags => if parsed.failed then .error 1 else .ok (nsCloneFlags, parsed.operands)

/-- What the calls of the kernel return, and which commands can be executed. -/
structure Kernel where
  krgCheckHotplug : ℤ
  krgCheckContainer : ℤ
  krgSetClusterCreator : ℤ
  clone : ℤ
  execvp : List Arg → Bool

/-- How a process ends: it exits, it has cloned one that ends in its own way, or it executes a
command. -/
inductive Ending where
  | exit (status : ℤ)
  | cloned (flags : ℕ) (child : Ending)
  | executed (argv : List Arg)
  deriving DecidableEq, Repr

/-- Execute the helper, and exit where that fails. -/
def doExecHelper (kernel : Kernel) (argv : List Arg) : Ending :=
  if kernel.execvp argv then .executed argv else .exit 1

/-- `SIGCHLD`. -/
def sigchld : ℕ := 17

/-- The program, on the arguments behind its name. -/
def krgboot (kernel : Kernel) (argv : List Arg) : Ending :=
  match getConfig argv with
  | .error status => .exit status
  | .ok (nsCloneFlags, helper) =>
    if helper = [] then .exit 1
    else if kernel.krgCheckHotplug = 0 then .exit 1
    else if kernel.krgCheckContainer = 0 then .exit 1
    else if kernel.krgSetClusterCreator ≠ 0 then .exit 1
    else if nsCloneFlags ≠ 0 then
      if kernel.clone < 0 then .exit 1
      else .cloned (nsCloneFlags ||| sigchld) (doExecHelper kernel helper)
    else doExecHelper kernel helper

/-- The kernel lets a container be started. -/
def Kernel.Allows (kernel : Kernel) : Prop :=
  kernel.krgCheckHotplug ≠ 0 ∧ kernel.krgCheckContainer ≠ 0 ∧ kernel.krgSetClusterCreator = 0 ∧
    0 ≤ kernel.clone

instance (kernel : Kernel) : Decidable kernel.Allows :=
  inferInstanceAs (Decidable (_ ∧ _ ∧ _ ∧ _))

/-- The namespaces that a mask of flags isolates from. -/
def isolated (flags : ℕ) (ns : Namespace) : Bool := flags.testBit ns.bit

/-- Different namespaces have different bits. -/
theorem bit_injective : Function.Injective Namespace.bit := by
  intro a b h
  revert h
  cases a <;> cases b <;> decide

/-- The option of a namespace adds its flag. -/
theorem applyOption_letter (flags : ℕ) (ns : Namespace) :
    applyOption flags ns.letter = .ok (flags ||| ns.cloneFlag) := by
  cases ns <;> rfl

/-- A flag isolates from its namespace, besides those that the other flags isolate from. -/
theorem isolated_lor (flags : ℕ) (ns other : Namespace) :
    isolated (flags ||| ns.cloneFlag) other = (isolated flags other || decide (ns = other)) := by
  rw [isolated, isolated, Nat.testBit_lor, Namespace.cloneFlag, Nat.testBit_two_pow]
  congr 1
  exact decide_eq_decide.mpr bit_injective.eq_iff

/-- The options of some namespaces add their flags. -/
theorem foldlM_letters (namespaces : List Namespace) (flags : ℕ) :
    ∃ last, (namespaces.map fun ns => (ns.letter, (none : Option Arg))).foldlM
        (fun flags opt => applyOption flags opt.1) flags = .ok last ∧
      ∀ ns, isolated last ns = (isolated flags ns || decide (ns ∈ namespaces)) := by
  induction namespaces generalizing flags with
  | nil => exact ⟨flags, rfl, by simp⟩
  | cons first rest ih =>
    obtain ⟨last, hfold, hlast⟩ := ih (flags ||| first.cloneFlag)
    refine ⟨last, ?_, fun ns => ?_⟩
    · rw [List.map_cons, List.foldlM_cons, applyOption_letter]
      exact hfold
    · rw [hlast, isolated_lor, Bool.or_assoc]
      congr 1
      by_cases hns : first = ns
      · simp [hns]
      · simp [hns, Ne.symm hns]

/-- Options of namespaces before `--` are all read, and nothing behind it is read as an option. -/
theorem getoptLong_letters (namespaces : List Namespace) (helper : List Arg) :
    getoptLong options (namespaces.map (fun ns => ['-', ns.letter]) ++ "--".toList :: helper) =
      ⟨namespaces.map fun ns => (ns.letter, none), false, helper⟩ := by
  induction namespaces with
  | nil => rfl
  | cons first rest ih =>
    have helement : element options ['-', first.letter] =
        .options [(first.letter, none)] .complete := by
      cases first <;> rfl
    rw [List.map_cons, List.cons_append, getoptLong, helement]
    simp only [ih]
    rfl

/-- The flags are those of the namespaces whose options were given, and the helper is what stands
behind `--`. -/
theorem getConfig_letters (namespaces : List Namespace) (helper : List Arg) :
    ∃ flags, getConfig (namespaces.map (fun ns => ['-', ns.letter]) ++ "--".toList :: helper) =
        .ok (flags, helper) ∧ (∀ ns, isolated flags ns = decide (ns ∈ namespaces)) ∧
        (namespaces = [] → flags = 0) := by
  obtain ⟨flags, hfold, hflags⟩ := foldlM_letters namespaces 0
  refine ⟨flags, ?_, fun ns => ?_, fun hempty => ?_⟩
  · simp only [getConfig, getoptLong_letters, hfold]
    rfl
  · simpa [isolated] using hflags ns
  · rw [hempty] at hfold
    exact (Except.ok.inj hfold).symm

/-- The signal number is no flag of a namespace. -/
@[simp]
theorem isolated_sigchld (flags : ℕ) (ns : Namespace) :
    isolated (flags ||| sigchld) ns = isolated flags ns := by
  have hsig : sigchld.testBit ns.bit = false := by cases ns <;> decide
  rw [isolated, Nat.testBit_lor, hsig, Bool.or_false, isolated]

end Kerrighed.Boot
