import Kerrighed.Common.CNumbers
import Mathlib.Data.List.Infix

/-!
# Capability vectors and their texts

A capability vector is an `int` with one bit for each of twelve capabilities. On the command
line it is given as a number, or as a list of names that replaces the vector, or, behind a
sign, is added to it or taken from it.

A token that is no name only makes the tool print a message: the vector is built from the
other tokens as if it were not there.
-/

namespace Kerrighed.Krgcapset

open Kerrighed.Common

/-- The names of the capabilities, in the order of their bits. -/
def capText : List (List Char) :=
  ["CHANGE_KERRIGHED_CAP".toList, "CAN_MIGRATE".toList, "DISTANT_FORK".toList,
    "FORK_DELAY".toList, "CHECKPOINTABLE".toList, "USE_REMOTE_MEMORY".toList,
    "USE_INTRA_CLUSTER_KERSTREAMS".toList, "USE_INTER_CLUSTER_KERSTREAMS".toList,
    "USE_WORLD_VISIBLE_KERSTREAMS".toList, "SEE_LOCAL_PROC_STAT".toList, "DEBUG".toList,
    "SYSCALL_EXIT_HOOK".toList]

/-- `CAP_CHANGE_KERRIGHED_CAP`. -/
def capChangeKerrighedCap : ℕ := 0

/-- `krg_cap_t`. -/
structure KrgCap where
  effective : BitVec 32
  permitted : BitVec 32
  inheritablePermitted : BitVec 32
  inheritableEffective : BitVec 32
  deriving DecidableEq, Repr

/-- The test of one bit of a vector. -/
def capRaised (capVector : BitVec 32) (cap : ℕ) : Bool := capVector &&& (1#32 <<< cap) ≠ 0#32

/-- The first name that the token starts with: `strncmp` compares as far as the name goes. -/
def matchToken (token : List Char) : Option ℕ := capText.findIdx? (·.isPrefixOf token)

/-- The vector of the names in a comma-separated list. A token without a match adds nothing. -/
def constructCapability (description : List Char) : BitVec 32 :=
  (description.splitOn ',').foldl
    (fun res token =>
      match matchToken token with
      | some i => res ||| (1#32 <<< i)
      | none => res)
    0#32

/-- The vector that a description makes of an old one. -/
def updateCapability (description : List Char) (oldcapability : BitVec 32) : BitVec 32 :=
  match description with
  | '+' :: list => constructCapability list ||| oldcapability
  | '-' :: list => ~~~ constructCapability list &&& oldcapability
  | _ => constructCapability description

/-- The vector that the value of an option makes of an old one: a number, or a description when
something is left behind the number. -/
def optionValue (optarg : List Char) (old : BitVec 32) : BitVec 32 :=
  let r := strtol 0 optarg
  if r.2 ≠ [] then updateCapability optarg old else BitVec.ofInt 32 r.1

/-- The list of names in a description, without its sign. -/
def withoutSign : List Char → List Char
  | '+' :: list => list
  | '-' :: list => list
  | description => description

/-- The value is not a number, and one of the comma-separated tokens behind its sign is not the
name of a capability. -/
def Mistyped (optarg : List Char) : Prop :=
  (strtol 0 optarg).2 ≠ [] ∧ ∃ token ∈ (withoutSign optarg).splitOn ',', token ∉ capText

instance : DecidablePred Mistyped := fun optarg =>
  inferInstanceAs (Decidable ((strtol 0 optarg).2 ≠ [] ∧ ∃ token ∈ _, token ∉ capText))

end Kerrighed.Krgcapset
