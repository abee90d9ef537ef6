import Kerrighed.Common.NameSets
import Kerrighed.Common.Text
import Kerrighed.Krgcapset.Capabilities

/-!
# Lists of capability names

A description is split at its commas and each token is looked up in the table of names. The
comparison goes as far as the name, so a token that continues a name is taken for it: it sets the
bit and is not reported. No name of the table begins another one, and a list is understood
exactly when none of its tokens continues a name.

The vector is a union over the tokens. Adding a list to a vector and taking it away are set
operations, whatever the tokens are.
-/

namespace Kerrighed.Krgcapset

open Kerrighed.Common

/-- The message about a token that is no name. -/
def unrecognizedCapability (token : List Char) : List Char :=
  "Unrecognized capability: ".toList ++ token ++ "\nAuthorized capability names are:\n".toList

/-- One round of the loop: the bit of the name that the token begins with, or the message. -/
def recogniseToken (st : BitVec 32 × List (List Char)) (token : List Char) :
    BitVec 32 × List (List Char) :=
  match matchToken token with
  | some i => (st.1 ||| (1#32 <<< i), st.2)
  | none => (st.1, st.2 ++ [unrecognizedCapability token])

/-- `construct_capability` with the messages that it writes. -/
def constructReporting (description : List Char) : BitVec 32 × List (List Char) :=
  (description.splitOn ',').foldl recogniseToken (0#32, [])

/-- The bits are those of the names that equal a token, and the messages are about the tokens
that equal no name. -/
def MatchedExactly (description : List Char) : Prop :=
  (∀ i, (constructReporting description).1.getLsbD i = true ↔
    ∃ token ∈ description.splitOn ',', capText[i]? = some token) ∧
  (constructReporting description).2 =
    ((description.splitOn ',').filter (· ∉ capText)).map unrecognizedCapability

/-- The token begins with a name and goes on behind it. -/
def ContinuesName (token : List Char) : Prop := ∃ name ∈ capText, name <+: token ∧ name ≠ token

instance : DecidablePred ContinuesName := fun token =>
  inferInstanceAs (Decidable (∃ name ∈ capText, name <+: token ∧ name ≠ token))

/-- No name of a capability begins another one. -/
theorem prefixFree_capText : PrefixFree capText := by
  decide

/-- The names fit into a vector. -/
theorem length_capText_le : capText.length ≤ 32 := by
  decide

/-- The lookup of a token is that of the table of names. -/
theorem matchToken_eq (token : List Char) : matchToken token = prefixIndex capText token := rfl

/-- The vector of a description has the bits of the names that its tokens begin with. -/
theorem constructCapability_eq (description : List Char) :
    constructCapability description = nameBits 32 capText (description.splitOn ',') := rfl

/-- The loop builds the vector beside the messages about the tokens that are not found. -/
theorem foldl_recogniseToken (tokens : List (List Char)) (res : BitVec 32)
    (messages : List (List Char)) :
    tokens.foldl recogniseToken (res, messages) =
      (tokens.foldl (addName capText) res,
        messages ++ (tokens.filter (matchToken · = none)).map unrecognizedCapability) := by
  induction tokens generalizing res messages with
  | nil => simp
  | cons token tokens ih =>
    rw [List.foldl_cons, List.foldl_cons, recogniseToken, addName, ← matchToken_eq]
    cases hmatch : matchToken token with
    | none => simp [hmatch, ih]
    | some i => simp [hmatch, ih]

/-- The vector is the one without the messages, and there is one message for each token that is
not found. -/
theorem constructReporting_eq (description : List Char) :
    constructReporting description =
      (constructCapability description,
        ((description.splitOn ',').filter (matchToken · = none)).map unrecognizedCapability) := by
  rw [constructReporting, foldl_recogniseToken, List.nil_append]
  rfl

/-- A token is not found exactly when it is no name and continues none. -/
theorem matchToken_eq_none_iff {token : List Char} :
    matchToken token = none ↔ token ∉ capText ∧ ¬ ContinuesName token := by
  rw [matchToken_eq, prefixIndex_eq_none_iff]
  constructor
  · intro h
    exact ⟨fun hmem => h token hmem List.prefix_rfl,
      fun ⟨name, hname, hbegins, _⟩ => h name hname hbegins⟩
  · rintro ⟨hmem, hcontinues⟩ name hname hbegins
    refine hcontinues ⟨name, hname, hbegins, ?_⟩
    rintro rfl
    exact hmem hname

/-- A token that continues no name is found at the name that it equals. -/
theorem matchToken_eq_some_iff {token : List Char} (hcontinues : ¬ ContinuesName token) {i : ℕ} :
    matchToken token = some i ↔ capText[i]? = some token := by
  rw [matchToken_eq, prefixIndex_eq_some_iff prefixFree_capText]
  constructor
  · rintro ⟨name, hname, hbegins⟩
    have heq : name = token := by
      by_contra hne
      exact hcontinues ⟨name, List.mem_of_getElem? hname, hbegins, hne⟩
    rw [← heq, hname]
  · intro h
    exact ⟨token, h, List.prefix_rfl⟩

/-- A name continues no other one. -/
theorem not_continuesName_of_mem {token : List Char} (hmem : token ∈ capText) :
    ¬ ContinuesName token := by
  rintro ⟨name, hname, hbegins, hne⟩
  exact hne (prefixFree_capText.eq_of_prefix hname hmem hbegins)

/-- Different tokens have different messages. -/
theorem unrecognizedCapability_injective : Function.Injective unrecognizedCapability := by
  intro a b h
  exact List.append_cancel_left (List.append_cancel_right h)

/-- The bits are those of the names that equal a token, where no token continues a name. -/
theorem getLsbD_constructCapability {description : List Char}
    (hexact : ∀ token ∈ description.splitOn ',', ¬ ContinuesName token) (i : ℕ) :
    (constructCapability description).getLsbD i = true ↔
      ∃ token ∈ description.splitOn ',', capText[i]? = some token := by
  rw [constructCapability_eq, getLsbD_nameBits length_capText_le]
  constructor
  · rintro ⟨token, htoken, hmatch⟩
    exact ⟨token, htoken, (matchToken_eq_some_iff (hexact token htoken)).mp hmatch⟩
  · rintro ⟨token, htoken, hname⟩
    exact ⟨token, htoken, (matchToken_eq_some_iff (hexact token htoken)).mpr hname⟩

/-- The tokens that are not found are those that equal no name, exactly when none of them continues
a name. -/
theorem filter_matchToken_iff (tokens : List (List Char)) :
    tokens.filter (matchToken · = none) = tokens.filter (· ∉ capText) ↔
      ∀ token ∈ tokens, ¬ ContinuesName token := by
  constructor
  · intro hfilter token htoken hcontinues
    have hnot : token ∉ capText := fun hmem => not_continuesName_of_mem hmem hcontinues
    have hmem : token ∈ tokens.filter (· ∉ capText) :=
      List.mem_filter.mpr ⟨htoken, by simpa using hnot⟩
    rw [← hfilter, List.mem_filter, decide_eq_true_eq, matchToken_eq_none_iff] at hmem
    exact hmem.2.2 hcontinues
  · intro hexact
    apply List.filter_congr
    intro token htoken
    rw [decide_eq_decide, matchToken_eq_none_iff]
    exact and_iff_left (hexact token htoken)

/-- A description is understood exactly when none of its tokens continues a name. -/
theorem matchedExactly_iff (description : List Char) :
    MatchedExactly description ↔ ∀ token ∈ description.splitOn ',', ¬ ContinuesName token := by
  have hmessages := List.map_injective_iff.mpr unrecognizedCapability_injective
  rw [MatchedExactly, constructReporting_eq, hmessages.eq_iff, filter_matchToken_iff]
  constructor
  · intro h
    exact h.2
  · intro hexact
    exact ⟨getLsbD_constructCapability hexact, hexact⟩

/-- A token that continues `CAN_MIGRATE` sets its bit, and there is no message. -/
theorem continued_name_taken :
    ¬ MatchedExactly "CAN_MIGRATED".toList ∧
      constructReporting "CAN_MIGRATED".toList = (2#32, []) := by
  refine ⟨?_, by decide⟩
  rintro ⟨hbits, -⟩
  obtain ⟨token, htoken, hname⟩ := (hbits 1).mp (by decide)
  revert token
  decide

/-- A list behind a comma adds its names to those before it. -/
theorem constructCapability_append_comma (a b : List Char) :
    constructCapability (a ++ ',' :: b) = constructCapability a ||| constructCapability b := by
  rw [constructCapability_eq, splitOn_append_cons, nameBits_append length_capText_le]
  rfl

/-- Lists with the same tokens have the same vector. -/
theorem constructCapability_congr {a b : List Char}
    (h : ∀ token, token ∈ a.splitOn ',' ↔ token ∈ b.splitOn ',') :
    constructCapability a = constructCapability b := by
  rw [constructCapability_eq, nameBits_congr length_capText_le h]
  rfl

/-- A plus sign adds the names of the list. -/
theorem updateCapability_plus (list : List Char) (c : BitVec 32) :
    updateCapability ('+' :: list) c = c ||| constructCapability list := by
  rw [updateCapability, BitVec.or_comm]

/-- A minus sign takes the names of the list away. -/
theorem updateCapability_minus (list : List Char) (c : BitVec 32) :
    updateCapability ('-' :: list) c = c &&& ~~~ constructCapability list := by
  rw [updateCapability, BitVec.and_comm]

/-- What was added is of no account to what is taken away behind it. -/
theorem or_and_not_self (c x : BitVec 32) : (c ||| x) &&& ~~~ x = c &&& ~~~ x := by
  rw [BitVec.and_or_distrib_right, BitVec.and_not_self]
  exact BitVec.or_zero

/-- The laws of capability lists: a comma joins lists, a plus sign adds and a minus sign takes
away, and a list counts as the set of its tokens. -/
theorem capability_list_laws (a b : List Char) (c : BitVec 32) :
    constructCapability (a ++ ',' :: b) = constructCapability a ||| constructCapability b ∧
      updateCapability ('+' :: a) c = c ||| constructCapability a ∧
      updateCapability ('-' :: a) c = c &&& ~~~ constructCapability a ∧
      ((∀ token, token ∈ a.splitOn ',' ↔ token ∈ b.splitOn ',') →
        constructCapability a = constructCapability b ∧
          updateCapability ('+' :: a) c = updateCapability ('+' :: b) c ∧
          updateCapability ('-' :: a) c = updateCapability ('-' :: b) c) ∧
      updateCapability ('+' :: a) (updateCapability ('+' :: a) c) = updateCapability ('+' :: a) c ∧
      updateCapability ('-' :: a) (updateCapability ('-' :: a) c) = updateCapability ('-' :: a) c ∧
      updateCapability ('-' :: a) (updateCapability ('+' :: a) c) = updateCapability ('-' :: a) c ∧
      updateCapability ('+' :: b) (updateCapability ('+' :: a) c) =
        updateCapability ('+' :: (a ++ ',' :: b)) c := by
  simp only [updateCapability_plus, updateCapability_minus]
  refine ⟨constructCapability_append_comma a b, trivial, trivial, fun h => ?_, ?_, ?_, ?_, ?_⟩
  · rw [constructCapability_congr h]
    exact ⟨rfl, rfl, rfl⟩
  · rw [BitVec.or_assoc, BitVec.or_self]
  · rw [BitVec.and_assoc, BitVec.and_self]
  · exact or_and_not_self c _
  · rw [constructCapability_append_comma, BitVec.or_assoc]

end Kerrighed.Krgcapset
