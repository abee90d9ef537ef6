import Kerrighed.Common.Buffers

/-!
# The version of the running kernel

Every tool is linked with the library whose constructor compares the version the tools are built for
with the one that the running kernel shows in a file. A tool of another version leaves before its
`main` is called.

The last byte that was read counts as the newline behind the version, whatever it is. The comparison
is bounded by what is before that byte, and it ends at the end of the version of the tools.
-/

namespace Kerrighed.Tools

open Kerrighed.Common

/-- A version of the tools, for `KERRIGHED_ABI`. -/
structure Abi where
  text : List Char
  nonempty : text ≠ []
  noNul : '\x00' ∉ text
  short : text.length < 255

/-- The version in `version.h`. -/
def kerrighedAbi : Abi := ⟨['1'], by simp, by decide, by simp⟩

/-- The file `/sys/kerrighed/abi`. -/
inductive AbiFile where
  | missing
  | unreadable
  | content (bytes : List Char)

/-- What the library's constructor does with a tool. -/
inductive Start where
  | goesOn
  | exits (stderr : String) (status : ℤ)
  deriving DecidableEq

variable (abi : Abi)

/-- Compare the version of the kernel with the one of the tools: −1 when they differ or the file
cannot be read. There is no result when the comparison reads more of the buffer than was filled. -/
def checkAbiVersion : AbiFile → Option ℤ
  | .missing => some (-1)
  | .unreadable => some (-1)
  | .content bytes =>
    let version := bytes.take 256
    if version.length < 2 then some (-1)
    else do
      let ret ← strncmp (version.length - 1) version (abi.text ++ ['\x00'])
      if ret ≠ 0 then some (-1) else some 0

/-- The constructor of the library. -/
def initKrgLib (file : AbiFile) : Option Start := do
  let ret ← checkAbiVersion abi file
  if ret ≠ 0 then some (.exits "kerrighed: tools and kernel version mismatch\n" 1)
  else some .goesOn

/-- The content can be mistaken for the version of the tools and a newline: it is a part of the
version from its start on and one byte, or the version, a NUL and at least one more byte. -/
def Mistakable (content : List Char) : Prop :=
  (∃ version last, content = version ++ [last] ∧ version ≠ [] ∧ version <+: abi.text ∧
    (version ≠ abi.text ∨ last ≠ '\n')) ∨
  ∃ next rest, content = abi.text ++ '\x00' :: next :: rest

variable {abi}

/-- The comparison ends before it leaves what was read. -/
theorem checkAbiVersion_isSome (file : AbiFile) : (checkAbiVersion abi file).isSome := by
  cases file with
  | missing => rfl
  | unreadable => rfl
  | content bytes =>
    simp only [checkAbiVersion]
    split_ifs with hshort
    · rfl
    · have hsome := @strncmp_isSome _ _ abi.text (Nat.sub_le (bytes.take 256).length 1)
      obtain ⟨ret, hret⟩ := Option.isSome_iff_exists.mp hsome
      rw [hret, Option.bind_eq_bind, Option.bind_some]
      split_ifs <;> rfl

/-- A version is accepted when what was read, without its last byte, agrees with the version of the
tools. -/
theorem checkAbiVersion_content_iff (bytes : List Char) :
    checkAbiVersion abi (.content bytes) = some 0 ↔ 2 ≤ (bytes.take 256).length ∧
      ((bytes.take 256).dropLast <+: abi.text ∨
        abi.text ++ ['\x00'] <+: (bytes.take 256).dropLast) := by
  simp only [checkAbiVersion, List.dropLast_eq_take]
  rw [← strncmp_eq_zero_iff (Nat.sub_le _ 1) abi.noNul]
  split_ifs with hshort
  · have hnot : ¬ 2 ≤ (bytes.take 256).length := by omega
    simp only [hnot, false_and]
    decide
  · have hlong : 2 ≤ (bytes.take 256).length := by omega
    simp only [hlong, true_and]
    cases strncmp ((bytes.take 256).length - 1) (bytes.take 256) (abi.text ++ ['\x00']) with
    | none => simp
    | some ret => by_cases hret : ret = 0 <;> simp [hret]

/-- The contents whose comparison ends inside the version. -/
theorem checkAbiVersion_cut_iff (bytes : List Char) :
    (2 ≤ (bytes.take 256).length ∧ (bytes.take 256).dropLast <+: abi.text) ↔
      ∃ version last, bytes = version ++ [last] ∧ version ≠ [] ∧ version <+: abi.text := by
  have hshort := abi.short
  constructor
  · rintro ⟨hlong, hprefix⟩
    have hlength := hprefix.length_le
    simp only [List.length_dropLast, List.length_take] at hlength hlong
    have htake : bytes.take 256 = bytes := List.take_of_length_le (by omega)
    rw [htake] at hprefix
    have hne : bytes ≠ [] := by
      intro hnil
      simp [hnil] at hlong
    refine ⟨bytes.dropLast, bytes.getLast hne, (List.dropLast_concat_getLast hne).symm, ?_, hprefix⟩
    intro hnil
    have hzero := congrArg List.length hnil
    simp only [List.length_dropLast, List.length_nil] at hzero
    omega
  · rintro ⟨version, last, rfl, hne, hprefix⟩
    have hlength := hprefix.length_le
    have hpos := List.length_pos_iff.mpr hne
    have htake : (version ++ [last]).take 256 = version ++ [last] :=
      List.take_of_length_le (by simp; omega)
    rw [htake, List.dropLast_concat, List.length_append, List.length_singleton]
    exact ⟨by omega, hprefix⟩

/-- The contents whose comparison ends at the end of the version. -/
theorem checkAbiVersion_behind_iff (bytes : List Char) :
    (2 ≤ (bytes.take 256).length ∧ abi.text ++ ['\x00'] <+: (bytes.take 256).dropLast) ↔
      ∃ next rest, bytes = abi.text ++ '\x00' :: next :: rest := by
  have hshort := abi.short
  constructor
  · rintro ⟨hlong, more, hmore⟩
    have hne : bytes.take 256 ≠ [] := by
      intro hnil
      simp [hnil] at hlong
    have hread : bytes = (bytes.take 256).dropLast ++ [(bytes.take 256).getLast hne] ++
        bytes.drop 256 := by
      rw [List.dropLast_concat_getLast, List.take_append_drop]
    rw [← hmore] at hread
    cases more with
    | nil => exact ⟨_, _, by simpa using hread⟩
    | cons next more => exact ⟨next, _, by simpa using hread⟩
  · rintro ⟨next, rest, rfl⟩
    have htake : (abi.text ++ '\x00' :: next :: rest).take 256 =
        abi.text ++ ['\x00'] ++ next :: rest.take (254 - abi.text.length) := by
      have hroom : 256 - abi.text.length = 254 - abi.text.length + 1 + 1 := by omega
      rw [List.take_append, List.take_of_length_le (by omega), hroom]
      simp
    rw [htake, List.dropLast_append_of_ne_nil (by simp)]
    exact ⟨by simp; omega, List.prefix_append _ _⟩

/-- The contents that are accepted. -/
theorem checkAbiVersion_eq_zero_iff (bytes : List Char) :
    checkAbiVersion abi (.content bytes) = some 0 ↔
      bytes = abi.text ++ ['\n'] ∨ Mistakable abi bytes := by
  rw [checkAbiVersion_content_iff, and_or_left, checkAbiVersion_cut_iff, checkAbiVersion_behind_iff,
    Mistakable, ← or_assoc]
  refine or_congr_left ⟨?_, ?_⟩
  · rintro ⟨version, last, hbytes, hne, hprefix⟩
    by_cases hright : version = abi.text ∧ last = '\n'
    · obtain ⟨rfl, rfl⟩ := hright
      exact Or.inl hbytes
    · exact Or.inr ⟨version, last, hbytes, hne, hprefix, not_and_or.mp hright⟩
  · rintro (hbytes | ⟨version, last, hbytes, hne, hprefix, -⟩)
    · exact ⟨abi.text, '\n', hbytes, abi.nonempty, List.prefix_rfl⟩
    · exact ⟨version, last, hbytes, hne, hprefix⟩

/-- The version and a newline are not mistaken for themselves. -/
theorem Mistakable.ne {bytes : List Char} (h : Mistakable abi bytes) :
    bytes ≠ abi.text ++ ['\n'] := by
  rintro rfl
  rcases h with ⟨version, last, hbytes, -, -, hother⟩ | ⟨next, rest, hbytes⟩
  · obtain ⟨hversion, hlast⟩ := List.append_inj' hbytes rfl
    rcases hother with hother | hother
    · exact hother hversion.symm
    · exact hother (by simpa using hlast.symm)
  · have htail := List.append_cancel_left hbytes
    simp at htail

/-- A tool goes on when the version is accepted, and leaves otherwise. -/
theorem initKrgLib_eq (file : AbiFile) :
    initKrgLib abi file = some (if checkAbiVersion abi file = some 0 then .goesOn
      else .exits "kerrighed: tools and kernel version mismatch\n" 1) := by
  obtain ⟨ret, hret⟩ := Option.isSome_iff_exists.mp (@checkAbiVersion_isSome abi file)
  rw [initKrgLib, hret]
  by_cases hzero : ret = 0 <;> simp [hzero]

/-- Every tool goes on with these contents and with no others. -/
theorem initKrgLib_goesOn_iff (file : AbiFile) :
    initKrgLib abi file = some .goesOn ↔
      ∃ bytes, file = .content bytes ∧ (bytes = abi.text ++ ['\n'] ∨ Mistakable abi bytes) := by
  have hgoes : initKrgLib abi file = some .goesOn ↔ checkAbiVersion abi file = some 0 := by
    rw [initKrgLib_eq]
    split_ifs with h <;> simp [h]
  rw [hgoes]
  cases file with
  | missing => simp [checkAbiVersion]
  | unreadable => simp [checkAbiVersion]
  | content bytes => simp [checkAbiVersion_eq_zero_iff]

/-- For each content, the check accepts it only as the version and a newline if and only if it cannot
be mistaken for them. -/
theorem version_gate_exact_iff (abi : Abi) (content : List Char) :
    (checkAbiVersion abi (.content content) = some 0 ↔ content = abi.text ++ ['\n']) ↔
      ¬ Mistakable abi content := by
  rw [checkAbiVersion_eq_zero_iff]
  constructor
  · intro hexact hmistakable
    exact hmistakable.ne (hexact.mp (Or.inr hmistakable))
  · intro hplain
    exact ⟨fun haccepted => haccepted.resolve_right hplain, Or.inl⟩

/-- Tools of version 1 accept a kernel of version 12 whose file has no newline. -/
theorem longer_version_accepted :
    ¬ ∀ (abi : Abi) (content : List Char),
      checkAbiVersion abi (.content content) = some 0 ↔ content = abi.text ++ ['\n'] := by
  intro hgate
  have haccepted : checkAbiVersion kerrighedAbi (.content ['1', '2']) = some 0 := by decide
  have hcontent := (hgate kerrighedAbi ['1', '2']).mp haccepted
  exact absurd hcontent (by decide)

end Kerrighed.Tools
