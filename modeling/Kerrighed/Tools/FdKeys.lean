import Kerrighed.Common.Regex
import Kerrighed.Tools.Description

/-!
# The keys of open files

A checkpoint records the open files of an application in text files. Each line has the type of a
file, its identifier, its symbolic name, and the pairs of a pid and a descriptor under which the
file is open. `restart` finds the identifier of a standard stream with one regular expression over
whole lines.

The expression is meant for the list of pairs, but a symbolic name with the pair between two commas
matches as well, and the first line that matches is taken.
-/

namespace Kerrighed.Tools.FdKeys

open Kerrighed.Common Kerrighed.Tools.Description

/-- The text of a pid and a descriptor. -/
def pairText (pair : ℤ × ℤ) : List Char := printDecimal pair.1 ++ ':' :: printDecimal pair.2

/-- What a line of a `user_info_*.txt` file says of one open file. -/
structure InfoLine where
  type : List Char
  fileIdentifier : List Char
  symbolicName : List Char
  fds : List (ℤ × ℤ)
  type_field : ∀ c ∈ type, c ≠ '|' ∧ c ≠ '\n'
  fileIdentifier_field : ∀ c ∈ fileIdentifier, c ≠ '|' ∧ endsWord c = false
  fileIdentifier_ne_nil : fileIdentifier ≠ []
  symbolicName_field : ∀ c ∈ symbolicName, c ≠ '|' ∧ c ≠ '\n'

/-- The fields in front of the list of pairs. -/
def InfoLine.label (line : InfoLine) : List Char :=
  line.type ++ '|' :: (line.fileIdentifier ++ '|' :: line.symbolicName)

/-- The list of pairs, separated by commas. -/
def InfoLine.list (line : InfoLine) : List Char := [','].intercalate (line.fds.map pairText)

/-- The text of a line. -/
def InfoLine.text (line : InfoLine) : List Char := line.label ++ '|' :: line.list

/-- A `user_info_*.txt` file. -/
structure InfoFile where
  name : List Char
  infos : List InfoLine
  name_field : ∀ c ∈ name, c ≠ '|' ∧ c ≠ '\n'

/-- The name and the text of a file. -/
def InfoFile.named (file : InfoFile) : List Char × List Char :=
  (file.name, unlines (file.infos.map (·.text)))

/-- The lines of some files. -/
def infos (files : List InfoFile) : List InfoLine := files.flatMap (·.infos)

/-- The expression `[,|]pid:fd(,|$)`. -/
def fdPattern (pair : ℤ × ℤ) : Regex Char :=
  .seq (.oneOf [',', '|']) (.seq (.text (pairText pair)) (.alt (.text [',']) .lineEnd))

/-- The first word printed by `grep -E '[,|]pid:fd(,|$)' user_info_*.txt | cut -d'|' -f 2`. -/
def getFdKey (files : List (List Char × List Char)) (pid fd : ℤ) : Option (List Char) :=
  getReturnedWord (cut '|' 2 (grepFiles (fdPattern (pid, fd)) files))

/-- A field in front of the list of pairs has the pair behind a comma or a bar and before a
comma. -/
def Misleads (pair : ℤ × ℤ) (line : InfoLine) : Prop :=
  ∃ c ∈ [',', '|'], c :: (pairText pair ++ [',']) <:+: line.label

instance (pair : ℤ × ℤ) : DecidablePred (Misleads pair) := fun line =>
  List.decidableBEx (fun c => c :: (pairText pair ++ [',']) <:+: line.label) [',', '|']

/-- A line lists the pair, or misleads to it. -/
def Mentions (pair : ℤ × ℤ) (line : InfoLine) : Prop := pair ∈ line.fds ∨ Misleads pair line

instance (pair : ℤ × ℤ) : DecidablePred (Mentions pair) := fun line =>
  inferInstanceAs (Decidable (pair ∈ line.fds ∨ Misleads pair line))

/-- At most one line lists any given pair. -/
def ListedOnce (files : List InfoFile) : Prop :=
  ∀ pair : ℤ × ℤ, ((infos files).filter fun line => decide (pair ∈ line.fds)).length ≤ 1

/-- The key is the identifier of the line that lists the pair, and the empty word if no line
does. -/
def FindsKey (files : List InfoFile) (pid fd : ℤ) : Prop :=
  (∀ line ∈ infos files, (pid, fd) ∈ line.fds →
      getFdKey (files.map (·.named)) pid fd = some line.fileIdentifier) ∧
    ((∀ line ∈ infos files, (pid, fd) ∉ line.fds) →
      getFdKey (files.map (·.named)) pid fd = some [])

/-- The first line that mentions the pair, if there is one, has the identifier of a line that lists
it, and the identifier is shorter than the buffer. -/
def FirstMentionListed (files : List InfoFile) (pair : ℤ × ℤ) : Prop :=
  ∀ line, (infos files).find? (fun line => decide (Mentions pair line)) = some line →
    line.fileIdentifier.length < 1024 ∧
      ∃ listing ∈ infos files, pair ∈ listing.fds ∧
        listing.fileIdentifier = line.fileIdentifier

/-- A pair is written without commas, bars and newlines. -/
theorem notMem_pairText {c : Char} (hc : c ≠ ':' ∧ c ≠ '-' ∧ c.isDigit = false) (pair : ℤ × ℤ) :
    c ∉ pairText pair := by
  obtain ⟨hcolon, hminus, hdigit⟩ := hc
  intro hmem
  rcases List.mem_append.mp hmem with h | h
  · exact notMem_printDecimal _ hminus hdigit h
  · rcases List.mem_cons.mp h with h | h
    · exact hcolon h
    · exact notMem_printDecimal _ hminus hdigit h

/-- Different pairs have different texts. -/
theorem pairText_injective : Function.Injective pairText := by
  intro a b heq
  have hcolon : ∀ n, ':' ∉ printDecimal n := fun n => notMem_printDecimal n (by decide) (by decide)
  obtain ⟨hpid, -, hfd⟩ := (List.append_cons_inj_of_notMem (hcolon _) (hcolon _)).mp heq
  exact Prod.ext (printDecimal_injective hpid) (printDecimal_injective hfd)

/-- The expression matches where the pair stands behind a comma or a bar, and before a comma or the
end of the line. -/
theorem search_fdPattern_iff {pair : ℤ × ℤ} {line : List Char} :
    (fdPattern pair).search line = true ↔
      ∃ before rest, ∃ c ∈ [',', '|'], line = before ++ c :: (pairText pair ++ rest) ∧
        (rest = [] ∨ ∃ after, rest = ',' :: after) := by
  rw [Regex.search_eq_true_iff]
  simp only [fdPattern, Regex.mem_rests_seq, Regex.mem_rests_oneOf, Regex.mem_rests_text,
    Regex.mem_rests_alt, Regex.mem_rests_lineEnd]
  constructor
  · rintro ⟨before, place, rfl, rest, start, ⟨c, hc, rfl⟩, behind, rfl, hend⟩
    refine ⟨before, behind, c, hc, rfl, ?_⟩
    rcases hend with hcomma | ⟨hend, -⟩
    · exact .inr ⟨rest, hcomma⟩
    · exact .inl hend
  · rintro ⟨before, rest, c, hc, rfl, hend⟩
    rcases hend with rfl | ⟨after, rfl⟩
    · exact ⟨before, _, rfl, [], _, ⟨c, hc, rfl⟩, [], rfl, .inr ⟨rfl, rfl⟩⟩
    · exact ⟨before, _, rfl, after, _, ⟨c, hc, rfl⟩, _, rfl, .inl rfl⟩

/-- The pairs listed are those between the commas of the list. -/
theorem mem_fds_iff {pair : ℤ × ℤ} {line : InfoLine} :
    pair ∈ line.fds ↔ ∃ before rest, ',' :: line.list = before ++ ',' :: (pairText pair ++ rest) ∧
      (rest = [] ∨ ∃ after, rest = ',' :: after) := by
  have hcomma : ∀ p, ',' ∉ pairText p := notMem_pairText (by decide)
  rw [← mem_splitOn_iff (hcomma pair), InfoLine.list]
  cases hfds : line.fds with
  | nil =>
    have hne : pairText pair ≠ [] := by simp [pairText]
    simp [List.intercalate, hne]
  | cons first others =>
    rw [splitOn_intercalate (by simp), List.flatMap_map]
    have hparts : (first :: others).flatMap (fun p => (pairText p).splitOn ',') =
        (first :: others).map pairText := by
      rw [List.map_eq_flatMap]
      simp only [splitOn_of_notMem (hcomma _)]
    rw [hparts, List.mem_map_of_injective pairText_injective]

/-- The list of pairs contains neither bars nor newlines. -/
theorem notMem_list {c : Char} (hcomma : c ≠ ',') (hc : c ≠ ':' ∧ c ≠ '-' ∧ c.isDigit = false)
    (line : InfoLine) : c ∉ line.list := by
  refine notMem_intercalate hcomma fun text htext => ?_
  obtain ⟨pair, -, rfl⟩ := List.mem_map.mp htext
  exact notMem_pairText hc pair

/-- An item of a line without a bar, which a comma or the end follows, stands in the label or in the
list. -/
theorem item_in_label_or_list {label list item before rest : List Char} {c : Char}
    (hitem : '|' ∉ item) (hrest : rest = [] ∨ ∃ after, rest = ',' :: after)
    (heq : label ++ '|' :: list = before ++ c :: (item ++ rest)) :
    c :: (item ++ [',']) <:+: label ∨
      ∃ inside, '|' :: list = inside ++ c :: (item ++ rest) := by
  have hbar : ∀ behind, rest ≠ '|' :: behind := by
    rintro behind rfl
    rcases hrest with hrest | ⟨after, hrest⟩ <;> simp at hrest
  rcases List.append_eq_append_iff.mp heq with ⟨inside, -, hlist⟩ | ⟨end', rfl, hitemEnd⟩
  · exact .inr ⟨inside, hlist⟩
  cases end' with
  | nil => exact .inr ⟨[], hitemEnd.symm⟩
  | cons d end' =>
    rw [List.cons_append, List.cons.injEq] at hitemEnd
    obtain ⟨rfl, hbehind⟩ := hitemEnd
    rcases List.append_eq_append_iff.mp hbehind with ⟨gap, rfl, hgap⟩ | ⟨gap, rfl, hgap⟩
    · cases gap with
      | nil => exact absurd hgap (hbar list)
      | cons e gap =>
        rcases hrest with rfl | ⟨after, rfl⟩
        · simp at hgap
        · obtain ⟨rfl, -⟩ := List.cons.inj hgap
          exact .inl ⟨before, gap, by simp⟩
    · cases gap with
      | nil => exact absurd hgap.symm (hbar list)
      | cons e gap =>
        obtain ⟨rfl, -⟩ := List.cons.inj hgap
        simp at hitem

/-- A line matches the expression exactly when it mentions the pair. -/
theorem search_text_iff {pair : ℤ × ℤ} {line : InfoLine} :
    (fdPattern pair).search line.text = true ↔ Mentions pair line := by
  rw [search_fdPattern_iff, Mentions, mem_fds_iff, Misleads, InfoLine.text]
  have hbarList : '|' ∉ line.list := notMem_list (by decide) (by decide) line
  have hbar : '|' ∉ pairText pair := notMem_pairText (by decide) pair
  constructor
  · rintro ⟨before, rest, c, hc, heq, hrest⟩
    rcases item_in_label_or_list hbar hrest heq with hlabel | ⟨inside, hinside⟩
    · exact .inr ⟨c, hc, hlabel⟩
    · left
      cases inside with
      | nil => exact ⟨[], rest, by rw [(List.cons.inj hinside).2]; rfl, hrest⟩
      | cons d inside =>
        have hlist : line.list = inside ++ c :: (pairText pair ++ rest) := (List.cons.inj hinside).2
        have hcomma : c = ',' := by
          have hne : c ≠ '|' := by
            rintro rfl
            simp [hlist] at hbarList
          simpa [hne] using hc
        exact ⟨',' :: inside, rest, by rw [hlist, hcomma]; rfl, hrest⟩
  · rintro (⟨before, rest, heq, hrest⟩ | ⟨c, hc, before, after, heq⟩)
    · cases before with
      | nil =>
        refine ⟨line.label, rest, '|', by simp, ?_, hrest⟩
        rw [(List.cons.inj heq).2]
      | cons d before =>
        refine ⟨line.label ++ '|' :: before, rest, ',', by simp, ?_, hrest⟩
        rw [(List.cons.inj heq).2]
        simp
    · refine ⟨before, ',' :: (after ++ '|' :: line.list), c, hc, ?_, .inr ⟨_, rfl⟩⟩
      rw [← heq]
      simp

/-- The text of a line contains no newline. -/
theorem newline_notMem_text (line : InfoLine) : '\n' ∉ line.text := by
  have hlist : '\n' ∉ line.list := notMem_list (by decide) (by decide) line
  have htype : '\n' ∉ line.type := fun h => (line.type_field _ h).2 rfl
  have hname : '\n' ∉ line.symbolicName := fun h => (line.symbolicName_field _ h).2 rfl
  have hkey : '\n' ∉ line.fileIdentifier := fun h => by
    have hword := (line.fileIdentifier_field _ h).2
    contradiction
  simp [InfoLine.text, InfoLine.label, hlist, htype, hname, hkey]

/-- The second field of a line is the identifier, also behind the name of a file. -/
theorem field_text (line : InfoLine) {shown : List Char} (hshown : '|' ∉ shown) :
    field '|' 2 (shown ++ line.text) = line.fileIdentifier := by
  have htype : '|' ∉ shown ++ line.type := by
    rw [List.mem_append, not_or]
    exact ⟨hshown, fun h => (line.type_field _ h).1 rfl⟩
  have hkey : '|' ∉ line.fileIdentifier := fun h => (line.fileIdentifier_field _ h).1 rfl
  have hname : '|' ∉ line.symbolicName := fun h => (line.symbolicName_field _ h).1 rfl
  have hlist : '|' ∉ line.list := notMem_list (by decide) (by decide) line
  have hsplit : (shown ++ line.text).splitOn '|' =
      [shown ++ line.type, line.fileIdentifier, line.symbolicName, line.list] := by
    have htext : shown ++ line.text = (shown ++ line.type) ++ '|' ::
        (line.fileIdentifier ++ '|' :: (line.symbolicName ++ '|' :: line.list)) := by
      simp [InfoLine.text, InfoLine.label]
    rw [htext, splitOn_append_cons, splitOn_append_cons, splitOn_append_cons,
      splitOn_of_notMem htype, splitOn_of_notMem hkey, splitOn_of_notMem hname,
      splitOn_of_notMem hlist]
    rfl
  rw [field, hsplit]
  rfl

/-- The lines shown of one file are those that mention the pair. -/
theorem filter_lines_named (pair : ℤ × ℤ) (file : InfoFile) :
    (lines file.named.2).filter (fdPattern pair).search =
      (file.infos.filter fun line => decide (Mentions pair line)).map (·.text) := by
  have hlines : lines file.named.2 = file.infos.map (·.text) := by
    refine lines_unlines fun text htext => ?_
    obtain ⟨line, -, rfl⟩ := List.mem_map.mp htext
    exact newline_notMem_text line
  rw [hlines, List.filter_map]
  congr 1
  refine List.filter_congr fun line _ => ?_
  rw [Function.comp_apply, Bool.eq_iff_iff, search_text_iff, decide_eq_true_iff]

/-- What is cut out of the lines shown: the identifiers of the lines that mention the pair. -/
theorem cut_grepFiles (files : List InfoFile) (pair : ℤ × ℤ) :
    cut '|' 2 (grepFiles (fdPattern pair) (files.map (·.named))) =
      unlines (((infos files).filter fun line => decide (Mentions pair line)).map
        (·.fileIdentifier)) := by
  let shown : InfoFile → InfoLine → List Char := fun file line =>
    if (files.map (·.named)).length ≤ 1 then line.text else file.name ++ ':' :: line.text
  have hgrep : grepFiles (fdPattern pair) (files.map (·.named)) =
      unlines (files.flatMap fun file =>
        (file.infos.filter fun line => decide (Mentions pair line)).map (shown file)) := by
    rw [grepFiles, List.flatMap_map]
    simp only [filter_lines_named, List.map_map]
    rfl
  have hnewline : ∀ file line, '\n' ∉ shown file line := by
    intro file line
    have hname : '\n' ∉ file.name := fun h => (file.name_field _ h).2 rfl
    have htext : '\n' ∉ line.text := newline_notMem_text line
    simp only [shown]
    split <;> simp [htext, hname]
  have hfield : ∀ file line, field '|' 2 (shown file line) = line.fileIdentifier := by
    intro file line
    have hname : '|' ∉ file.name ++ [':'] := by
      rw [List.mem_append, not_or]
      exact ⟨fun h => (file.name_field _ h).1 rfl, by decide⟩
    simp only [shown]
    split
    · exact field_text line List.not_mem_nil
    · simpa using field_text line hname
  rw [cut, hgrep, lines_unlines, List.map_flatMap, infos, List.filter_flatMap, List.map_flatMap]
  · simp only [List.map_map, Function.comp_def, hfield]
  · intro line hline
    obtain ⟨file, -, hline⟩ := List.mem_flatMap.mp hline
    obtain ⟨info, -, rfl⟩ := List.mem_map.mp hline
    exact hnewline file info

/-- The word read is the identifier of the first line that mentions the pair, if it is shorter than
the buffer, and empty if there is no such line. -/
theorem getFdKey_eq (files : List InfoFile) (pid fd : ℤ) :
    getFdKey (files.map (·.named)) pid fd =
      match (infos files).find? fun line => decide (Mentions (pid, fd) line) with
      | none => some []
      | some line =>
        if line.fileIdentifier.length < 1024 then some line.fileIdentifier else none := by
  rw [getFdKey, cut_grepFiles, ← List.head?_filter]
  cases (infos files).filter fun line => decide (Mentions (pid, fd) line) with
  | nil => rfl
  | cons line others =>
    have hword : ∀ c ∈ line.fileIdentifier, endsWord c = false := fun c hc =>
      (line.fileIdentifier_field c hc).2
    have houtput : unlines ((line :: others).map (·.fileIdentifier)) =
        line.fileIdentifier ++ '\n' :: unlines (others.map (·.fileIdentifier)) := by
      simp [unlines]
    rw [houtput, List.head?_cons]
    split
    · contradiction
    · rename_i first hfirst
      rw [← Option.some.inj hfirst]
      split
      · rename_i hlength
        exact getReturnedWord_line _ hword hlength
      · rename_i hlength
        exact getReturnedWord_long _ hword (by omega)

/-- Two lines that list the same pair are one. -/
theorem ListedOnce.unique {files : List InfoFile} (honce : ListedOnce files) {pair : ℤ × ℤ}
    {a b : InfoLine} (ha : a ∈ infos files) (hb : b ∈ infos files) (hpa : pair ∈ a.fds)
    (hpb : pair ∈ b.fds) : a = b := by
  have hma : a ∈ (infos files).filter fun line => decide (pair ∈ line.fds) :=
    List.mem_filter.mpr ⟨ha, decide_eq_true hpa⟩
  have hmb : b ∈ (infos files).filter fun line => decide (pair ∈ line.fds) :=
    List.mem_filter.mpr ⟨hb, decide_eq_true hpb⟩
  have hlength := honce pair
  generalize (infos files).filter (fun line => decide (pair ∈ line.fds)) = found at hma hmb hlength
  cases found with
  | nil => contradiction
  | cons line others =>
    have hnil : others = [] := List.length_eq_zero_iff.mp (by simpa using hlength)
    rw [hnil, List.mem_singleton] at hma hmb
    rw [hma, hmb]

/-- The key is found exactly when the first line that mentions the pair, in its list or elsewhere,
has the identifier of the line that lists it. -/
theorem findsKey_iff (files : List InfoFile) (honce : ListedOnce files) (pid fd : ℤ) :
    FindsKey files pid fd ↔ FirstMentionListed files (pid, fd) := by
  unfold FindsKey FirstMentionListed
  rw [getFdKey_eq]
  cases hfind : (infos files).find? fun line => decide (Mentions (pid, fd) line) with
  | none =>
    refine iff_of_true ⟨fun line hline hlists => ?_, fun _ => rfl⟩ (by simp)
    have hmentions := List.find?_eq_none.mp hfind line hline
    exact absurd (decide_eq_true (.inl hlists)) hmentions
  | some first =>
    simp only [Option.some.injEq, forall_eq']
    constructor
    · rintro ⟨hlisted, hunlisted⟩
      by_cases hany : ∃ listing ∈ infos files, (pid, fd) ∈ listing.fds
      · obtain ⟨listing, hmem, hlists⟩ := hany
        have hkey := hlisted listing hmem hlists
        split at hkey
        · rename_i hlength
          exact ⟨hlength, listing, hmem, hlists, (Option.some.inj hkey).symm⟩
        · contradiction
      · push Not at hany
        have hkey := hunlisted hany
        split at hkey
        · exact absurd (Option.some.inj hkey) first.fileIdentifier_ne_nil
        · contradiction
    · rintro ⟨hlength, listing, hmem, hlists, hsame⟩
      rw [if_pos hlength]
      refine ⟨fun line hline hline' => ?_, fun hnone => absurd hlists (hnone listing hmem)⟩
      rw [honce.unique hline hmem hline' hlists, hsame]

/-- A log file whose name has an item like the pair of a standard input. -/
def logLine : InfoLine where
  type := "file".toList
  fileIdentifier := "1A".toList
  symbolicName := "/tmp/run,100:0,log".toList
  fds := [(200, 3)]
  type_field := by simp
  fileIdentifier_field := by simp [endsWord]
  fileIdentifier_ne_nil := by decide
  symbolicName_field := by simp

/-- The terminal that is the standard input of process 100. -/
def terminalLine : InfoLine where
  type := "tty".toList
  fileIdentifier := "2B".toList
  symbolicName := "/dev/pts/0".toList
  fds := [(100, 0), (100, 1)]
  type_field := by simp
  fileIdentifier_field := by simp [endsWord]
  fileIdentifier_ne_nil := by decide
  symbolicName_field := by simp

/-- A file with both lines. -/
def exampleFile : InfoFile :=
  ⟨"/var/chkpt/42/v1/user_info_0.txt".toList, [logLine, terminalLine], by simp⟩

/-- Both lines of the file. -/
theorem infos_exampleFile : infos [exampleFile] = [logLine, terminalLine] := rfl

/-- No pair is listed twice in the file. -/
theorem exampleFile_listedOnce : ListedOnce [exampleFile] := by
  intro pair
  have hlog : logLine.fds = [(200, 3)] := rfl
  have hterminal : terminalLine.fds = [(100, 0), (100, 1)] := rfl
  rw [infos_exampleFile, List.filter_cons, List.filter_singleton, hlog, hterminal]
  by_cases hpair : pair = (200, 3)
  · simp [hpair]
  · simp only [List.mem_singleton, hpair, decide_false]
    cases decide (pair ∈ [(100, 0), (100, 1)]) <;> simp

/-- The standard output of process 100 is found, since the log file does not mention it. -/
theorem standard_output_found : FindsKey [exampleFile] 100 1 := by
  refine (findsKey_iff [exampleFile] exampleFile_listedOnce 100 1).mpr fun line hline => ?_
  have hmentions : Mentions (100, 1) line := by simpa using List.find?_some hline
  have hlog : ¬ Mentions (100, 1) logLine := by decide
  rcases List.mem_pair.mp (List.mem_of_find?_eq_some hline) with rfl | rfl
  · contradiction
  · exact ⟨by decide, terminalLine, List.mem_of_find?_eq_some hline, by decide, rfl⟩

/-- The key found for the standard input of process 100 is that of the log file. -/
theorem log_file_found_for_terminal :
    ListedOnce [exampleFile] ∧ (100, 0) ∈ terminalLine.fds ∧ (100, 0) ∉ logLine.fds ∧
      getFdKey [exampleFile.named] 100 0 = some logLine.fileIdentifier ∧
      ¬ FindsKey [exampleFile] 100 0 := by
  have hkey : getFdKey [exampleFile.named] 100 0 = some logLine.fileIdentifier := by decide
  refine ⟨exampleFile_listedOnce, by decide, by decide, hkey, fun hfinds => ?_⟩
  have hmem : terminalLine ∈ infos [exampleFile] := by
    rw [infos_exampleFile]
    exact List.mem_cons_of_mem _ List.mem_cons_self
  have hterminal := hfinds.1 terminalLine hmem (by decide)
  have hsame := Option.some.inj (hkey.symm.trans hterminal)
  revert hsame
  decide

end Kerrighed.Tools.FdKeys
