import Kerrighed.Common.CNumbers
import Kerrighed.Common.Getopt
import Kerrighed.Common.Runs
import Mathlib.Data.Fintype.Basic
import Mathlib.Logic.Function.Basic

/-!
# Saved IPC objects

`ipccheckpoint` makes a file, asks the kernel to write an IPC object into it, and takes the file away
again when the kernel could not. `ipcrestart` opens a file and asks the kernel to read it. Any number
of these tools run at the same time, and each may be killed between two calls.

The file is made exclusively, so a tool that takes a file away takes away its own: a file that was
there before, or in which an object has been saved, stays as it is. A tool that reads a file while
another one writes it may read a part only. Where nobody does, what the kernel is given back is what it
has written.
-/

namespace Kerrighed.Tools.IpcObjects

open Kerrighed.Common

/-- `enum ipctype`. -/
inductive IpcType where
  | undef
  | msg
  | sem
  | shm
  deriving DecidableEq, Repr

/-- The option string and the table of long options of `ipccheckpoint`. -/
def checkpointOptions : OptTable where
  short := [('h', .noArgument), ('q', .requiredArgument), ('s', .requiredArgument),
    ('m', .requiredArgument)]
  long := [⟨"help".toList, .noArgument, 'h'⟩, ⟨"version".toList, .noArgument, 'v'⟩,
    ⟨"queue".toList, .requiredArgument, 'q'⟩, ⟨"semaphore".toList, .requiredArgument, 's'⟩,
    ⟨"memory".toList, .requiredArgument, 'm'⟩]

/-- The option string and the table of long options of `ipcrestart`. -/
def restartOptions : OptTable where
  short := [('h', .noArgument), ('q', .noArgument), ('s', .noArgument), ('m', .noArgument)]
  long := [⟨"help".toList, .noArgument, 'h'⟩, ⟨"version".toList, .noArgument, 'v'⟩,
    ⟨"queue".toList, .noArgument, 'q'⟩, ⟨"semaphore".toList, .noArgument, 's'⟩,
    ⟨"memory".toList, .noArgument, 'm'⟩]

/-- The globals `ipc_type` and `ipcid`. -/
structure Args where
  ipcType : IpcType
  ipcid : ℤ
  deriving DecidableEq, Repr

/-- The globals at the start of a tool. -/
def Args.start : Args := ⟨.undef, 0⟩

/-- One option of `ipccheckpoint`, which may end the tool with an exit status. -/
def applyCheckpointOption (_args : Args) (option : Char × Option Arg) : Except ℤ Args :=
  match option with
  | ('h', _) => .error 0
  | ('v', _) => .error 0
  | ('q', optarg) => .ok ⟨.msg, atoi (optarg.getD [])⟩
  | ('s', optarg) => .ok ⟨.sem, atoi (optarg.getD [])⟩
  | ('m', optarg) => .ok ⟨.shm, atoi (optarg.getD [])⟩
  | _ => .error 1

/-- One option of `ipcrestart`. -/
def applyRestartOption (args : Args) (option : Char × Option Arg) : Except ℤ Args :=
  match option with
  | ('h', _) => .error 0
  | ('v', _) => .error 0
  | ('q', _) => .ok { args with ipcType := .msg }
  | ('s', _) => .ok { args with ipcType := .sem }
  | ('m', _) => .ok { args with ipcType := .shm }
  | _ => .error 1

/-- The options and the operand: what they ask for and the path, or the exit status where the tool
ends before. -/
def parseArgs (table : OptTable) (applyOption : Args → Char × Option Arg → Except ℤ Args)
    (argv : List Arg) : Except ℤ (Args × Arg) := do
  let parsed := getoptLong table argv
  let args ← parsed.options.foldlM applyOption .start
  if parsed.failed then .error 1
  else
    match parsed.operands with
    | [pathname] => if args.ipcType = .undef then .error 1 else .ok (args, pathname)
    | _ => .error 1

/-- The arguments of `ipccheckpoint`. -/
def parseCheckpointArgs : List Arg → Except ℤ (Args × Arg) :=
  parseArgs checkpointOptions applyCheckpointOption

/-- The arguments of `ipcrestart`. -/
def parseRestartArgs : List Arg → Except ℤ (Args × Arg) := parseArgs restartOptions applyRestartOption

/-- What is in a file. -/
abbrev Bytes := List UInt8

/-- What a tool does next: nothing; ask the kernel to save an object into the open file; close the
file, into which the kernel has written, with the result of the request; or ask the kernel to restore
what is in the open file. An open file is known by its name and its number. -/
inductive Phase (N : Type*) where
  | ready
  | checkpointing (args : Args) (name : N) (file : ℕ)
  | checkpointed (args : Args) (name : N) (file : ℕ) (r : ℤ) (written : Bytes)
  | restarting (ipcType : IpcType) (name : N) (file : ℕ)
  deriving DecidableEq, Repr

/-- The file that a tool has made and may take away. -/
def Phase.target {N : Type*} : Phase N → Option (N × ℕ)
  | .ready | .restarting _ _ _ => none
  | .checkpointing _ name file | .checkpointed _ name file _ _ => some (name, file)

/-- An object that has been saved: what was asked for, where it is, and what the kernel has written. -/
structure Saved (N : Type*) where
  args : Args
  name : N
  file : ℕ
  written : Bytes
  deriving DecidableEq, Repr

/-- A request to restore an object, with the contents of the file. -/
structure Restored (N : Type*) where
  ipcType : IpcType
  name : N
  file : ℕ
  contents : Bytes
  deriving DecidableEq, Repr

/-- The names with the numbers of their files, the contents of the files by number, and the tools; and
as a record what has been saved, what has been left by tools that were killed or could not take their
file away, and what has been restored. -/
structure Objects (ι N : Type*) where
  directory : N → Option ℕ
  contents : List Bytes
  tool : ι → Phase N
  saved : List (Saved N)
  left : List (N × ℕ)
  restored : List (Restored N)

/-- What happens next: a tool is started and opens its file, which may fail; the kernel answers its
request; `ipccheckpoint` closes its file and ends; or a tool is killed. -/
inductive Event (ι : Type*) where
  | ipccheckpoint (c : ι) (argv : List Arg) (ok : Bool)
  | save (c : ι) (r : ℤ) (written : Bytes)
  | finish (c : ι) (ok : Bool)
  | ipcrestart (c : ι) (argv : List Arg) (ok : Bool)
  | restore (c : ι)
  | kill (c : ι)
  deriving DecidableEq, Repr

variable {ι N : Type*} [DecidableEq ι]

/-- One step of the tools, given the file that a path names. -/
def step [DecidableEq N] (resolve : Arg → N) (st : Objects ι N) : Event ι → Option (Objects ι N)
  | .ipccheckpoint c argv ok =>
    match st.tool c with
    | .ready =>
      match parseCheckpointArgs argv with
      | .error _ => some st
      | .ok (args, pathname) =>
        if ok ∧ st.directory (resolve pathname) = none then
          some { st with
            directory := Function.update st.directory (resolve pathname) (some st.contents.length)
            contents := st.contents ++ [[]]
            tool := Function.update st.tool c
              (.checkpointing args (resolve pathname) st.contents.length) }
        else some st
    | _ => none
  | .save c r written =>
    match st.tool c with
    | .checkpointing args name file =>
      some { st with
        contents := st.contents.set file written
        tool := Function.update st.tool c (.checkpointed args name file r written) }
    | _ => none
  | .finish c ok =>
    match st.tool c with
    | .checkpointed args name file r written =>
      if r = 0 then
        some { st with
          tool := Function.update st.tool c .ready
          saved := st.saved ++ [⟨args, name, file, written⟩] }
      else if ok then
        some { st with
          directory := Function.update st.directory name none
          tool := Function.update st.tool c .ready }
      else
        some { st with
          tool := Function.update st.tool c .ready
          left := st.left ++ [(name, file)] }
    | _ => none
  | .ipcrestart c argv ok =>
    match st.tool c with
    | .ready =>
      match parseRestartArgs argv with
      | .error _ => some st
      | .ok (args, pathname) =>
        match if ok then st.directory (resolve pathname) else none with
        | some file =>
          some { st with
            tool := Function.update st.tool c (.restarting args.ipcType (resolve pathname) file) }
        | none => some st
    | _ => none
  | .restore c =>
    match st.tool c with
    | .restarting ipcType name file =>
      some { st with
        tool := Function.update st.tool c .ready
        restored := st.restored ++ [⟨ipcType, name, file, st.contents.getD file []⟩] }
    | _ => none
  | .kill c =>
    some { st with
      tool := Function.update st.tool c .ready
      left := st.left ++ (st.tool c).target.toList }

/-- Some files, before any tool has run. -/
def Objects.start (ι : Type*) (directory : N → Option ℕ) (contents : List Bytes) : Objects ι N :=
  ⟨directory, contents, fun _ => .ready, [], [], []⟩

/-- A file that no tool works on: it was there at the start, an object has been saved in it, or it was
left. -/
def Settled (directory : N → Option ℕ) (st : Objects ι N) (name : N) (file : ℕ) : Prop :=
  directory name = some file ∨ (∃ e ∈ st.saved, e.name = name ∧ e.file = file) ∨
    (name, file) ∈ st.left

/-- Each name leads to a file that is settled or that a tool has made, and to no other. The files that
were there at the start have their contents, and those of saved objects what the kernel has written. -/
def Preserved (directory : N → Option ℕ) (contents : List Bytes) (st : Objects ι N) : Prop :=
  (∀ name file, st.directory name = some file ↔
      Settled directory st name file ∨ ∃ c, (st.tool c).target = some (name, file)) ∧
    (∀ file < contents.length, st.contents[file]? = contents[file]?) ∧
    ∀ e ∈ st.saved, st.contents[e.file]? = some e.written

/-- What the steps keep: besides, a tool has its file for itself, and the kernel has written what it
said. -/
structure Accounted (directory : N → Option ℕ) (contents : List Bytes) (st : Objects ι N) : Prop where
  preserved : Preserved directory contents st
  numbered : ∀ name file, st.directory name = some file → file < st.contents.length
  unsettled : ∀ c name file, (st.tool c).target = some (name, file) →
    contents.length ≤ file ∧ ∀ other, ¬ Settled directory st other file
  apart : ∀ c d name other file, (st.tool c).target = some (name, file) →
    (st.tool d).target = some (other, file) → c = d
  written : ∀ c args name file r written, st.tool c = .checkpointed args name file r written →
    st.contents[file]? = some written

/-- A tool that keeps its file leaves all tools with the files they have. -/
theorem target_update {tool : ι → Phase N} {c : ι} {new : Phase N}
    (h : new.target = (tool c).target) (d : ι) :
    (Function.update tool c new d).target = (tool d).target := by
  by_cases hdc : d = c
  · rw [hdc, Function.update_self, h]
  · rw [Function.update_of_ne hdc]

/-- When a tool gives its file up, the other tools keep theirs. -/
theorem target_update_ready {tool : ι → Phase N} {c : ι} (d : ι) (x : N × ℕ) :
    (Function.update tool c .ready d).target = some x ↔ d ≠ c ∧ (tool d).target = some x := by
  by_cases hdc : d = c
  · rw [hdc, Function.update_self, Phase.target]
    simp
  · rw [Function.update_of_ne hdc]
    simp [hdc]

omit [DecidableEq ι] in
/-- A file that a tool has made is in the directory. -/
theorem Accounted.present {directory : N → Option ℕ} {contents : List Bytes} {st : Objects ι N}
    (h : Accounted directory contents st) {c : ι} {name : N} {file : ℕ}
    (hc : (st.tool c).target = some (name, file)) :
    st.directory name = some file ∧ file < st.contents.length := by
  have hname := (h.preserved.1 name file).mpr (Or.inr ⟨c, hc⟩)
  exact ⟨hname, h.numbered name file hname⟩

/-- A step that leaves the files, and the tools with the files they have, keeps the accounts. -/
theorem Accounted.of_tool {directory : N → Option ℕ} {contents : List Bytes} {st : Objects ι N}
    (h : Accounted directory contents st) {c : ι} {new : Phase N}
    (hnew : new.target = (st.tool c).target)
    (hwritten : ∀ args name file r written, new = .checkpointed args name file r written →
      st.contents[file]? = some written) (restored : List (Restored N)) :
    Accounted directory contents
      { st with tool := Function.update st.tool c new, restored := restored } where
  preserved := by
    refine ⟨fun name file => ?_, h.preserved.2⟩
    simp only [target_update hnew]
    exact h.preserved.1 name file
  numbered := h.numbered
  unsettled d name file hd := h.unsettled d name file ((target_update hnew d).symm.trans hd)
  apart d d' name other file hd hd' :=
    h.apart d d' name other file ((target_update hnew d).symm.trans hd)
      ((target_update hnew d').symm.trans hd')
  written d args name file r written hd := by
    dsimp only at hd ⊢
    by_cases hdc : d = c
    · rw [hdc, Function.update_self] at hd
      exact hwritten args name file r written hd
    · rw [Function.update_of_ne hdc] at hd
      exact h.written d args name file r written hd

omit [DecidableEq ι] in
/-- No file is ever lost. -/
theorem Accounted.length_le {directory : N → Option ℕ} {contents : List Bytes} {st : Objects ι N}
    (h : Accounted directory contents st) : contents.length ≤ st.contents.length := by
  by_contra hlt
  have hsame := h.preserved.2.1 st.contents.length (not_le.mp hlt)
  rw [List.getElem?_eq_none le_rfl, List.getElem?_eq_getElem (not_le.mp hlt)] at hsame
  cases hsame

/-- What is in a list is in it when something is appended. -/
theorem getElem?_append_of_some {α : Type*} {l : List α} {i : ℕ} {a : α} (h : l[i]? = some a)
    (m : List α) : (l ++ m)[i]? = some a := by
  obtain ⟨hi, -⟩ := List.getElem?_eq_some_iff.mp h
  rw [List.getElem?_append_left hi, h]

/-- A file that is made is new, and its name was free. -/
theorem Accounted.make [DecidableEq N] {directory : N → Option ℕ} {contents : List Bytes}
    {st : Objects ι N} (h : Accounted directory contents st) {c : ι} (hc : st.tool c = .ready)
    (args : Args) {name : N} (hfree : st.directory name = none) :
    Accounted directory contents { st with
      directory := Function.update st.directory name (some st.contents.length)
      contents := st.contents ++ [[]]
      tool := Function.update st.tool c (.checkpointing args name st.contents.length) } := by
  have htarget (d : ι) (x : N × ℕ) :
      (Function.update st.tool c (.checkpointing args name st.contents.length) d).target = some x ↔
        (d = c ∧ x = (name, st.contents.length)) ∨ (st.tool d).target = some x := by
    by_cases hdc : d = c
    · rw [hdc, Function.update_self, hc]
      simp [Phase.target, eq_comm]
    · rw [Function.update_of_ne hdc]
      simp [hdc]
  have hold {d : ι} {other : N} {file : ℕ} (hd : (st.tool d).target = some (other, file)) :
      other ≠ name ∧ file < st.contents.length := by
    obtain ⟨hdir, hlt⟩ := h.present hd
    refine ⟨?_, hlt⟩
    rintro rfl
    rw [hfree] at hdir
    cases hdir
  refine ⟨⟨fun other file => ?_, fun file hfile => ?_, fun e he => ?_⟩, fun other file hother => ?_,
    fun d other file hd => ?_, fun d d' other other' file hd hd' => ?_,
    fun d args' other file r written hd => ?_⟩
  · simp only [htarget]
    by_cases hname : other = name
    · subst hname
      rw [Function.update_self, Option.some.injEq]
      constructor
      · rintro rfl
        exact Or.inr ⟨c, Or.inl ⟨rfl, rfl⟩⟩
      · rintro (hsettled | ⟨d, ⟨-, heq⟩ | hd⟩)
        · have hdir := (h.preserved.1 other file).mpr (Or.inl hsettled)
          rw [hfree] at hdir
          cases hdir
        · exact (Prod.mk.inj heq).2.symm
        · exact absurd rfl (hold hd).1
    · rw [Function.update_of_ne hname, h.preserved.1]
      refine or_congr Iff.rfl (exists_congr fun d => ?_)
      simp [hname]
  · rw [List.getElem?_append_left (hfile.trans_le h.length_le), h.preserved.2.1 file hfile]
  · exact getElem?_append_of_some (h.preserved.2.2 e he) _
  · rw [List.length_append]
    by_cases hname : other = name
    · dsimp only at hother
      rw [hname, Function.update_self] at hother
      cases hother
      simp
    · dsimp only at hother
      rw [Function.update_of_ne hname] at hother
      exact (h.numbered other file hother).trans (Nat.lt_succ_self _)
  · rcases (htarget d (other, file)).mp hd with ⟨-, heq⟩ | hd
    · obtain ⟨-, rfl⟩ := Prod.mk.inj heq
      refine ⟨h.length_le, fun other' hsettled => ?_⟩
      exact absurd (h.numbered other' _ ((h.preserved.1 other' _).mpr (Or.inl hsettled)))
        (Nat.lt_irrefl _)
    · exact h.unsettled d other file hd
  · rcases (htarget d (other, file)).mp hd with ⟨hdc, heq⟩ | hdOld
    · rcases (htarget d' (other', file)).mp hd' with ⟨hdc', -⟩ | hdOld'
      · rw [hdc, hdc']
      · obtain ⟨-, rfl⟩ := Prod.mk.inj heq
        exact absurd (hold hdOld').2 (Nat.lt_irrefl _)
    · rcases (htarget d' (other', file)).mp hd' with ⟨-, heq⟩ | hdOld'
      · obtain ⟨-, rfl⟩ := Prod.mk.inj heq
        exact absurd (hold hdOld).2 (Nat.lt_irrefl _)
      · exact h.apart d d' other other' file hdOld hdOld'
  · dsimp only at hd ⊢
    by_cases hdc : d = c
    · rw [hdc, Function.update_self] at hd
      cases hd
    · rw [Function.update_of_ne hdc] at hd
      exact getElem?_append_of_some (h.written d args' other file r written hd) _

/-- The kernel writes into a file that one tool has for itself. -/
theorem Accounted.save {directory : N → Option ℕ} {contents : List Bytes} {st : Objects ι N}
    (h : Accounted directory contents st) {c : ι} {args : Args} {name : N} {file : ℕ}
    (hc : st.tool c = .checkpointing args name file) (r : ℤ) (written : Bytes) :
    Accounted directory contents { st with
      contents := st.contents.set file written
      tool := Function.update st.tool c (.checkpointed args name file r written) } := by
  have howner : (st.tool c).target = some (name, file) := by rw [hc, Phase.target]
  have htarget := target_update (c := c) (show (Phase.checkpointed args name file r written).target =
    (st.tool c).target from howner.symm)
  obtain ⟨hstart, hunsettled⟩ := h.unsettled c name file howner
  refine ⟨⟨fun other i => ?_, fun i hi => ?_, fun e he => ?_⟩, fun other i hother => ?_,
    fun d other i hd => ?_, fun d d' other other' i hd hd' => ?_,
    fun d args' other i r' written' hd => ?_⟩
  · simp only [htarget]
    exact h.preserved.1 other i
  · rw [List.getElem?_set_ne (hi.trans_le hstart).ne', h.preserved.2.1 i hi]
  · have hne : file ≠ e.file := by
      rintro rfl
      exact hunsettled e.name (Or.inr (Or.inl ⟨e, he, rfl, rfl⟩))
    rw [List.getElem?_set_ne hne, h.preserved.2.2 e he]
  · rw [List.length_set]
    exact h.numbered other i hother
  · exact h.unsettled d other i ((htarget d).symm.trans hd)
  · exact h.apart d d' other other' i ((htarget d).symm.trans hd) ((htarget d').symm.trans hd')
  · dsimp only at hd ⊢
    by_cases hdc : d = c
    · rw [hdc, Function.update_self] at hd
      cases hd
      rw [List.getElem?_set_self (h.present howner).2]
    · rw [Function.update_of_ne hdc] at hd
      have hne : file ≠ i := by
        rintro rfl
        exact hdc (h.apart d c other name file (by rw [hd, Phase.target]) howner)
      rw [List.getElem?_set_ne hne, h.written d args' other i r' written' hd]

/-- A file that its tool gives up is settled. -/
theorem Accounted.settle {directory : N → Option ℕ} {contents : List Bytes} {st : Objects ι N}
    (h : Accounted directory contents st) {c : ι} {name : N} {file : ℕ}
    (hc : (st.tool c).target = some (name, file)) {saved : List (Saved N)} {left : List (N × ℕ)}
    (hsettled : ∀ other i, Settled directory { st with saved := saved, left := left } other i ↔
      Settled directory st other i ∨ (other, i) = (name, file))
    (hsaved : ∀ e ∈ saved, st.contents[e.file]? = some e.written) :
    Accounted directory contents
      { st with tool := Function.update st.tool c .ready, saved := saved, left := left } where
  preserved := by
    refine ⟨fun other i => ?_, h.preserved.2.1, hsaved⟩
    have hsettled' := hsettled other i
    rw [Settled] at hsettled' ⊢
    dsimp only at hsettled' ⊢
    simp only [target_update_ready]
    rw [hsettled', h.preserved.1, or_assoc]
    refine or_congr Iff.rfl ?_
    constructor
    · rintro ⟨d, hd⟩
      by_cases hdc : d = c
      · rw [hdc, hc] at hd
        exact Or.inl (Option.some.inj hd).symm
      · exact Or.inr ⟨d, hdc, hd⟩
    · rintro (heq | ⟨d, -, hd⟩)
      · exact ⟨c, by rw [hc, heq]⟩
      · exact ⟨d, hd⟩
  numbered := h.numbered
  unsettled d other i hd := by
    obtain ⟨hdc, hd⟩ := (target_update_ready d _).mp hd
    obtain ⟨hstart, hunsettled⟩ := h.unsettled d other i hd
    refine ⟨hstart, fun other' hother => ?_⟩
    rcases (hsettled other' i).mp hother with hold | heq
    · exact hunsettled other' hold
    · obtain ⟨-, rfl⟩ := Prod.mk.inj heq
      exact hdc (h.apart d c other name i hd hc)
  apart d d' other other' i hd hd' :=
    h.apart d d' other other' i ((target_update_ready d _).mp hd).2
      ((target_update_ready d' _).mp hd').2
  written d args other i r written hd := by
    dsimp only at hd ⊢
    by_cases hdc : d = c
    · rw [hdc, Function.update_self] at hd
      cases hd
    · rw [Function.update_of_ne hdc] at hd
      exact h.written d args other i r written hd

/-- A tool that takes a file away takes away its own. -/
theorem Accounted.unlink [DecidableEq N] {directory : N → Option ℕ} {contents : List Bytes}
    {st : Objects ι N} (h : Accounted directory contents st) {c : ι} {name : N} {file : ℕ}
    (hc : (st.tool c).target = some (name, file)) :
    Accounted directory contents { st with
      directory := Function.update st.directory name none
      tool := Function.update st.tool c .ready } where
  preserved := by
    refine ⟨fun other i => ?_, h.preserved.2⟩
    have hname := (h.present hc).1
    simp only [target_update_ready]
    by_cases hother : other = name
    · subst hother
      rw [Function.update_self]
      refine iff_of_false (by simp) ?_
      rintro (hsettled | ⟨d, hdc, hd⟩)
      · have hdir := (h.preserved.1 other i).mpr (Or.inl hsettled)
        rw [hname] at hdir
        obtain rfl := Option.some.inj hdir
        exact (h.unsettled c other file hc).2 other hsettled
      · have hdir := (h.present hd).1
        rw [hname] at hdir
        obtain rfl := Option.some.inj hdir
        exact hdc (h.apart d c other other file hd hc)
    · rw [Function.update_of_ne hother, h.preserved.1]
      refine or_congr Iff.rfl (exists_congr fun d => ?_)
      refine (and_iff_right_of_imp ?_).symm
      rintro hd rfl
      rw [hc] at hd
      cases hd
      exact hother rfl
  numbered other i hother := by
    dsimp only at hother
    by_cases hname : other = name
    · rw [hname, Function.update_self] at hother
      cases hother
    · rw [Function.update_of_ne hname] at hother
      exact h.numbered other i hother
  unsettled d other i hd := h.unsettled d other i ((target_update_ready d _).mp hd).2
  apart d d' other other' i hd hd' :=
    h.apart d d' other other' i ((target_update_ready d _).mp hd).2
      ((target_update_ready d' _).mp hd').2
  written d args other i r written hd := by
    dsimp only at hd ⊢
    by_cases hdc : d = c
    · rw [hdc, Function.update_self] at hd
      cases hd
    · rw [Function.update_of_ne hdc] at hd
      exact h.written d args other i r written hd

/-- A step keeps the accounts. -/
theorem step_accounted [DecidableEq N] {resolve : Arg → N} {directory : N → Option ℕ}
    {contents : List Bytes} {st st' : Objects ι N} {e : Event ι}
    (h : Accounted directory contents st) (hstep : step resolve st e = some st') :
    Accounted directory contents st' := by
  cases e with
  | ipccheckpoint c argv ok =>
    simp only [step] at hstep
    split at hstep
    · rename_i hready
      split at hstep
      · exact Option.some.inj hstep ▸ h
      · split at hstep
        · rename_i hfree
          exact Option.some.inj hstep ▸ h.make hready _ hfree.2
        · exact Option.some.inj hstep ▸ h
    · cases hstep
  | save c r written =>
    simp only [step] at hstep
    split at hstep
    · rename_i hc
      exact Option.some.inj hstep ▸ h.save hc r written
    · cases hstep
  | finish c ok =>
    simp only [step] at hstep
    split at hstep
    · rename_i args name file r written hc
      have howner : (st.tool c).target = some (name, file) := by rw [hc, Phase.target]
      split at hstep
      · obtain rfl := Option.some.inj hstep
        refine h.settle howner (fun other i => ?_) fun e he => ?_
        · simp [Settled, or_and_right, exists_or, or_comm, or_left_comm, eq_comm]
        · rcases List.mem_append.mp he with he | he
          · exact h.preserved.2.2 e he
          · obtain rfl := List.mem_singleton.mp he
            exact h.written c args name file r written hc
      · split at hstep
        · exact Option.some.inj hstep ▸ h.unlink howner
        · obtain rfl := Option.some.inj hstep
          refine h.settle howner (fun other i => ?_) h.preserved.2.2
          simp [Settled, or_assoc]
    · cases hstep
  | ipcrestart c argv ok =>
    simp only [step] at hstep
    split at hstep
    · rename_i hready
      split at hstep
      · exact Option.some.inj hstep ▸ h
      · split at hstep
        · obtain rfl := Option.some.inj hstep
          refine h.of_tool (by rw [hready]; rfl) (fun _ _ _ _ _ hnew => ?_) st.restored
          cases hnew
        · exact Option.some.inj hstep ▸ h
    · cases hstep
  | restore c =>
    simp only [step] at hstep
    split at hstep
    · rename_i hc
      obtain rfl := Option.some.inj hstep
      refine h.of_tool (by rw [hc]; rfl) (fun _ _ _ _ _ hnew => ?_) _
      cases hnew
    · cases hstep
  | kill c =>
    obtain rfl := Option.some.inj hstep
    cases htarget : (st.tool c).target with
    | none =>
      have hkept := h.of_tool (c := c) (show (Phase.ready : Phase N).target = _ from htarget.symm)
        (fun _ _ _ _ _ hnew => by cases hnew) st.restored
      simpa using hkept
    | some x =>
      obtain ⟨name, file⟩ := x
      refine h.settle htarget (fun other i => ?_) h.preserved.2.2
      simp [Settled, or_assoc]

omit [DecidableEq ι] in
/-- Before any tool has run, all files are those of the start. -/
theorem accounted_start {directory : N → Option ℕ} {contents : List Bytes}
    (hfiles : ∀ name file, directory name = some file → file < contents.length) :
    Accounted directory contents (Objects.start ι directory contents) where
  preserved := by
    refine ⟨fun name file => ?_, fun _ _ => rfl, fun e he => absurd he List.not_mem_nil⟩
    simp [Settled, Objects.start, Phase.target]
  numbered := hfiles
  unsettled c name file hc := by cases hc
  apart c d name other file hc := by cases hc
  written c args name file r written hc := by cases hc

/-- Whatever tools save and restore objects at the same time, in whatever order their calls come,
whichever of these fail and whichever tools are killed: the files of the start and of the objects that
have been saved stay there with their contents, and a tool that could not save its object leaves
nothing if it can take its file away. -/
theorem objects_preserved [DecidableEq N] (resolve : Arg → N) {directory : N → Option ℕ}
    {contents : List Bytes}
    (hfiles : ∀ name file, directory name = some file → file < contents.length)
    (events : List (Event ι)) :
    Throughout (step resolve) (Preserved directory contents)
      (Objects.start ι directory contents) events := by
  have hkeep (st : Objects ι N) (e : Event ι) (st' : Objects ι N)
      (h : Accounted directory contents st) (hstep : step resolve st e = some st') :
      Accounted directory contents st' := step_accounted h hstep
  have hall := throughout_of_step hkeep (accounted_start hfiles) events
  exact hall.mono fun st h => h.preserved

/-- There is one file at the start. -/
def oneFile (name : Arg) : Option ℕ := if name = "old".toList then some 0 else none

/-- It has the number 0. -/
theorem oneFile_lt {name : Arg} {file : ℕ} (h : oneFile name = some file) : file < 1 := by
  rw [oneFile] at h
  split at h
  · obtain rfl := Option.some.inj h
    decide
  · cases h

/-- Two tools want to save different objects in one file, and a third object is not saved. The first
one is restored. -/
def snapEvents : List (Event Bool) :=
  [.ipccheckpoint false ["-q7".toList, "snap".toList] true,
    .ipccheckpoint true ["-s".toList, "3".toList, "snap".toList] true, .save false 0 [1, 2],
    .ipccheckpoint true ["--memory=5".toList, "shm".toList] true, .save true (-1) [9],
    .finish true true, .finish false true, .ipcrestart true ["snap".toList, "-q".toList] true,
    .restore true]

/-- The file of the start and the first object stay. -/
theorem first_object_preserved :
    Throughout (step id) (Preserved oneFile [[4]]) (Objects.start Bool oneFile [[4]]) snapEvents :=
  objects_preserved id (fun _ _ => oneFile_lt) snapEvents

/-- The name of the file that `ipcrestart` opens. -/
def restartName (resolve : Arg → N) (argv : List Arg) : Option N :=
  match parseRestartArgs argv with
  | .ok (_, pathname) => some (resolve pathname)
  | .error _ => none

/-- Nobody opens a file to restore it while another tool saves an object in it. -/
def Undisturbed (resolve : Arg → N) (st : Objects ι N) : Event ι → Prop
  | .ipcrestart _ argv _ => ∀ d, ∀ x ∈ (st.tool d).target, some x.1 ≠ restartName resolve argv
  | _ => True

instance [Fintype ι] [DecidableEq N] (resolve : Arg → N) (st : Objects ι N) :
    ∀ e, Decidable (Undisturbed resolve st e)
  | .ipcrestart _ argv _ => inferInstanceAs (Decidable
      (∀ d, ∀ x ∈ (st.tool d).target, some x.1 ≠ restartName resolve argv))
  | .ipccheckpoint _ _ _ | .save _ _ _ | .finish _ _ | .restore _ | .kill _ => isTrue trivial

/-- What the kernel is given to restore is a file of the start, or what it has written for the object
that was saved in the file, or a file that was left. -/
def GivesBack (directory : N → Option ℕ) (contents : List Bytes) (st : Objects ι N) : Prop :=
  ∀ r ∈ st.restored,
    (directory r.name = some r.file ∧ contents[r.file]? = some r.contents) ∨
      (∃ e ∈ st.saved, e.name = r.name ∧ e.file = r.file ∧ e.written = r.contents) ∨
      (r.name, r.file) ∈ st.left

/-- The files that are open to be restored are settled. -/
def ReadsSettled (directory : N → Option ℕ) (st : Objects ι N) : Prop :=
  ∀ c ipcType name file, st.tool c = .restarting ipcType name file → Settled directory st name file

omit [DecidableEq ι] in
/-- What was given back stays given back when more is saved or left. -/
theorem GivesBack.mono {directory : N → Option ℕ} {contents : List Bytes} {st st' : Objects ι N}
    (h : GivesBack directory contents st) (hrestored : st'.restored = st.restored)
    (hsaved : ∀ e ∈ st.saved, e ∈ st'.saved) (hleft : ∀ x ∈ st.left, x ∈ st'.left) :
    GivesBack directory contents st' := by
  intro r hr
  rw [hrestored] at hr
  rcases h r hr with hstart | ⟨e, he, heq⟩ | hold
  · exact Or.inl hstart
  · exact Or.inr (Or.inl ⟨e, hsaved e he, heq⟩)
  · exact Or.inr (Or.inr (hleft _ hold))

/-- A tool that opens nothing to restore it leaves the open files settled. -/
theorem ReadsSettled.mono {directory : N → Option ℕ} {st st' : Objects ι N}
    (h : ReadsSettled directory st) {c : ι} {new : Phase N}
    (htool : st'.tool = Function.update st.tool c new)
    (hnew : ∀ ipcType name file, new = .restarting ipcType name file →
      Settled directory st name file)
    (hsaved : ∀ e ∈ st.saved, e ∈ st'.saved) (hleft : ∀ x ∈ st.left, x ∈ st'.left) :
    ReadsSettled directory st' := by
  have hsettled {name : N} {file : ℕ} (hold : Settled directory st name file) :
      Settled directory st' name file := by
    rcases hold with hstart | ⟨e, he, heq⟩ | hold
    · exact Or.inl hstart
    · exact Or.inr (Or.inl ⟨e, hsaved e he, heq⟩)
    · exact Or.inr (Or.inr (hleft _ hold))
  intro d ipcType name file hd
  rw [htool] at hd
  by_cases hdc : d = c
  · rw [hdc, Function.update_self] at hd
    exact hsettled (hnew ipcType name file hd)
  · rw [Function.update_of_ne hdc] at hd
    exact hsettled (h d ipcType name file hd)

/-- A step in which nobody is disturbed gives back what was written. -/
theorem step_givesBack [DecidableEq N] {resolve : Arg → N} {directory : N → Option ℕ}
    {contents : List Bytes}
    (hfiles : ∀ name file, directory name = some file → file < contents.length)
    {st st' : Objects ι N} {e : Event ι} (haccounted : Accounted directory contents st)
    (hreads : ReadsSettled directory st) (hgives : GivesBack directory contents st)
    (hundisturbed : Undisturbed resolve st e) (hstep : step resolve st e = some st') :
    ReadsSettled directory st' ∧ GivesBack directory contents st' := by
  have hsame := And.intro hreads hgives
  cases e with
  | ipccheckpoint c argv ok =>
    simp only [step] at hstep
    split at hstep
    · split at hstep
      · exact Option.some.inj hstep ▸ hsame
      · split at hstep
        · obtain rfl := Option.some.inj hstep
          exact ⟨hreads.mono rfl (fun _ _ _ hnew => by cases hnew) (fun _ he => he) fun _ hx => hx,
            hgives.mono rfl (fun _ he => he) fun _ hx => hx⟩
        · exact Option.some.inj hstep ▸ hsame
    · cases hstep
  | save c r written =>
    simp only [step] at hstep
    split at hstep
    · obtain rfl := Option.some.inj hstep
      exact ⟨hreads.mono rfl (fun _ _ _ hnew => by cases hnew) (fun _ he => he) fun _ hx => hx,
        hgives.mono rfl (fun _ he => he) fun _ hx => hx⟩
    · cases hstep
  | finish c ok =>
    simp only [step] at hstep
    split at hstep
    · rename_i args name file r written hc
      split at hstep
      · obtain rfl := Option.some.inj hstep
        have hsaved (e : Saved N) (he : e ∈ st.saved) :=
          List.mem_append_left [⟨args, name, file, written⟩] he
        exact ⟨hreads.mono rfl (fun _ _ _ hnew => by cases hnew) hsaved fun _ hx => hx,
          hgives.mono rfl hsaved fun _ hx => hx⟩
      · split at hstep
        · obtain rfl := Option.some.inj hstep
          exact ⟨hreads.mono rfl (fun _ _ _ hnew => by cases hnew) (fun _ he => he) fun _ hx => hx,
            hgives.mono rfl (fun _ he => he) fun _ hx => hx⟩
        · obtain rfl := Option.some.inj hstep
          have hleft (x : N × ℕ) (hx : x ∈ st.left) := List.mem_append_left [(name, file)] hx
          exact ⟨hreads.mono rfl (fun _ _ _ hnew => by cases hnew) (fun _ he => he) hleft,
            hgives.mono rfl (fun _ he => he) hleft⟩
    · cases hstep
  | ipcrestart c argv ok =>
    simp only [step] at hstep
    split at hstep
    · split at hstep
      · exact Option.some.inj hstep ▸ hsame
      · rename_i args pathname hparse
        split at hstep
        · rename_i file hopen
          obtain rfl := Option.some.inj hstep
          refine ⟨hreads.mono rfl (fun _ _ _ hnew => ?_) (fun _ he => he) fun _ hx => hx,
            hgives.mono rfl (fun _ he => he) fun _ hx => hx⟩
          obtain ⟨-, rfl, rfl⟩ := Phase.restarting.inj hnew
          have hdir : st.directory (resolve pathname) = some file := by
            split at hopen
            · exact hopen
            · cases hopen
          rcases (haccounted.preserved.1 _ _).mp hdir with hsettled | ⟨d, hd⟩
          · exact hsettled
          · refine absurd ?_ (hundisturbed d _ hd)
            rw [restartName, hparse]
        · exact Option.some.inj hstep ▸ hsame
    · cases hstep
  | restore c =>
    simp only [step] at hstep
    split at hstep
    · rename_i ipcType name file hc
      obtain rfl := Option.some.inj hstep
      refine ⟨hreads.mono rfl (fun _ _ _ hnew => by cases hnew) (fun _ he => he) fun _ hx => hx,
        fun r hr => ?_⟩
      rcases List.mem_append.mp hr with hr | hr
      · exact hgives r hr
      · obtain rfl := List.mem_singleton.mp hr
        rcases hreads c ipcType name file hc with hstart | ⟨e, he, hname, hfile⟩ | hleft
        · refine Or.inl ⟨hstart, ?_⟩
          have hlt := hfiles name file hstart
          rw [← haccounted.preserved.2.1 file hlt, List.getD_eq_getElem?_getD,
            List.getElem?_eq_getElem (hlt.trans_le haccounted.length_le), Option.getD_some]
        · refine Or.inr (Or.inl ⟨e, he, hname, hfile, ?_⟩)
          rw [List.getD_eq_getElem?_getD, ← hfile, haccounted.preserved.2.2 e he, Option.getD_some]
        · exact Or.inr (Or.inr hleft)
    · cases hstep
  | kill c =>
    obtain rfl := Option.some.inj hstep
    have hleft (x : N × ℕ) (hx : x ∈ st.left) := List.mem_append_left (st.tool c).target.toList hx
    exact ⟨hreads.mono rfl (fun _ _ _ hnew => by cases hnew) (fun _ he => he) hleft,
      hgives.mono rfl (fun _ he => he) hleft⟩

/-- Where nobody opens a file to restore it while another tool saves an object in it, the kernel is
given back what it has written, or what was there at the start, or a file that a tool has left. -/
theorem restores_what_was_saved [DecidableEq N] (resolve : Arg → N) {directory : N → Option ℕ}
    {contents : List Bytes}
    (hfiles : ∀ name file, directory name = some file → file < contents.length)
    (events : List (Event ι))
    (hrun : Along (step resolve) (Undisturbed resolve) (Objects.start ι directory contents) events) :
    Throughout (step resolve) (GivesBack directory contents)
      (Objects.start ι directory contents) events := by
  have hstart : Accounted directory contents (Objects.start ι directory contents) ∧
      ReadsSettled directory (Objects.start ι directory contents) ∧
      GivesBack directory contents (Objects.start ι directory contents) := by
    refine ⟨accounted_start hfiles, fun c ipcType name file hc => ?_, fun r hr => ?_⟩
    · cases hc
    · exact absurd hr List.not_mem_nil
  have hkeep (st : Objects ι N) (e : Event ι) (st' : Objects ι N)
      (h : Accounted directory contents st ∧ ReadsSettled directory st ∧
        GivesBack directory contents st)
      (hundisturbed : Undisturbed resolve st e) (hstep : step resolve st e = some st') :
      Accounted directory contents st' ∧ ReadsSettled directory st' ∧
        GivesBack directory contents st' :=
    ⟨step_accounted h.1 hstep, step_givesBack hfiles h.1 h.2.1 h.2.2 hundisturbed hstep⟩
  have hall := throughout_of_along hkeep hstart events hrun
  exact hall.mono fun st h => h.2.2

/-- The kernel is given back the first object. -/
theorem first_object_restored :
    Throughout (step id) (GivesBack oneFile [[4]]) (Objects.start Bool oneFile [[4]]) snapEvents :=
  restores_what_was_saved id (fun _ _ => oneFile_lt) snapEvents (by decide)

/-- The bytes come back. -/
example : (run (step id) (Objects.start Bool oneFile [[4]]) snapEvents).map (·.restored) =
    some [⟨.msg, "snap".toList, 1, [1, 2]⟩] := by decide

end Kerrighed.Tools.IpcObjects
