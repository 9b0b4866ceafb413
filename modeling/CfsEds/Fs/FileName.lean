import CfsEds.Lib.Split
import Mathlib.Data.BitVec
import Mathlib.Data.List.DropRight
import Mathlib.Data.List.Infix

/-!
# File names of commands

`CFE_FS_ParseInputFileNameEx` makes a file name from the fixed-size buffer of a command and
the defaults of the platform. One pass of its loop takes a component from the input: the
directories one by one, the name and the extension, with the separators between them.

The components are found with `memchr` over the whole buffer, and are only cut at a zero when
they are copied. So a separator behind the terminator of the name counts as well: the result
is that of `nameParts`, which splits the whole buffer. And the separators are skipped with
`*InputPtr == ComponentTerm && InputLen > 0`, in this order: behind a buffer that ends in
separators one more byte is read.

Mirroring notes:
- The input pointer and `InputLen` are the bytes that are left; `terminated` says that a zero
  follows them, as it does in the strings of the defaults. `NULL` is `none`.
- The output is the first `OutputLen` bytes of the buffer.
- An access outside of a buffer is the outcome `fault`. The passes of the loop are counted;
  `unfinished` would be a loop that needs more than its count.
- `OutputBuffer` is not `NULL`.
-/

namespace CfsEds.Fs

open Lib List Option

variable {c : Byte} {bytes dir : List Byte}

abbrev Byte := BitVec 8

/-! ## The parser -/

/-- The status codes of the parser. -/
inductive FsStatus where
  | success
  | badArgument
  | invalidPath
  | fnameTooLong
  deriving DecidableEq, Repr

/-- The components of a file name, in the order of the source's enumeration. -/
inductive Component where
  | processInit
  | pathnameComponent
  | pathnameSeparator
  | filenameComponent
  | extensionSeparator
  | extensionComponent
  | endComponent
  deriving DecidableEq, Repr

/-- `++Component` -/
def Component.succ : Component → Component
  | .processInit => .pathnameComponent
  | .pathnameComponent => .pathnameSeparator
  | .pathnameSeparator => .filenameComponent
  | .filenameComponent => .extensionSeparator
  | .extensionSeparator => .extensionComponent
  | .extensionComponent => .endComponent
  | .endComponent => .endComponent

/-- What `InputPtr` and `InputLen` still cover. -/
structure Cursor where
  rest : List Byte
  terminated : Bool
  deriving DecidableEq, Repr

/-- `DefaultInput`, `DefaultPath` and `DefaultExtension`. -/
structure Defaults where
  input : Option (List Byte)
  path : Option (List Byte)
  extension : Option (List Byte)
  deriving DecidableEq, Repr

/-- The variables of the loop. -/
structure ParseState where
  status : FsStatus
  input : Option Cursor
  output : List Byte
  componentTerm : Byte
  lastPathReached : Bool
  component : Component
  deriving DecidableEq, Repr

/-- How a call ends. -/
inductive Outcome where
  | fault
  | unfinished
  | returned (status : FsStatus) (output : List Byte)
  deriving DecidableEq, Repr

/-- The string at the start of some bytes. -/
def cString (bytes : List Byte) : List Byte := bytes.takeWhile (· ≠ 0)

/-- `memchr`: what stands before the first `c`, and what starts with it. -/
def memchr (c : Byte) (bytes : List Byte) : Option (List Byte × List Byte) :=
  if c ∈ bytes then some (bytes.takeWhile (· ≠ c), bytes.dropWhile (· ≠ c)) else none

/-- The loop that skips separators. It looks at the next byte before it looks at the length. -/
def skipTerm (term : Byte) (terminated : Bool) : List Byte → Option (List Byte)
  | [] => if terminated then some [] else none
  | c :: rest => if c = term then skipTerm term terminated rest else some (c :: rest)

/-- `PATHNAME_COMPONENT`: the component, and the state when it is known. -/
def pathnamePass (d : Defaults) (st : ParseState) (cur : Cursor) : List Byte × ParseState :=
  match memchr 0x2F cur.rest with
  | some (dir, rest) =>
    (dir, { st with componentTerm := 0x2F, input := some { cur with rest := rest } })
  | none =>
    (if st.output = [] then d.path.elim [] cString else [],
      { st with componentTerm := 0x2F, lastPathReached := true })

/-- A name that is not empty is a success. -/
def nameStatus (name : List Byte) (status : FsStatus) : FsStatus :=
  if cString name = [] then status else .success

/-- `FILENAME_COMPONENT` -/
def filenamePass (d : Defaults) (st : ParseState) (cur : Cursor) : List Byte × ParseState :=
  match memchr 0x2E cur.rest with
  | some (name, rest) =>
    (name,
      { st with
        componentTerm := 0x2E
        input := some { cur with rest := rest }
        status := nameStatus name st.status })
  | none =>
    (cur.rest,
      { st with
        componentTerm := 0x2E
        input := d.extension.map fun extension => ⟨cString extension, true⟩
        status := nameStatus cur.rest st.status })

/-- `PATHNAME_SEPARATOR` and `EXTENSION_SEPARATOR` -/
def separatorPass (st : ParseState) (cur : Cursor) : Option (List Byte × ParseState) :=
  (skipTerm st.componentTerm cur.terminated cur.rest).map fun rest =>
    ([st.componentTerm],
      { st with
        output := st.output.rdropWhile (· = st.componentTerm)
        input := some { cur with rest := rest } })

/-- `EXTENSION_COMPONENT` and the default case -/
def extensionPass (st : ParseState) (cur : Cursor) : List Byte × ParseState :=
  (cur.rest, { st with componentTerm := 0, input := none })

/-- The next component. -/
def fetch (d : Defaults) (st : ParseState) (cur : Cursor) : Option (List Byte × ParseState) :=
  match st.component with
  | .pathnameComponent => some (pathnamePass d st cur)
  | .filenameComponent => some (filenamePass d st cur)
  | .pathnameSeparator => separatorPass st cur
  | .extensionSeparator => separatorPass st cur
  | .processInit => some (extensionPass st cur)
  | .extensionComponent => some (extensionPass st cur)
  | .endComponent => some (extensionPass st cur)

/-- The loop that appends a component to the output. -/
def appendComponent (size : Nat) : List Byte → ParseState → Option ParseState
  | [], st => some st
  | c :: bytes, st =>
    if c = 0 then some st
    else if st.output.length < size then
      if size ≤ (st.output ++ [c]).length then
        -- the name does not fit: back up one char for the terminator
        some { st with status := .fnameTooLong, input := none }
      else appendComponent size bytes { st with output := st.output ++ [c] }
    else none

/-- Move to the next component. -/
def ParseState.advance (st : ParseState) : ParseState :=
  { st with
    component :=
      if st.component = .pathnameSeparator ∧ st.lastPathReached = false then .pathnameComponent
      else st.component.succ }

/-- A pass of the main loop. -/
def parsePass (size : Nat) (d : Defaults) (st : ParseState) (cur : Cursor) : Option ParseState :=
  (fetch d st.advance cur).bind fun next => appendComponent size next.1 next.2

/-- The terminator at the end. -/
def ParseState.finish (size : Nat) (st : ParseState) : Outcome :=
  if st.output.length < size then .returned st.status st.output else .fault

/-- The main loop. -/
def parseLoop (size : Nat) (d : Defaults) : Nat → ParseState → Outcome
  | 0, st => if st.input = none ∨ st.component = .endComponent then st.finish size else .unfinished
  | n + 1, st =>
    match st.input with
    | none => st.finish size
    | some cur =>
      if st.component = .endComponent then st.finish size
      else (parsePass size d st cur).elim .fault (parseLoop size d n)

/-- The input if there is one, and the default input otherwise. -/
def selectInput (inputBuffer : Option (List Byte)) (d : Defaults) : Option Cursor :=
  match inputBuffer with
  | some (c :: bytes) =>
    if c ≠ 0 then some ⟨c :: bytes, false⟩
    else d.input.map fun input => ⟨cString input, true⟩
  | _ => d.input.map fun input => ⟨cString input, true⟩

/-- The passes that are enough for an input. -/
def passes (input : Option Cursor) : Nat := 2 * (input.elim 0 fun cur => cur.rest.length) + 8

def ParseState.init (input : Option Cursor) : ParseState :=
  ⟨.invalidPath, input, [], 0, false, .processInit⟩

/-- `CFE_FS_ParseInputFileNameEx` -/
def parseInputFileNameEx (outputBufSize : Nat) (inputBuffer : Option (List Byte))
    (d : Defaults) : Outcome :=
  if outputBufSize = 0 then .returned .badArgument []
  else
    let input := selectInput inputBuffer d
    parseLoop outputBufSize d (passes input) (ParseState.init input)

/-! ## What the result is made of -/

/-- A path as it is copied: every directory cut at its zero, with one separator behind it. Only
the first one may be empty. -/
def joinDirs : List (List Byte) → List Byte
  | [] => []
  | dir :: dirs =>
    cString dir ++ 0x2F :: ((dirs.map cString).filter (· ≠ [])).flatMap (· ++ [0x2F])

/-- What the parser finds in the bytes of a buffer. -/
structure NameParts where
  path : Option (List Byte)
  name : List Byte
  extension : Option (List Byte)
  deriving DecidableEq, Repr

/-- What follows the last separator. -/
def fileOf (bytes : List Byte) : List Byte := (bytes.splitOn 0x2F).getLastD []

/-- The directories: everything before the last separator. -/
def dirsOf (bytes : List Byte) : List (List Byte) := (bytes.splitOn 0x2F).dropLast

/-- What follows the dots of the first extension. -/
def afterDots (file : List Byte) : List Byte :=
  (file.dropWhile (· ≠ 0x2E)).dropWhile (· = 0x2E)

/-- The whole buffer split at its separators, with no regard to the terminator. -/
def nameParts (bytes : List Byte) : NameParts where
  path := if dirsOf bytes = [] then none else some (joinDirs (dirsOf bytes))
  name := cString ((fileOf bytes).takeWhile (· ≠ 0x2E))
  extension :=
    if 0x2E ∈ fileOf bytes then some (cString (afterDots (fileOf bytes))) else none

/-- The buffer ends in the separators of its last directory or of its extension. -/
def RunsOver (bytes : List Byte) : Prop :=
  fileOf bytes = [] ∨ 0x2E ∈ fileOf bytes ∧ afterDots (fileOf bytes) = []

instance (bytes : List Byte) : Decidable (RunsOver bytes) := by
  unfold RunsOver
  infer_instance

/-- Writing on with `k` if the output fits so far. -/
def bounded (size : Nat) (output : List Byte) (k : Outcome) : Outcome :=
  if output.length < size then k else .returned .fnameTooLong (output.take (size - 1))

/-- A separator and an extension behind the output. -/
def withExtension (size : Nat) (status : FsStatus) (output extension : List Byte) : Outcome :=
  let dotted := output.rdropWhile (· = 0x2E) ++ [0x2E]
  bounded size dotted
    (bounded size (dotted ++ extension) (.returned status (dotted ++ extension)))

/-- The result for the parts that were found. -/
def compose (size : Nat) (d : Defaults) (parts : NameParts) : Outcome :=
  let base := parts.path.getD (d.path.elim [] cString)
  let path := base.rdropWhile (· = 0x2F) ++ [0x2F]
  let named := path ++ parts.name
  let status := if parts.name = [] then FsStatus.invalidPath else .success
  bounded size base (bounded size path (bounded size named
    (match parts.extension with
    | some extension => withExtension size status named extension
    | none =>
      d.extension.elim (.returned status named) fun extension =>
        withExtension size status named ((cString extension).dropWhile (· = 0x2E)))))

/-! ## Bounded output -/

section Bounded

variable {size : Nat} {a b : List Byte} {k l : Outcome}

theorem bounded_of_lt (h : a.length < size) : bounded size a k = k := if_pos h

theorem bounded_congr (h : a.length < size → k = l) : bounded size a k = bounded size a l := by
  by_cases ha : a.length < size
  · rw [h ha]
  · rw [bounded, bounded, if_neg ha, if_neg ha]

/-- What is written on is checked again. -/
theorem bounded_of_prefix (h : a <+: b) : bounded size a (bounded size b k) = bounded size b k := by
  by_cases ha : a.length < size
  · exact bounded_of_lt ha
  have hb : ¬b.length < size := by have := h.length_le; omega
  have htake : a.take (size - 1) = b.take (size - 1) := by
    obtain ⟨c, rfl⟩ := h
    rw [take_append_of_le_length (by omega)]
  rw [bounded, bounded, if_neg ha, if_neg hb, htake]

theorem bounded_returned (h : ∃ status output, k = .returned status output) :
    ∃ status output, bounded size a k = .returned status output := by
  by_cases ha : a.length < size
  · rw [bounded_of_lt ha]
    exact h
  · exact ⟨_, _, if_neg ha⟩

end Bounded

/-! ## The passes -/

theorem cString_cons_zero (bytes : List Byte) : cString (0 :: bytes) = [] := rfl

theorem cString_cons (hc : c ≠ 0) (bytes : List Byte) :
    cString (c :: bytes) = c :: cString bytes := by
  unfold cString
  rw [takeWhile_cons_of_pos (by simpa using hc)]

theorem cString_cString (bytes : List Byte) : cString (cString bytes) = cString bytes := by
  induction bytes with
  | nil => rfl
  | cons c bytes ih =>
    by_cases hc : c = 0
    · subst hc
      rfl
    · rw [cString_cons hc, cString_cons hc, ih]

/-- The state behind a component: written to the output, or too long. -/
def ParseState.appended (size : Nat) (st : ParseState) (bytes : List Byte) : ParseState :=
  if (st.output ++ cString bytes).length < size then
    { st with output := st.output ++ cString bytes }
  else
    { st with
      status := .fnameTooLong
      input := none
      output := (st.output ++ cString bytes).take (size - 1) }

theorem appendComponent_eq {size : Nat} (bytes : List Byte) :
    ∀ {st : ParseState}, st.output.length < size →
      appendComponent size bytes st = some (st.appended size bytes) := by
  induction bytes with
  | nil =>
    intro st h
    simp [appendComponent, ParseState.appended, cString, h]
  | cons c bytes ih =>
    intro st h
    rw [appendComponent]
    by_cases hc : c = 0
    · subst hc
      have happend : st.output ++ cString (0 :: bytes) = st.output := by
        rw [cString_cons_zero, append_nil]
      rw [if_pos rfl, ParseState.appended, happend, if_pos h]
    rw [if_neg hc, if_pos h, length_append, length_singleton]
    by_cases hfull : size ≤ st.output.length + 1
    · have hsize : size - 1 = st.output.length := by omega
      have hlong : ¬(st.output ++ cString (c :: bytes)).length < size := by
        rw [cString_cons hc, length_append, length_cons]
        omega
      rw [if_pos hfull, ParseState.appended, if_neg hlong, hsize, take_left]
    · rw [if_neg hfull, ih (by rw [length_append, length_singleton]; omega)]
      simp only [ParseState.appended, cString_cons hc, append_assoc, singleton_append]

section Loop

variable {size n : Nat} {d : Defaults} {st st' : ParseState} {cur : Cursor} {bytes : List Byte}

theorem parseLoop_stopped (h : st.input = none) (hlt : st.output.length < size) :
    parseLoop size d n st = .returned st.status st.output := by
  have hfinish : st.finish size = .returned st.status st.output := if_pos hlt
  cases n with
  | zero => rw [parseLoop, if_pos (.inl h), hfinish]
  | succ =>
    rw [parseLoop, h]
    exact hfinish

/-- A pass that finds a component. -/
theorem parseLoop_fetched (hin : st.input = some cur) (hc : st.component ≠ .endComponent)
    (hfetch : fetch d st.advance cur = some (bytes, st')) (hlt : st'.output.length < size) :
    parseLoop size d (n + 1) st = bounded size (st'.output ++ cString bytes)
        (parseLoop size d n { st' with output := st'.output ++ cString bytes }) := by
  have hpass : parsePass size d st cur = some (st'.appended size bytes) := by
    rw [parsePass, hfetch]
    exact appendComponent_eq bytes hlt
  rw [parseLoop, hin]
  show (if st.component = .endComponent then _ else _) = _
  rw [if_neg hc, hpass]
  show parseLoop size d n (st'.appended size bytes) = _
  by_cases hfits : (st'.output ++ cString bytes).length < size
  · rw [ParseState.appended, if_pos hfits, bounded_of_lt hfits]
  rw [ParseState.appended, if_neg hfits, bounded, if_neg hfits]
  apply parseLoop_stopped rfl
  show (List.take (size - 1) _).length < size
  rw [length_take]
  omega

/-- A pass that reads outside of the input. -/
theorem parseLoop_fault (hin : st.input = some cur) (hc : st.component ≠ .endComponent)
    (hfetch : fetch d st.advance cur = none) : parseLoop size d (n + 1) st = .fault := by
  have hpass : parsePass size d st cur = none := by
    rw [parsePass, hfetch]
    rfl
  rw [parseLoop, hin]
  show (if st.component = .endComponent then _ else _) = _
  rw [if_neg hc, hpass]
  rfl

end Loop

theorem memchr_of_mem (h : c ∈ bytes) :
    memchr c bytes = some (bytes.takeWhile (· ≠ c), bytes.dropWhile (· ≠ c)) := if_pos h

theorem memchr_of_notMem (h : c ∉ bytes) : memchr c bytes = none := if_neg h

theorem skipTerm_eq (term : Byte) (terminated : Bool) (bytes : List Byte) :
    skipTerm term terminated bytes =
      if bytes.dropWhile (· = term) = [] ∧ terminated = false then none
      else some (bytes.dropWhile (· = term)) := by
  induction bytes with
  | nil => cases terminated <;> rfl
  | cons c rest ih =>
    rw [skipTerm]
    by_cases hc : c = term
    · rw [if_pos hc, ih, dropWhile_cons_of_pos (by simpa using hc)]
    · rw [if_neg hc, dropWhile_cons_of_neg (by simpa using hc), if_neg (by simp)]

/-- The separators end with the input. -/
theorem separatorPass_fault {st : ParseState} {cur : Cursor}
    (h : cur.rest.dropWhile (· = st.componentTerm) = [] ∧ cur.terminated = false) :
    separatorPass st cur = none := by
  rw [separatorPass, skipTerm_eq, if_pos h]
  rfl

theorem separatorPass_eq {st : ParseState} {cur : Cursor}
    (h : ¬(cur.rest.dropWhile (· = st.componentTerm) = [] ∧ cur.terminated = false)) :
    separatorPass st cur = some ([st.componentTerm], { st with
        output := st.output.rdropWhile (· = st.componentTerm)
        input := some { cur with rest := cur.rest.dropWhile (· = st.componentTerm) } }) := by
  rw [separatorPass, skipTerm_eq, if_neg h]
  rfl

theorem length_rdropWhile_le (p : Byte → Bool) (bytes : List Byte) :
    (bytes.rdropWhile p).length ≤ bytes.length := ( rdropWhile_prefix p bytes).length_le

/-! ## From the last directory to the end -/

section File

variable {size n : Nat} {d : Defaults} {output rest : List Byte} {terminated : Bool} {term : Byte}
  {comp : Component} {status : FsStatus}

/-- The states in which the next component is a directory. -/
def dirState (rest : List Byte) (terminated : Bool) (output : List Byte) (term : Byte)
    (comp : Component) : ParseState :=
  ⟨.invalidPath, some ⟨rest, terminated⟩, output, term, false, comp⟩

theorem advance_dirState (h : comp = .processInit ∨ comp = .pathnameSeparator) :
    (dirState rest terminated output term comp).advance =
      dirState rest terminated output term .pathnameComponent := by
  rcases h with rfl | rfl <;> rfl

theorem dirState_ne_end (h : comp = .processInit ∨ comp = .pathnameSeparator) :
    (dirState rest terminated output term comp).component ≠ .endComponent := by
  rcases h with rfl | rfl <;> exact Component.noConfusion

/-- The separator behind a directory or a name. -/
theorem parseLoop_separator {last : Bool}
    (hcomp : comp = .pathnameComponent ∨ comp = .filenameComponent) (hterm : term ≠ 0)
    (hlt : output.length < size) :
    parseLoop size d (n + 1) ⟨status, some ⟨rest, terminated⟩, output, term, last, comp⟩ =
      if rest.dropWhile (· = term) = [] ∧ terminated = false then .fault
      else
        bounded size (output.rdropWhile (· = term) ++ [term])
          (parseLoop size d n ⟨status, some ⟨rest.dropWhile (· = term), terminated⟩,
            output.rdropWhile (· = term) ++ [term], term, last, comp.succ⟩) := by
  have hend : comp ≠ .endComponent := by
    rcases hcomp with rfl | rfl <;> exact Component.noConfusion
  have hfetch : fetch d (ParseState.advance
      ⟨status, some ⟨rest, terminated⟩, output, term, last, comp⟩) ⟨rest, terminated⟩ =
      separatorPass ⟨status, some ⟨rest, terminated⟩, output, term, last, comp.succ⟩
        ⟨rest, terminated⟩ := by
    rcases hcomp with rfl | rfl <;> rfl
  by_cases hover : rest.dropWhile (· = term) = [] ∧ terminated = false
  · rw [if_pos hover]
    exact parseLoop_fault rfl hend (hfetch.trans (separatorPass_fault hover))
  have htrim : (output.rdropWhile (· = term)).length < size :=
    lt_of_le_of_lt (length_rdropWhile_le _ output) hlt
  rw [if_neg hover, parseLoop_fetched rfl hend (hfetch.trans (separatorPass_eq hover)) htrim,
    cString_cons hterm]
  rfl

/-- The extension: its separator, then the rest of the input. -/
theorem parseLoop_extension (hlt : output.length < size) : parseLoop size d (n + 2)
        ⟨status, some ⟨rest, terminated⟩, output, 0x2E, true, .filenameComponent⟩ =
      if rest.dropWhile (· = 0x2E) = [] ∧ terminated = false then .fault
      else withExtension size status output (cString (rest.dropWhile (· = 0x2E))) := by
  rw [parseLoop_separator (.inr rfl) (by decide) hlt, withExtension]
  generalize output.rdropWhile (· = 0x2E) ++ [0x2E] = dotted
  congr 1
  apply bounded_congr
  intro hfits
  have hrest : fetch d (ParseState.advance
      ⟨status, some ⟨rest.dropWhile (· = 0x2E), terminated⟩, dotted, 0x2E, true,
        .extensionSeparator⟩) ⟨rest.dropWhile (· = 0x2E), terminated⟩ =
      some (rest.dropWhile (· = 0x2E), ⟨status, none, dotted, 0, true, .extensionComponent⟩) := rfl
  exact (parseLoop_fetched rfl Component.noConfusion hrest hfits).trans
    (bounded_congr fun hall => parseLoop_stopped rfl hall)

/-- The result from the name on, with the directories in the output. -/
def fileOutcome (size : Nat) (d : Defaults) (output rest : List Byte) (terminated : Bool) :
    Outcome :=
  let name := cString (rest.takeWhile (· ≠ 0x2E))
  let status := if name = [] then FsStatus.invalidPath else .success
  bounded size (output ++ name)
    (if 0x2E ∈ rest then
      if afterDots rest = [] ∧ terminated = false then .fault
      else withExtension size status (output ++ name) (cString (afterDots rest))
    else
      d.extension.elim (.returned status (output ++ name)) fun extension =>
        withExtension size status (output ++ name) ((cString extension).dropWhile (· = 0x2E)))

theorem cString_dropWhile (p : Byte → Bool) (bytes : List Byte) :
    cString ((cString bytes).dropWhile p) = (cString bytes).dropWhile p := by
  apply takeWhile_eq_self_iff.2
  intro c hc
  have hmem := (dropWhile_suffix p).subset hc
  exact mem_takeWhile_imp (p := fun x => decide (x ≠ 0)) hmem

/-- The name and the extension. -/
theorem parseLoop_filename (hlt : output.length < size) : parseLoop size d (n + 3)
        ⟨.invalidPath, some ⟨rest, terminated⟩, output, 0x2F, true, .pathnameSeparator⟩ =
      fileOutcome size d output rest terminated := by
  rw [fileOutcome]
  by_cases hdot : 0x2E ∈ rest
  · have hname : fetch d (ParseState.advance
        ⟨.invalidPath, some ⟨rest, terminated⟩, output, 0x2F, true, .pathnameSeparator⟩)
        ⟨rest, terminated⟩ =
        some (rest.takeWhile (· ≠ 0x2E), ⟨nameStatus (rest.takeWhile (· ≠ 0x2E)) .invalidPath,
            some ⟨rest.dropWhile (· ≠ 0x2E), terminated⟩, output, 0x2E, true,
            .filenameComponent⟩) := by
      show some (filenamePass d _ _) = _
      rw [filenamePass, memchr_of_mem hdot]
      rfl
    rw [parseLoop_fetched rfl Component.noConfusion hname hlt]
    apply bounded_congr
    intro hfits
    rw [if_pos hdot]
    exact parseLoop_extension hfits
  · have hall : rest.takeWhile (· ≠ 0x2E) = rest := by
      apply takeWhile_eq_self_iff.2
      intro c hc
      exact decide_eq_true fun hcdot => hdot (hcdot ▸ hc)
    have hname : fetch d (ParseState.advance
        ⟨.invalidPath, some ⟨rest, terminated⟩, output, 0x2F, true, .pathnameSeparator⟩)
        ⟨rest, terminated⟩ =
        some (rest, ⟨nameStatus rest .invalidPath,
          d.extension.map fun extension => ⟨cString extension, true⟩, output, 0x2E, true,
          .filenameComponent⟩) := by
      show some (filenamePass d _ _) = _
      rw [filenamePass, memchr_of_notMem hdot]
      rfl
    rw [parseLoop_fetched rfl Component.noConfusion hname hlt, hall]
    apply bounded_congr
    intro hfits
    rw [if_neg hdot]
    cases hext : d.extension with
    | none => exact parseLoop_stopped rfl hfits
    | some extension =>
      show parseLoop size d (n + 2)
        ⟨_, some ⟨cString extension, true⟩, _, 0x2E, true, .filenameComponent⟩ = _
      rw [parseLoop_extension hfits, if_neg (by simp), cString_dropWhile]
      rfl

/-- The path in front of the name when the input has none (left). -/
def pathBase (d : Defaults) (output : List Byte) : List Byte :=
  output ++ if output = [] then d.path.elim [] cString else []

theorem cString_pathDefault (d : Defaults) (output : List Byte) :
    cString (if output = [] then d.path.elim [] cString else []) =
      if output = [] then d.path.elim [] cString else [] := by
  by_cases h : output = []
  · rw [if_pos h]
    cases d.path with
    | none => rfl
    | some path => exact cString_cString path
  · rw [if_neg h]
    rfl

/-- The result from the last path component on. -/
def lastOutcome (size : Nat) (d : Defaults) (output rest : List Byte) (terminated : Bool) :
    Outcome :=
  bounded size (pathBase d output)
    (if rest = [] ∧ terminated = false then .fault
    else
      bounded size ((pathBase d output).rdropWhile (· = 0x2F) ++ [0x2F])
        (fileOutcome size d ((pathBase d output).rdropWhile (· = 0x2F) ++ [0x2F]) rest
          terminated))

/-- The last path component, its separator, and what follows. -/
theorem parseLoop_file (hcomp : comp = .processInit ∨ comp = .pathnameSeparator)
    (hrest : 0x2F ∉ rest) (hlt : output.length < size) :
    parseLoop size d (n + 5) (dirState rest terminated output term comp) =
      lastOutcome size d output rest terminated := by
  have hpath : fetch d (dirState rest terminated output term comp).advance ⟨rest, terminated⟩ =
      some (if output = [] then d.path.elim [] cString else [],
        ⟨.invalidPath, some ⟨rest, terminated⟩, output, 0x2F, true, .pathnameComponent⟩) := by
    rw [advance_dirState hcomp]
    show some (pathnamePass d _ _) = _
    rw [pathnamePass, memchr_of_notMem hrest]
    rfl
  have hskip : rest.dropWhile (· = 0x2F) = rest := by
    cases rest with
    | nil => rfl
    | cons =>
      simpa using fun hc => hrest (by rw [hc]; exact mem_cons_self)
  rw [parseLoop_fetched rfl (dirState_ne_end hcomp) hpath hlt, cString_pathDefault]
  apply bounded_congr
  intro hbase
  rw [parseLoop_separator (.inl rfl) (show (0x2F : Byte) ≠ 0 by decide) hbase, hskip]
  congr 1
  apply bounded_congr
  intro hfits
  exact parseLoop_filename hfits

end File

/-! ## The directories -/

/-- A directory in the output, with one separator behind it. -/
def addDir (output dir : List Byte) : List Byte :=
  (output ++ cString dir).rdropWhile (· = 0x2F) ++ [0x2F]

/-- What follows the first directory and its separators. -/
def nextDir (bytes : List Byte) : List Byte :=
  (bytes.dropWhile (· ≠ 0x2F)).dropWhile (· = 0x2F)

section Dirs

variable {size n : Nat} {d : Defaults} {output rest : List Byte} {terminated : Bool} {term : Byte}
  {comp : Component}

/-- A directory and its separator. -/
theorem parseLoop_dir (hcomp : comp = .processInit ∨ comp = .pathnameSeparator)
    (hrest : 0x2F ∈ rest) (hlt : output.length < size) :
    parseLoop size d (n + 2) (dirState rest terminated output term comp) =
      bounded size (output ++ cString (rest.takeWhile (· ≠ 0x2F)))
        (if nextDir rest = [] ∧ terminated = false then .fault
        else
          bounded size (addDir output (rest.takeWhile (· ≠ 0x2F)))
            (parseLoop size d n (dirState (nextDir rest) terminated
              (addDir output (rest.takeWhile (· ≠ 0x2F))) 0x2F .pathnameSeparator))) := by
  have hdir : fetch d (dirState rest terminated output term comp).advance ⟨rest, terminated⟩ =
      some (rest.takeWhile (· ≠ 0x2F),
        dirState (rest.dropWhile (· ≠ 0x2F)) terminated output 0x2F .pathnameComponent) := by
    rw [advance_dirState hcomp]
    show some (pathnamePass d _ _) = _
    rw [pathnamePass, memchr_of_mem hrest]
    rfl
  rw [parseLoop_fetched rfl (dirState_ne_end hcomp) hdir hlt]
  show bounded size (output ++ _) (parseLoop size d (n + 1)
    (dirState _ _ (output ++ _) 0x2F .pathnameComponent)) = _
  apply bounded_congr
  intro hfits
  exact parseLoop_separator (.inl rfl) (by decide) hfits

/-- An output that is empty, or ends in exactly one separator. -/
def Slashed (output : List Byte) : Prop :=
  output = [] ∨ output.rdropWhile (· = 0x2F) ++ [0x2F] = output

theorem slashed_addDir (output dir : List Byte) : Slashed (addDir output dir) := by
  right
  rw [addDir, rdropWhile_concat_pos _ _ _ (by decide), rdropWhile_idempotent]

/-- A directory without separators is written on behind the output. -/
theorem addDir_of_ne_nil (hdir : 0x2F ∉ dir) (hne : cString dir ≠ []) :
    addDir output dir = output ++ cString dir ++ [0x2F] := by
  obtain ⟨front, last, hlast⟩ : ∃ front last, cString dir = front ++ [last] :=
    ⟨_, _, (dropLast_append_getLast hne).symm⟩
  have hmem : last ∈ dir := by
    have hsub := ( takeWhile_prefix (· ≠ (0 : Byte)) (l := dir)).subset
    apply hsub
    show last ∈ cString dir
    rw [hlast]
    exact mem_append_right _ (mem_singleton_self last)
  have hslash : ¬last = 0x2F := fun h => hdir (h ▸ hmem)
  rw [addDir, hlast, ← append_assoc, rdropWhile_concat_neg _ _ _ (by simpa using hslash)]

/-- An empty directory changes nothing but an empty output. -/
theorem addDir_of_nil (h : Slashed output) (hne : output ≠ []) (hdir : cString dir = []) :
    addDir output dir = output := by
  rw [addDir, hdir, append_nil]
  exact h.resolve_left hne

/-- The output only grows. -/
theorem prefix_addDir (h : Slashed output) (hdir : 0x2F ∉ dir) :
    output ++ cString dir <+: addDir output dir := by
  by_cases hne : cString dir = []
  · rcases h with rfl | hslash
    · rw [hne]
      exact nil_prefix
    · rw [hne, append_nil, addDir, hne, append_nil, hslash]
  · rw [addDir_of_ne_nil hdir hne]
    exact prefix_append _ _

theorem prefix_addDirs (dirs : List (List Byte)) :
    ∀ {output : List Byte}, Slashed output → (∀ dir ∈ dirs, 0x2F ∉ dir) →
      output <+: dirs.foldl addDir output := by
  induction dirs with
  | nil =>
    intro output _ _
    exact prefix_rfl
  | cons dir dirs ih =>
    intro output h hdirs
    have hfirst := prefix_addDir h (hdirs dir mem_cons_self)
    have hrest := ih (slashed_addDir output dir) fun e he => hdirs e (mem_cons_of_mem _ he)
    exact ((prefix_append _ _).trans hfirst).trans hrest

end Dirs

/-! ## Splitting the input -/

section Parts

variable {bytes : List Byte}

theorem dirsOf_of_notMem (h : 0x2F ∉ bytes) : dirsOf bytes = [] := by
  rw [dirsOf, splitOn_of_notMem h]
  rfl

theorem fileOf_of_notMem (h : 0x2F ∉ bytes) : fileOf bytes = bytes := by
  rw [fileOf, splitOn_of_notMem h]
  rfl

theorem getLastD_cons_of_ne_nil {α : Type} {x y : α} {xs : List α} (h : xs ≠ []) :
    (x :: xs).getLastD y = xs.getLastD y := by
  cases xs with
  | nil => exact absurd rfl h
  | cons => rfl

/-- The parts of a buffer with a separator, by what follows the separator. -/
theorem parts_of_mem (h : 0x2F ∈ bytes) : ∃ rest, bytes.dropWhile (· ≠ 0x2F) = 0x2F :: rest ∧
      dirsOf bytes = bytes.takeWhile (· ≠ 0x2F) :: dirsOf rest ∧ fileOf bytes = fileOf rest := by
  obtain ⟨rest, hdrop, hsplit⟩ := splitOn_of_mem h
  have hne := splitOn_ne_nil 0x2F rest
  refine ⟨rest, hdrop, ?_, ?_⟩
  · rw [dirsOf, hsplit, dropLast_cons_of_ne_nil hne]
    rfl
  · rw [fileOf, hsplit, getLastD_cons_of_ne_nil hne]
    rfl

/-- Separators at the start only add empty directories. -/
theorem parts_dropWhile (bytes : List Byte) : fileOf (bytes.dropWhile (· = 0x2F)) = fileOf bytes ∧
      ∀ {output : List Byte}, Slashed output → output ≠ [] →
        (dirsOf (bytes.dropWhile (· = 0x2F))).foldl addDir output =
          (dirsOf bytes).foldl addDir output := by
  induction bytes with
  | nil => exact ⟨rfl, fun _ _ => rfl⟩
  | cons c bytes ih =>
    by_cases hc : c = 0x2F
    · subst hc
      have hmem : (0x2F : Byte) ∈ 0x2F :: bytes := mem_cons_self
      obtain ⟨rest, hdrop, hdirs, hfile⟩ := parts_of_mem hmem
      obtain rfl : bytes = rest := by simpa using hdrop
      rw [dropWhile_cons_of_pos (by simp), hfile, hdirs]
      refine ⟨ih.1, ?_⟩
      intro output h hne
      rw [ih.2 h hne, foldl_cons, addDir_of_nil h hne (by simp [cString])]
    · rw [dropWhile_cons_of_neg (by simpa using hc)]
      exact ⟨rfl, fun _ _ => rfl⟩

/-- The directories have no separators in them. -/
theorem slash_notMem_dirs (bytes : List Byte) : ∀ dir ∈ dirsOf bytes, 0x2F ∉ dir := by
  intro dir hdir
  exact notMem_of_mem_splitOn dir (dropLast_subset _ hdir)

/-- What is left behind the first directory. -/
theorem parts_nextDir (h : 0x2F ∈ bytes) : fileOf (nextDir bytes) = fileOf bytes ∧
      (nextDir bytes).length + (bytes.takeWhile (· ≠ 0x2F)).length < bytes.length ∧
      ∀ output : List Byte,
        (dirsOf (nextDir bytes)).foldl addDir (addDir output (bytes.takeWhile (· ≠ 0x2F))) =
          (dirsOf bytes).foldl addDir output := by
  obtain ⟨rest, hdrop, hdirs, hfile⟩ := parts_of_mem h
  have hnext : nextDir bytes = rest.dropWhile (· = 0x2F) := by
    rw [nextDir, hdrop, dropWhile_cons_of_pos (by simp)]
  have hparts := parts_dropWhile rest
  refine ⟨?_, ?_, ?_⟩
  · rw [hnext, hparts.1, hfile]
  · have hlen := congrArg List.length
      (takeWhile_append_dropWhile (p := (· ≠ (0x2F : Byte))) (l := bytes))
    have hskip := (dropWhile_suffix (l := rest) (· = (0x2F : Byte))).length_le
    rw [length_append, hdrop, length_cons] at hlen
    rw [hnext]
    omega
  · intro output
    rw [hnext, hparts.2 (slashed_addDir _ _) (append_ne_nil_of_right_ne_nil _
      (cons_ne_nil _ _)), hdirs, foldl_cons]

end Parts

/-! ## The loop -/

section Run

variable {size : Nat} {d : Defaults} {terminated : Bool}

/-- The loop over the directories, when the input does not end in their separators. -/
theorem parseLoop_path (m : Nat) :
    ∀ {rest output : List Byte} {term : Byte} {comp : Component} {n : Nat}, rest.length ≤ m →
      2 * rest.length + 5 ≤ n → comp = .processInit ∨ comp = .pathnameSeparator →
      Slashed output → output.length < size → (fileOf rest = [] → terminated = true) →
      parseLoop size d n (dirState rest terminated output term comp) =
        bounded size ((dirsOf rest).foldl addDir output)
          (lastOutcome size d ((dirsOf rest).foldl addDir output) (fileOf rest) terminated) := by
  induction m with
  | zero =>
    intro rest output term comp n hm hn hcomp hslashed hlt _
    obtain rfl : rest = [] := length_eq_zero_iff.1 (Nat.le_zero.1 hm)
    obtain ⟨k, rfl⟩ : ∃ k, n = k + 5 := ⟨n - 5, by omega⟩
    rw [parseLoop_file hcomp not_mem_nil hlt]
    exact (bounded_of_lt hlt).symm
  | succ m ih =>
    intro rest output term comp n hm hn hcomp hslashed hlt hsafe
    by_cases hmem : 0x2F ∈ rest
    · obtain ⟨hfile, hlen, hdirs⟩ := parts_nextDir hmem
      obtain ⟨k, rfl⟩ : ∃ k, n = k + 2 := ⟨n - 2, by omega⟩
      have hover : ¬(nextDir rest = [] ∧ terminated = false) := by
        intro ⟨hnil, hterm⟩
        have hnofile : fileOf rest = [] := by
          rw [← hfile, hnil]
          rfl
        rw [hsafe hnofile] at hterm
        cases hterm
      have hdir : (0x2F : Byte) ∉ rest.takeWhile (· ≠ 0x2F) := by
        intro hin
        have hne := mem_takeWhile_imp (p := fun x => decide (x ≠ (0x2F : Byte))) hin
        exact (of_decide_eq_true hne) rfl
      have hslashed' := slashed_addDir output (rest.takeWhile (· ≠ 0x2F))
      rw [parseLoop_dir hcomp hmem hlt, if_neg hover, ← hdirs output, ← hfile]
      have hgrow := prefix_addDirs (dirsOf (nextDir rest)) hslashed'
        (slash_notMem_dirs (nextDir rest))
      rw [bounded_congr fun hfits => ih (by omega) (by omega) (.inr rfl) hslashed' hfits
        (by rwa [hfile]), bounded_of_prefix (prefix_addDir hslashed hdir), bounded_of_prefix hgrow]
    · obtain ⟨k, rfl⟩ : ∃ k, n = k + 5 := ⟨n - 5, by omega⟩
      rw [parseLoop_file hcomp hmem hlt, dirsOf_of_notMem hmem, fileOf_of_notMem hmem]
      exact (bounded_of_lt hlt).symm

/-- With room enough, an input that ends in the separators of a directory is read over its end. -/
theorem parseLoop_path_fault (m : Nat) :
    ∀ {rest output : List Byte} {term : Byte} {comp : Component} {n : Nat}, rest.length ≤ m →
      2 * rest.length + 5 ≤ n → comp = .processInit ∨ comp = .pathnameSeparator →
      output.length + rest.length < size → rest ≠ [] → fileOf rest = [] →
      parseLoop size d n (dirState rest false output term comp) = .fault := by
  induction m with
  | zero =>
    intro rest output term comp n hm _ _ _ hne _
    exact absurd (length_eq_zero_iff.1 (Nat.le_zero.1 hm)) hne
  | succ m ih =>
    intro rest output term comp n hm hn hcomp hroom hne hnil
    have hmem : 0x2F ∈ rest := by
      by_contra hmem
      exact hne ((fileOf_of_notMem hmem).symm.trans hnil)
    obtain ⟨hfile, hlen, -⟩ := parts_nextDir hmem
    obtain ⟨k, rfl⟩ : ∃ k, n = k + 2 := ⟨n - 2, by omega⟩
    have hcut : (cString (rest.takeWhile (· ≠ 0x2F))).length ≤
        (rest.takeWhile (· ≠ 0x2F)).length := ( takeWhile_prefix _).length_le
    have hwritten : (output ++ cString (rest.takeWhile (· ≠ 0x2F))).length < size := by
      rw [length_append]
      omega
    have hadd : (addDir output (rest.takeWhile (· ≠ 0x2F))).length ≤
        output.length + (rest.takeWhile (· ≠ 0x2F)).length + 1 := by
      have htrim := length_rdropWhile_le (· = 0x2F) (output ++ cString (rest.takeWhile (· ≠ 0x2F)))
      rw [addDir, length_append, length_singleton]
      rw [length_append] at htrim
      omega
    rw [parseLoop_dir hcomp hmem (by omega), bounded_of_lt hwritten]
    by_cases hend : nextDir rest = []
    · rw [if_pos ⟨hend, rfl⟩]
    · rw [if_neg (fun h => hend h.1), bounded_of_lt (by omega)]
      exact ih (by omega) (by omega) (.inr rfl) (by omega) hend (hfile.trans hnil)

end Run

/-! ## The parts decide -/

theorem foldl_addDir (dirs : List (List Byte)) :
    ∀ {output : List Byte}, Slashed output → output ≠ [] → (∀ dir ∈ dirs, 0x2F ∉ dir) →
      dirs.foldl addDir output =
        output ++ ((dirs.map cString).filter (· ≠ [])).flatMap (· ++ [0x2F]) := by
  induction dirs with
  | nil =>
    intro output _ _ _
    exact (append_nil output).symm
  | cons dir dirs ih =>
    intro output h hne hdirs
    have hdirs' : ∀ e ∈ dirs, 0x2F ∉ e := fun e he => hdirs e (mem_cons_of_mem _ he)
    rw [foldl_cons, map_cons]
    by_cases hdir : cString dir = []
    · rw [addDir_of_nil h hne hdir, ih h hne hdirs', filter_cons_of_neg (by simpa using hdir)]
    have hadd : addDir output dir = output ++ cString dir ++ [0x2F] :=
      addDir_of_ne_nil (hdirs dir mem_cons_self) hdir
    rw [ih (slashed_addDir _ _) (by rw [hadd]; simp) hdirs', hadd,
      filter_cons_of_pos (by simpa using hdir), flatMap_cons]
    simp only [append_assoc]

/-- The path that the loop writes is the one that is put together from the directories. -/
theorem foldl_addDir_eq_joinDirs {dirs : List (List Byte)} (hdirs : ∀ dir ∈ dirs, 0x2F ∉ dir) :
    dirs.foldl addDir [] = joinDirs dirs := by
  cases dirs with
  | nil => rfl
  | cons dir dirs =>
    have hfirst : addDir [] dir = cString dir ++ [0x2F] := by
      by_cases hdir : cString dir = []
      · rw [addDir, hdir]
        rfl
      · rw [addDir_of_ne_nil (hdirs dir mem_cons_self) hdir]
        rfl
    have hne : addDir [] dir ≠ [] := by
      exact append_ne_nil_of_right_ne_nil _ (cons_ne_nil _ _)
    rw [foldl_cons, foldl_addDir dirs (slashed_addDir _ _) hne
      fun e he => hdirs e (mem_cons_of_mem _ he), hfirst, joinDirs, append_assoc]
    rfl

theorem slashed_joinDirs {dirs : List (List Byte)} (hdirs : ∀ dir ∈ dirs, 0x2F ∉ dir)
    (hne : dirs ≠ []) :
    (joinDirs dirs).rdropWhile (· = 0x2F) ++ [0x2F] = joinDirs dirs := by
  have hslashed : Slashed (joinDirs dirs) := by
    rw [← foldl_addDir_eq_joinDirs hdirs]
    obtain ⟨front, last, rfl⟩ : ∃ front last, dirs = front ++ [last] :=
      ⟨_, _, (dropLast_append_getLast hne).symm⟩
    rw [foldl_append]
    exact slashed_addDir _ _
  refine hslashed.resolve_left ?_
  cases dirs with
  | nil => exact absurd rfl hne
  | cons => exact append_ne_nil_of_right_ne_nil _ (cons_ne_nil _ _)

section Result

variable {size : Nat} {d : Defaults} {bytes : List Byte}

theorem withExtension_returned (status : FsStatus) (output extension : List Byte) :
    ∃ status' output', withExtension size status output extension = .returned status' output' :=
  bounded_returned (bounded_returned ⟨_, _, rfl⟩)

theorem compose_returned (parts : NameParts) :
    ∃ status output, compose size d parts = .returned status output := by
  apply bounded_returned
  apply bounded_returned
  apply bounded_returned
  cases parts.extension with
  | some => exact withExtension_returned _ _ _
  | none =>
    cases d.extension with
    | none => exact ⟨_, _, rfl⟩
    | some => exact withExtension_returned _ _ _

/-- From the directories on, an input that does not end in separators gives the result for its
parts. -/
theorem lastOutcome_eq (hsize : 0 < size) (h : ¬RunsOver bytes) :
    bounded size (joinDirs (dirsOf bytes))
        (lastOutcome size d (joinDirs (dirsOf bytes)) (fileOf bytes) false) =
      compose size d (nameParts bytes) := by
  obtain ⟨hfile, hdots⟩ := not_or.1 h
  have hover : ¬(fileOf bytes = [] ∧ false = false) := fun hnil => hfile hnil.1
  have hname (path : List Byte) : fileOutcome size d path (fileOf bytes) false =
      bounded size (path ++ (nameParts bytes).name) (match (nameParts bytes).extension with
        | some extension => withExtension size
            (if (nameParts bytes).name = [] then FsStatus.invalidPath else .success)
            (path ++ (nameParts bytes).name) extension
        | none =>
          d.extension.elim (.returned
            (if (nameParts bytes).name = [] then FsStatus.invalidPath else .success)
            (path ++ (nameParts bytes).name)) fun extension =>
              withExtension size
                (if (nameParts bytes).name = [] then FsStatus.invalidPath else .success)
                (path ++ (nameParts bytes).name)
                ((cString extension).dropWhile (· = 0x2E))) := by
    rw [fileOutcome, nameParts]
    by_cases hdot : 0x2E ∈ fileOf bytes
    · have hafter : ¬(afterDots (fileOf bytes) = [] ∧ false = false) :=
        fun hnil => hdots ⟨hdot, hnil.1⟩
      rw [if_pos hdot, if_pos hdot, if_neg hafter]
    · rw [if_neg hdot, if_neg hdot]
  rw [lastOutcome, if_neg hover, hname, compose]
  by_cases hdirs : dirsOf bytes = []
  · -- no directory: the default path, if there is one
    have hpath : (nameParts bytes).path = none := if_pos hdirs
    have hbase : pathBase d [] = d.path.elim [] cString := by
      rw [pathBase, if_pos rfl, nil_append]
    rw [hdirs, hpath, joinDirs, hbase, bounded_of_lt hsize]
    rfl
  have hpath : (nameParts bytes).path = some (joinDirs (dirsOf bytes)) := if_neg hdirs
  have hslashed := slashed_joinDirs (slash_notMem_dirs bytes) hdirs
  have hne : joinDirs (dirsOf bytes) ≠ [] := by
    rw [← hslashed]
    exact append_ne_nil_of_right_ne_nil _ (cons_ne_nil _ _)
  have hbase : pathBase d (joinDirs (dirsOf bytes)) = joinDirs (dirsOf bytes) := by
    rw [pathBase, if_neg hne, append_nil]
  rw [hpath, hbase, bounded_of_prefix prefix_rfl]
  rfl

/-- The buffer is empty, or starts with its terminator: the default input is used. -/
def UsesDefault (bytes : List Byte) : Prop := cString bytes = []

theorem selectInput_of_default (h : UsesDefault bytes) :
    selectInput (some bytes) d = d.input.map fun input => ⟨cString input, true⟩ := by
  cases bytes with
  | nil => rfl
  | cons c =>
    have hc : c = 0 := by
      by_contra hc
      rw [UsesDefault, cString_cons hc] at h
      cases h
    rw [selectInput, if_neg (not_not.2 hc)]

theorem selectInput_of_input (h : ¬UsesDefault bytes) :
    selectInput (some bytes) d = some ⟨bytes, false⟩ := by
  cases bytes with
  | nil => exact absurd rfl h
  | cons c =>
    have hc : c ≠ 0 := by
      intro hc
      subst hc
      exact h rfl
    rw [selectInput, if_pos hc]

/-- The result for an input that does not end in the separators of a directory. -/
theorem parse_eq_lastOutcome (hsize : 0 < size) (hinput : ¬UsesDefault bytes)
    (hfile : fileOf bytes ≠ []) :
    parseInputFileNameEx size (some bytes) d = bounded size (joinDirs (dirsOf bytes))
        (lastOutcome size d (joinDirs (dirsOf bytes)) (fileOf bytes) false) := by
  rw [parseInputFileNameEx, if_neg (by omega), selectInput_of_input hinput,
    ← foldl_addDir_eq_joinDirs (slash_notMem_dirs bytes)]
  exact parseLoop_path bytes.length le_rfl (Nat.add_le_add_left (by decide) _) (.inl rfl)
    (.inl rfl) hsize fun hnil => absurd hnil hfile

/-- The result for an input that does not end in separators. -/
theorem parse_eq_compose (hsize : 0 < size) (hinput : ¬UsesDefault bytes) (h : ¬RunsOver bytes) :
    parseInputFileNameEx size (some bytes) d = compose size d (nameParts bytes) := by
  rw [parse_eq_lastOutcome hsize hinput fun hnil => h (.inl hnil), lastOutcome_eq hsize h]

/-- The default input is a string with its terminator: it is never read over its end. -/
theorem parse_default_returned (h : UsesDefault bytes) :
    ∃ status output, parseInputFileNameEx size (some bytes) d = .returned status output := by
  by_cases hsize : size = 0
  · exact ⟨_, _, if_pos hsize⟩
  rw [parseInputFileNameEx, if_neg hsize, selectInput_of_default h]
  cases d.input with
  | none =>
    refine ⟨_, _, parseLoop_stopped rfl ?_⟩
    exact Nat.pos_of_ne_zero hsize
  | some input =>
    have hloop : parseLoop size d (2 * (cString input).length + 8)
        (dirState (cString input) true [] 0 .processInit) =
        bounded size ((dirsOf (cString input)).foldl addDir [])
          (lastOutcome size d ((dirsOf (cString input)).foldl addDir [])
            (fileOf (cString input)) true) :=
      parseLoop_path (cString input).length le_rfl (by omega) (.inl rfl) (.inl rfl)
        (Nat.pos_of_ne_zero hsize) fun _ => rfl
    show ∃ status output, parseLoop size d (2 * (cString input).length + 8)
      (dirState (cString input) true [] 0 .processInit) = .returned status output
    rw [hloop]
    apply bounded_returned
    apply bounded_returned
    rw [if_neg (by simp)]
    apply bounded_returned
    apply bounded_returned
    by_cases hdot : 0x2E ∈ fileOf (cString input)
    · rw [if_pos hdot, if_neg (by simp)]
      exact withExtension_returned _ _ _
    rw [if_neg hdot]
    cases d.extension with
    | none => exact ⟨_, _, rfl⟩
    | some => exact withExtension_returned _ _ _

/-- Some call reads over the end of an input that ends in separators. -/
theorem exists_fault (hinput : ¬UsesDefault bytes) (h : RunsOver bytes) :
    ∃ size d, parseInputFileNameEx size (some bytes) d = .fault := by
  have hne : bytes ≠ [] := by
    rintro rfl
    exact hinput rfl
  by_cases hnil : fileOf bytes = []
  · refine ⟨bytes.length + 1, ⟨none, none, none⟩, ?_⟩
    rw [parseInputFileNameEx, if_neg (by omega), selectInput_of_input hinput]
    have hpasses : 2 * bytes.length + 5 ≤ passes (some ⟨bytes, false⟩) := by
      show _ ≤ 2 * bytes.length + 8
      omega
    exact parseLoop_path_fault bytes.length le_rfl hpasses (.inl rfl)
      (by rw [length_nil]; omega) hne hnil
  obtain ⟨hdot, hafter⟩ := h.resolve_left hnil
  have hpathBase : pathBase ⟨none, none, none⟩ (joinDirs (dirsOf bytes)) =
      joinDirs (dirsOf bytes) := by
    by_cases hjoin : joinDirs (dirsOf bytes) = []
    · rw [hjoin]
      rfl
    · rw [pathBase, if_neg hjoin, append_nil]
  -- a size for which nothing is too long before the extension
  obtain ⟨size, hsize⟩ : ∃ size, (joinDirs (dirsOf bytes)).length + (fileOf bytes).length + 1 <
      size := ⟨_, Nat.lt_succ_self _⟩
  refine ⟨size, ⟨none, none, none⟩, ?_⟩
  have htrim := length_rdropWhile_le (· = 0x2F) (joinDirs (dirsOf bytes))
  have hname : (cString ((fileOf bytes).takeWhile (· ≠ 0x2E))).length ≤ (fileOf bytes).length :=
    (( takeWhile_prefix _).trans ( takeWhile_prefix _)).length_le
  rw [parse_eq_lastOutcome (by omega) hinput hnil, bounded_of_lt (by omega), lastOutcome,
    hpathBase, bounded_of_lt (by omega), if_neg (fun hfile => hnil hfile.1),
    bounded_of_lt (by rw [length_append, length_singleton]; omega), fileOutcome,
    bounded_of_lt (by rw [length_append, length_append, length_singleton]; omega),
    if_pos hdot, if_pos ⟨hafter, rfl⟩]

theorem not_runsOver (hinput : ¬UsesDefault bytes) (hall : ∀ size d, ∃ status output,
    parseInputFileNameEx size (some bytes) d = .returned status output) : ¬RunsOver bytes := by
  intro hover
  obtain ⟨size, d, hfault⟩ := exists_fault hinput hover
  obtain ⟨_, _, hcall⟩ := hall size d
  rw [hfault] at hcall
  cases hcall

end Result

/-! ## Buffers with the same result -/

/-- The output of a call with room for everything and no extension by default. -/
def fullName (path : Option (List Byte)) (parts : NameParts) : List Byte :=
  (parts.path.getD (path.elim [] cString)).rdropWhile (· = 0x2F) ++ [0x2F] ++ parts.name ++
    parts.extension.elim [] fun extension => 0x2E :: extension

/-- A size of the output that is not enough for the parts. -/
def NameParts.room (path : Option (List Byte)) (parts : NameParts) : Nat :=
  (parts.path.getD (path.elim [] cString)).length + parts.name.length +
    (parts.extension.elim 0 List.length) + 2

/-- What the parts of a buffer look like. -/
structure NameParts.Proper (parts : NameParts) : Prop where
  path : ∀ path ∈ parts.path, path.rdropWhile (· = 0x2F) ++ [0x2F] = path
  slash_name : 0x2F ∉ parts.name
  dot_name : 0x2E ∉ parts.name
  slash_extension : ∀ extension ∈ parts.extension, 0x2F ∉ extension

theorem mem_of_mem_cString (h : c ∈ cString bytes) : c ∈ bytes := ( takeWhile_prefix _).subset h

theorem slash_notMem_file (bytes : List Byte) : 0x2F ∉ fileOf bytes := by
  have hne := splitOn_ne_nil 0x2F bytes
  have hlast : fileOf bytes ∈ bytes.splitOn 0x2F := by
    rw [fileOf, getLastD_eq_getLast?, getLast?_eq_some_getLast hne]
    exact getLast_mem hne
  exact notMem_of_mem_splitOn _ hlast

theorem proper_nameParts (bytes : List Byte) : (nameParts bytes).Proper where
  path := by
    intro path hpath
    by_cases hdirs : dirsOf bytes = []
    · simp [nameParts, hdirs] at hpath
    · obtain rfl : joinDirs (dirsOf bytes) = path := by simpa [nameParts, hdirs] using hpath
      exact slashed_joinDirs (slash_notMem_dirs bytes) hdirs
  slash_name := by
    intro hmem
    exact slash_notMem_file bytes (( takeWhile_prefix _).subset (mem_of_mem_cString hmem))
  dot_name := by
    intro hmem
    have hne := mem_takeWhile_imp (p := fun x => decide (x ≠ (0x2E : Byte)))
      (mem_of_mem_cString hmem)
    exact (of_decide_eq_true hne) rfl
  slash_extension := by
    intro extension hext hmem
    by_cases hdot : 0x2E ∈ fileOf bytes
    · have hsome : (nameParts bytes).extension = some (cString (afterDots (fileOf bytes))) :=
        if_pos hdot
      rw [hsome, mem_def, Option.some.injEq] at hext
      subst hext
      have hafter := mem_of_mem_cString hmem
      exact slash_notMem_file bytes ((dropWhile_suffix _).subset
        ((dropWhile_suffix _).subset hafter))
    · have hnone : (nameParts bytes).extension = none := if_neg hdot
      rw [hnone] at hext
      cases hext

section Same

variable {size : Nat} {path : Option (List Byte)} {parts other : NameParts}

/-- No dots stand between the path and the extension. -/
theorem rdropWhile_dot {base name : List Byte} (hdot : 0x2E ∉ name) :
    (base ++ [0x2F] ++ name).rdropWhile (· = 0x2E) = base ++ [0x2F] ++ name := by
  obtain rfl | ⟨front, last, rfl⟩ := eq_nil_or_concat' name
  · rw [append_nil, rdropWhile_concat_neg _ _ _ (by decide)]
  · have hlast : ¬last = 0x2E := fun h =>
      hdot (h ▸ mem_append_right _ (mem_singleton_self last))
    rw [← append_assoc, rdropWhile_concat_neg _ _ _ (by simpa using hlast)]

/-- The result of a call with room for everything. -/
theorem compose_large (hdot : 0x2E ∉ parts.name) (hsize : parts.room path < size) :
    ∃ status, compose size ⟨none, path, none⟩ parts = .returned status (fullName path parts) := by
  have htrim := length_rdropWhile_le (· = 0x2F) (parts.path.getD (path.elim [] cString))
  rw [NameParts.room] at hsize
  rw [compose, fullName]
  generalize parts.path.getD (path.elim [] cString) = base at htrim hsize
  rw [bounded_of_lt (by omega), bounded_of_lt (by rw [length_append, length_singleton]; omega),
    bounded_of_lt (by rw [length_append, length_append, length_singleton]; omega)]
  refine ⟨if parts.name = [] then .invalidPath else .success, ?_⟩
  cases hext : parts.extension with
  | none =>
    show Outcome.returned _ _ = .returned _ (_ ++ [])
    rw [append_nil]
  | some extension =>
    rw [hext, elim_some] at hsize
    simp only [withExtension, rdropWhile_dot hdot]
    rw [bounded_of_lt (by simp only [length_append, length_singleton]; omega),
      bounded_of_lt (by simp only [length_append, length_singleton]; omega),
      append_assoc _ [0x2E], elim_some]
    rfl

/-- The name and the extension can be told apart. -/
theorem name_extension_inj {name name' : List Byte} {extension extension' : Option (List Byte)}
    (hname : 0x2E ∉ name) (hname' : 0x2E ∉ name')
    (h : name ++ (extension.elim [] fun e => 0x2E :: e) =
      name' ++ (extension'.elim [] fun e => 0x2E :: e)) :
    name = name' ∧ extension = extension' := by
  have htake : ∀ {name : List Byte} {extension : Option (List Byte)}, 0x2E ∉ name →
      (name ++ (extension.elim [] fun e => 0x2E :: e)).takeWhile (· ≠ 0x2E) = name := by
    intro name extension hdot
    rw [takeWhile_append_of_pos]
    · cases extension with
      | none => exact append_nil name
      | some =>
        rw [elim_some, takeWhile_cons_of_neg (by simp), append_nil]
    · intro c hc
      exact decide_eq_true fun hcdot => hdot (hcdot ▸ hc)
  have heq : name = name' := by
    calc name = (name ++ (extension.elim [] fun e => 0x2E :: e)).takeWhile (· ≠ 0x2E) :=
          (htake hname).symm
      _ = name' := by rw [h, htake hname']
  subst heq
  refine ⟨rfl, ?_⟩
  cases extension <;> cases extension' <;> simp_all

/-- The path and what follows it can be told apart. -/
theorem path_inj {path path' tail tail' : List Byte} (htail : 0x2F ∉ tail) (htail' : 0x2F ∉ tail')
    (h : path ++ [0x2F] ++ tail = path' ++ [0x2F] ++ tail') : path = path' ∧ tail = tail' := by
  have hdrop : ∀ {path tail : List Byte}, 0x2F ∉ tail →
      (path ++ [0x2F] ++ tail).rdropWhile (· ≠ 0x2F) = path ++ [0x2F] := by
    intro path tail hslash
    induction tail using List.reverseRecOn with
    | nil => rw [append_nil, rdropWhile_concat_neg _ _ _ (by simp)]
    | append_singleton tail c ih =>
      have hc : ¬c = 0x2F := fun h =>
        hslash (h ▸ mem_append_right _ (mem_singleton_self c))
      rw [← append_assoc, rdropWhile_concat_pos _ _ _ (by simpa using hc)]
      exact ih fun hmem => hslash (mem_append_left _ hmem)
  have hpath : path ++ [0x2F] = path' ++ [0x2F] := by
    rw [← hdrop htail, h, hdrop htail']
  rw [hpath] at h
  exact ⟨append_cancel_right hpath, append_cancel_left h⟩

/-- The extension with its dot, behind a name: no separators of directories. -/
theorem NameParts.Proper.slash_tail (h : parts.Proper) :
    0x2F ∉ parts.name ++ (parts.extension.elim [] fun e => 0x2E :: e) := by
  intro hmem
  rcases mem_append.1 hmem with hname | hext
  · exact h.slash_name hname
  cases hparts : parts.extension with
  | none =>
    rw [hparts] at hext
    cases hext
  | some e =>
    rw [hparts, elim_some] at hext
    rcases mem_cons.1 hext with hdot | he
    · cases hdot
    · exact h.slash_extension e hparts he

/-- Calls with every default path tell the parts apart. -/
theorem fullName_inj (h : parts.Proper) (h' : other.Proper)
    (hsame : ∀ path, fullName path parts = fullName path other) : parts = other := by
  obtain ⟨path, name, extension⟩ := parts
  obtain ⟨path', name', extension'⟩ := other
  have hsplit : ∀ default : Option (List Byte),
      (path.getD (default.elim [] cString)).rdropWhile (· = 0x2F) =
        (path'.getD (default.elim [] cString)).rdropWhile (· = 0x2F) ∧
      name ++ (extension.elim [] fun e => 0x2E :: e) =
        name' ++ (extension'.elim [] fun e => 0x2E :: e) := by
    intro default
    have hfull := hsame default
    rw [fullName, fullName, append_assoc _ name, append_assoc _ name'] at hfull
    exact path_inj h.slash_tail h'.slash_tail hfull
  obtain ⟨rfl, rfl⟩ := name_extension_inj h.dot_name h'.dot_name (hsplit none).2
  -- a path of the input does not change with the default path
  have hpath : path = path' := by
    have hempty := (hsplit none).1
    have hletter := (hsplit (some [0x41])).1
    cases path with
    | none =>
      cases path' with
      | none => rfl
      | some => exact absurd (hletter.trans hempty.symm) (by decide)
    | some p =>
      cases path' with
      | none => exact absurd (hletter.symm.trans hempty) (by decide)
      | some p' =>
        have hp := h.path p rfl
        have hp' := h'.path p' rfl
        have hsame' : p.rdropWhile (· = 0x2F) = p'.rdropWhile (· = 0x2F) := hempty
        rw [← hp, ← hp', hsame']
  rw [hpath]

end Same

/-- Two buffers of one size that agree up to and including their terminator. -/
structure SameString (bytes other : List Byte) : Prop where
  size : bytes.length = other.length
  string : cString bytes = cString other

/-- Two buffers with the same string give the same result without a read or a write outside of
the buffers, for every size of the output and all defaults, if and only if the default input is
used, or what stands behind the terminators splits up in the same way and neither buffer ends in
separators. -/
theorem parseInputFileNameEx_ignores_iff {bytes other : List Byte} (h : SameString bytes other) :
    (∀ size d, ∃ status output, parseInputFileNameEx size (some bytes) d = .returned status output ∧
      parseInputFileNameEx size (some other) d = .returned status output) ↔
      UsesDefault bytes ∨
        nameParts bytes = nameParts other ∧ ¬RunsOver bytes ∧ ¬RunsOver other := by
  by_cases hinput : UsesDefault bytes
  · have hinput' : UsesDefault other := h.string.symm.trans hinput
    refine ⟨fun _ => .inl hinput, fun _ => ?_⟩
    intro size d
    obtain ⟨status, output, hcall⟩ : ∃ status output,
        parseInputFileNameEx size (some bytes) d = .returned status output :=
      parse_default_returned hinput
    refine ⟨status, output, hcall, ?_⟩
    rw [← hcall, parseInputFileNameEx, parseInputFileNameEx, selectInput_of_default hinput,
      selectInput_of_default hinput']
  have hinput' : ¬UsesDefault other := fun hother => hinput (h.string.trans hother)
  constructor
  · intro hall
    have hsafe : ¬RunsOver bytes := not_runsOver hinput fun size d =>
      (hall size d).imp fun _ => Exists.imp fun _ hcalls => hcalls.1
    have hsafe' : ¬RunsOver other := not_runsOver hinput' fun size d =>
      (hall size d).imp fun _ => Exists.imp fun _ hcalls => hcalls.2
    refine .inr ⟨?_, hsafe, hsafe'⟩
    apply fullName_inj (proper_nameParts bytes) (proper_nameParts other)
    intro path
    -- a call with room for both names
    obtain ⟨size, hsize, hroom, hroom'⟩ : ∃ size, 0 < size ∧
        (nameParts bytes).room path < size ∧ (nameParts other).room path < size :=
      ⟨(nameParts bytes).room path + (nameParts other).room path + 1, by omega, by omega, by omega⟩
    obtain ⟨_, hfull⟩ := compose_large (proper_nameParts bytes).dot_name hroom
    obtain ⟨_, hfull'⟩ := compose_large (proper_nameParts other).dot_name hroom'
    obtain ⟨_, output, hcall, hcall'⟩ := hall size ⟨none, path, none⟩
    rw [parse_eq_compose hsize hinput hsafe, hfull] at hcall
    rw [parse_eq_compose hsize hinput' hsafe', hfull'] at hcall'
    injection hcall with _ houtput
    injection hcall' with _ houtput'
    rw [houtput, houtput']
  · rintro (hdefault | ⟨hparts, hsafe, hsafe'⟩)
    · exact absurd hdefault hinput
    · intro size d
      rcases Nat.eq_zero_or_pos size with rfl | hsize
      · exact ⟨_, _, rfl, rfl⟩
      obtain ⟨status, output, hcompose⟩ : ∃ status output,
          compose size d (nameParts bytes) = .returned status output := compose_returned _
      refine ⟨status, output, ?_, ?_⟩
      · rw [parse_eq_compose hsize hinput hsafe, hcompose]
      · rw [parse_eq_compose hsize hinput' hsafe', ← hparts, hcompose]

/-- The buffers `a\0x` and `a\0y`. -/
theorem parseInputFileNameEx_ignores_letter : SameString [0x61, 0, 0x78] [0x61, 0, 0x79] ∧
      ∃ status output, parseInputFileNameEx 64 (some [0x61, 0, 0x78]) ⟨none, none, none⟩ =
          .returned status output ∧
        parseInputFileNameEx 64 (some [0x61, 0, 0x79]) ⟨none, none, none⟩ =
          .returned status output :=
  ⟨⟨rfl, by decide⟩, (parseInputFileNameEx_ignores_iff ⟨rfl, by decide⟩).2
      (.inr ⟨by decide, by decide, by decide⟩) 64 ⟨none, none, none⟩⟩

/-- The buffers `a\0xt` and `a\0.t` hold the same string, and only the second gives an
extension. For the buffer `a/`, with no terminator, the byte behind it is read. -/
theorem parseInputFileNameEx_reads_on : SameString [0x61, 0, 0x78, 0x74] [0x61, 0, 0x2E, 0x74] ∧
      parseInputFileNameEx 64 (some [0x61, 0, 0x78, 0x74]) ⟨none, none, none⟩ =
        .returned .success [0x2F, 0x61] ∧
      parseInputFileNameEx 64 (some [0x61, 0, 0x2E, 0x74]) ⟨none, none, none⟩ =
        .returned .success [0x2F, 0x61, 0x2E, 0x74] ∧
      parseInputFileNameEx 64 (some [0x61, 0x2F]) ⟨none, none, none⟩ = .fault :=
  ⟨⟨rfl, by decide⟩, by decide +kernel, by decide +kernel, by decide +kernel⟩

end CfsEds.Fs
