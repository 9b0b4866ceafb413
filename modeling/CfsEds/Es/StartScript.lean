import CfsEds.Lib.Memory
import CfsEds.Lib.Split
import Mathlib.Data.BitVec
import Mathlib.Data.List.Basic
import Mathlib.Logic.Function.Basic

/-!
# The startup script

`CFE_ES_StartApplications` reads the script one character at a time. What is not blank goes
to `ES_AppLoadBuffer`, with a zero in the place of every comma, and `TokenList` points to the
fields of the line. At a semicolon the fields are handed to `CFE_ES_ParseFileEntry`; a line
that is too long or has too many fields is dropped. The script ends at an exclamation mark.

`scriptCalls` says what should be handed on, line by line. The loop does that but for lines of
exactly 128 characters: they fill the buffer, and the zero at their end is written behind it.
And where `char` is signed, bytes from 0x80 on are removed like blanks (`callsOf_signed_iff`).

Pointers into the buffer are offsets, and an access outside of an array is `none`. Whether
`char` is signed depends on the platform. The messages to the system log are left out.
-/

namespace CfsEds.Es

open Lib Lib.Memory List Function Option

/-! ## The loop -/

abbrev Byte := BitVec 8

/-- `ES_START_BUFF_SIZE` -/
def startBuffSize : Nat := 128

/-- `CFE_ES_STARTSCRIPT_MAX_TOKENS_PER_LINE` -/
def maxTokensPerLine : Nat := 8

/-- The type `char` of the platform. -/
inductive CharSign where
  | signed
  | unsigned
  deriving DecidableEq

/-- `c <= ' '` -/
def CharSign.isSpace (sign : CharSign) (c : Byte) : Bool :=
  match sign with
  | .signed => decide (c.toInt ≤ 0x20)
  | .unsigned => decide (c.toNat ≤ 0x20)

/-- The variables of the loop, and the entries handed to `CFE_ES_ParseFileEntry` so far. -/
structure ScriptState where
  buffer : Nat → Byte
  buffLen : Nat
  numTokens : Nat
  tokenList : Nat → Nat
  lineTooLong : Bool
  calls : List (List (List Byte))

/-- A store to an array of `size` elements. -/
def storeAt {α : Type} (size : Nat) (array : Nat → α) (i : Nat) (v : α) : Option (Nat → α) :=
  if i < size then some (Function.update array i v) else none

/-- One more character for the buffer. -/
def ScriptState.put (s : ScriptState) (c : Byte) : Option ScriptState :=
  if s.buffLen < startBuffSize then
    (storeAt startBuffSize s.buffer s.buffLen c).map fun buffer =>
      { s with buffer := buffer, buffLen := uint32 (s.buffLen + 1) }
  else some { s with lineTooLong := true, buffLen := uint32 (s.buffLen + 1) }

/-- The next token starts behind what is in the buffer. -/
def ScriptState.nextToken (s : ScriptState) : Option ScriptState :=
  let numTokens := uint32 (s.numTokens + 1)
  if numTokens < maxTokensPerLine then
    (storeAt maxTokensPerLine s.tokenList numTokens s.buffLen).map fun tokenList =>
      { s with numTokens := numTokens, tokenList := tokenList }
  else some { s with numTokens := numTokens, lineTooLong := true }

/-- The string at an offset, which has to end in the buffer. -/
def readString (buffer : Nat → Byte) : Nat → Nat → Option (List Byte)
  | 0, _ => none
  | n + 1, offset =>
    if buffer offset = 0 then some []
    else (readString buffer n (offset + 1)).map fun rest => buffer offset :: rest

/-- The strings that the first tokens point to. -/
def readTokens (buffer : Nat → Byte) (tokenList : Nat → Nat) : Nat → Option (List (List Byte))
  | 0 => some []
  | n + 1 =>
    (readTokens buffer tokenList n).bind fun tokens =>
      (readString buffer (startBuffSize - tokenList n) (tokenList n)).map fun token =>
        tokens ++ [token]

/-- The end of a line. The zero for the last token is written without a check. -/
def ScriptState.endLine (s : ScriptState) : Option ScriptState :=
  if s.lineTooLong then some { s with lineTooLong := false, buffLen := 0, numTokens := 0 }
  else
    (storeAt startBuffSize s.buffer s.buffLen 0).bind fun buffer =>
      (readTokens buffer s.tokenList (1 + s.numTokens)).map fun tokens =>
        { s with
          buffer := buffer
          buffLen := 0
          numTokens := 0
          calls := s.calls ++ [tokens] }

/-- A pass of the loop with a character that does not end the script. -/
def ScriptState.read (sign : CharSign) (s : ScriptState) (c : Byte) : Option ScriptState :=
  if sign.isSpace c then some s
  else if c = 0x2C then (s.put 0).bind ScriptState.nextToken
  else if c ≠ 0x3B then s.put c
  else s.endLine

/-- The loop over the rest of the file; a read error is like the end of the file. -/
def readScript (sign : CharSign) : List Byte → ScriptState → Option (List (List (List Byte)))
  | [], s => some s.calls
  | c :: rest, s => if c = 0x21 then some s.calls else (s.read sign c).bind (readScript sign rest)

def ScriptState.init : ScriptState := ⟨fun _ => 0, 0, 0, fun _ => 0, false, []⟩

/-- `CFE_ES_StartApplications` with the script opened: the entries in the order they are handed
to `CFE_ES_ParseFileEntry`. -/
def startApplications (sign : CharSign) (file : List Byte) : Option (List (List (List Byte))) :=
  readScript sign file ScriptState.init

/-! ## What should be handed on -/

/-- The lines before the first exclamation mark, with what follows the last semicolon. -/
def scriptPieces (file : List Byte) : List (List Byte) :=
  (file.takeWhile (· ≠ 0x21)).splitOn 0x3B

/-- The characters of a line that are not removed. -/
def lineChars (removed : Byte → Bool) (line : List Byte) : List Byte :=
  line.filter fun c => !removed c

/-- The fields of a line. -/
def lineFields (removed : Byte → Bool) (line : List Byte) : List (List Byte) :=
  (lineChars removed line).splitOn 0x2C

/-- The characters and the semicolon fit the buffer, and there are not too many fields. -/
def lineFits (removed : Byte → Bool) (line : List Byte) : Bool :=
  decide ((lineChars removed line).length + 1 ≤ startBuffSize) &&
    decide ((lineFields removed line).length ≤ maxTokensPerLine)

/-- The entries of the lines that fit. -/
def callsOf (removed : Byte → Bool) (lines : List (List Byte)) : List (List (List Byte)) :=
  (lines.filter (lineFits removed)).map (lineFields removed)

/-- The entries of a script. -/
def scriptCalls (removed : Byte → Bool) (file : List Byte) : List (List (List Byte)) :=
  callsOf removed (scriptPieces file).dropLast

/-- Blanks and control characters. -/
def isBlank (c : Byte) : Bool := decide (c.toNat ≤ 0x20)

/-! ## Strings in the buffer -/

/-- The first bytes of the buffer. -/
def held (buffer : Nat → Byte) (n : Nat) : List Byte := (List.range n).map buffer

/-- Fields as they are in the buffer. -/
def encoded (fields : List (List Byte)) : List Byte := (fields.map (· ++ [0])).flatten

theorem encoded_concat (fields : List (List Byte)) (field : List Byte) :
    encoded (fields ++ [field]) = encoded fields ++ (field ++ [0]) := by
  simp [encoded]

theorem held_update (buffer : Nat → Byte) (n : Nat) (c : Byte) :
    held (update buffer n c) (n + 1) = held buffer n ++ [c] := by
  have hsame : held (update buffer n c) n = held buffer n := by
    apply map_congr_left
    intro i hi
    have hne : i ≠ n := by have := mem_range.1 hi; omega
    simp [update_of_ne hne]
  unfold held at hsame ⊢
  rw [range_succ, map_append, hsame, map_singleton, update_self]

/-- A byte of the buffer, by what stands before it. -/
theorem buffer_of_held {buffer : Nat → Byte} {n : Nat} {front back : List Byte} {c : Byte}
    (h : held buffer n = front ++ c :: back) : buffer front.length = c := by
  have hn : front.length < n := by
    have hlen := congrArg List.length h
    simp only [held, length_map, length_range, length_append, length_cons] at hlen
    omega
  have hget := congrArg (fun l => l[front.length]?) h
  simpa [held, hn] using hget

/-- A field that ends in the first `n` bytes is read back. -/
theorem readString_of_held {buffer : Nat → Byte} {n : Nat} (hn : n ≤ startBuffSize)
    (field : List Byte) {front back : List Byte} (hzero : 0 ∉ field)
    (h : held buffer n = front ++ (field ++ [0]) ++ back) :
    readString buffer (startBuffSize - front.length) front.length = some field := by
  have hlen : n = front.length + (field.length + 1) + back.length := by
    have hlen := congrArg List.length h
    simp only [held, length_map, length_range, length_append, length_singleton] at hlen
    exact hlen
  -- the number of bytes left in the buffer, which is never zero inside of the field
  generalize hfuel : startBuffSize - front.length = fuel
  induction field generalizing front fuel with
  | nil =>
    have hbyte : buffer front.length = 0 := by
      have h' : held buffer n = front ++ 0 :: back := by simpa using h
      exact buffer_of_held h'
    cases fuel with
    | zero =>
      omega
    | succ => simp [readString, hbyte]
  | cons c field ih =>
    obtain ⟨hc, hrest⟩ := not_or.1 (mem_cons.not.1 hzero)
    have hbyte : buffer front.length = c := by
      have h' : held buffer n = front ++ c :: ((field ++ [0]) ++ back) := by simpa using h
      exact buffer_of_held h'
    have hnext : held buffer n = (front ++ [c]) ++ (field ++ [0]) ++ back := by simpa using h
    simp only [length_cons] at hlen
    cases fuel with
    | zero => omega
    | succ fuel =>
      have hstep : (front ++ [c]).length = front.length + 1 := by
        rw [length_append, length_singleton]
      have hread := ih hrest hnext (by rw [hstep]; omega) fuel (by rw [hstep]; omega)
      rw [hstep] at hread
      have hc' : ¬c = 0 := fun hc0 => hc hc0.symm
      rw [readString, hbyte, if_neg hc', hread]
      rfl

/-- The tokens point to the fields. -/
theorem readTokens_of_held {buffer : Nat → Byte} {tokenList : Nat → Nat} {n : Nat}
    (hn : n ≤ startBuffSize) {fields : List (List Byte)}
    (hzero : ∀ field ∈ fields, (0 : Byte) ∉ field)
    (h : held buffer n = encoded fields)
    (hstarts : ∀ j < fields.length, tokenList j = (encoded (fields.take j)).length)
    {m : Nat} (hm : m ≤ fields.length) :
    readTokens buffer tokenList m = some (fields.take m) := by
  induction m with
  | zero => rfl
  | succ m ih =>
    have hfield := (take_append_getElem hm).symm
    have hsplit : held buffer n =
        encoded (fields.take m) ++ (fields[m] ++ [0]) ++ encoded (fields.drop (m + 1)) := by
      rw [← encoded_concat, ← hfield, h]
      conv_lhs => rw [← take_append_drop (m + 1) fields]
      simp only [encoded, map_append, flatten_append]
    have hread := readString_of_held hn fields[m] (hzero _ (getElem_mem hm)) hsplit
    rw [readTokens, ih (by omega), hstarts m hm]
    show (readString buffer _ _).map _ = _
    rw [hread, hfield]
    rfl

/-! ## Reading a line -/

/-- What the loop knows in the middle of a line: the characters kept so far are the fields
`fields` and the start `last` of the next one. -/
structure Reading (s : ScriptState) (chars : List Byte) (fields : List (List Byte))
    (last : List Byte) : Prop where
  split : chars.splitOn 0x2C = fields ++ [last]
  zeroFree : ∀ field ∈ fields ++ [last], (0 : Byte) ∉ field
  buffLen : s.buffLen = uint32 chars.length
  numTokens : s.numTokens = fields.length
  tooLong : s.lineTooLong =
    decide (startBuffSize < chars.length ∨ maxTokensPerLine ≤ fields.length)
  first : s.tokenList 0 = 0
  text : s.lineTooLong = false → held s.buffer chars.length = encoded fields ++ last
  starts : s.lineTooLong = false →
    ∀ j ≤ fields.length, s.tokenList j = (encoded (fields.take j)).length

theorem uint32_of_lt {x : Nat} (h : x < 2 ^ 32) : uint32 x = x := Nat.mod_eq_of_lt h

/-- What storing a character does. -/
structure Put (s : ScriptState) (c : Byte) (s' : ScriptState) : Prop where
  buffer : s.buffLen < startBuffSize → s'.buffer = Function.update s.buffer s.buffLen c
  buffLen : s'.buffLen = uint32 (s.buffLen + 1)
  numTokens : s'.numTokens = s.numTokens
  tokenList : s'.tokenList = s.tokenList
  tooLong : s'.lineTooLong = (s.lineTooLong || decide (startBuffSize ≤ s.buffLen))
  calls : s'.calls = s.calls

theorem put_spec (s : ScriptState) (c : Byte) : ∃ s', s.put c = some s' ∧ Put s c s' := by
  unfold ScriptState.put storeAt
  by_cases h : s.buffLen < startBuffSize
  · rw [if_pos h, if_pos h]
    refine ⟨_, rfl, ⟨fun _ => rfl, rfl, rfl, rfl, ?_, rfl⟩⟩
    have hle : ¬startBuffSize ≤ s.buffLen := by omega
    simp [hle]
  · rw [if_neg h]
    refine ⟨_, rfl, ⟨fun hlt => absurd hlt h, rfl, rfl, rfl, ?_, rfl⟩⟩
    have hle : startBuffSize ≤ s.buffLen := by omega
    simp [hle]

section Line

variable {s s' : ScriptState} {chars : List Byte} {fields : List (List Byte)} {last : List Byte}
  {c : Byte}

namespace Reading

section

variable (h : Reading s chars fields last)
include h

theorem notTooLong (hs : s.lineTooLong = false) :
    chars.length ≤ startBuffSize ∧ fields.length < maxTokensPerLine := by
  have hlong := h.tooLong
  rw [hs] at hlong
  have hnot := of_decide_eq_false hlong.symm
  omega

theorem buffLen_of_notTooLong (hs : s.lineTooLong = false) : s.buffLen = chars.length := by
  have hle := (h.notTooLong hs).1
  rw [h.buffLen]
  exact uint32_of_lt (by unfold startBuffSize at hle; omega)

/-- With one more character the line is too long once it does not fit the buffer. -/
theorem put_tooLong (hput : Put s c s') : s'.lineTooLong =
      decide (startBuffSize < chars.length + 1 ∨ maxTokensPerLine ≤ fields.length) := by
  rw [hput.tooLong]
  cases hs : s.lineTooLong with
  | true =>
    have hlong := h.tooLong
    rw [hs] at hlong
    have hor := of_decide_eq_true hlong.symm
    exact (decide_eq_true (by omega)).symm
  | false =>
    have hnot := h.notTooLong hs
    rw [h.buffLen_of_notTooLong hs, Bool.false_or]
    exact decide_eq_decide.2 (by omega)

/-- A character that is not at the end of a field. -/
theorem char (hc : c ≠ 0x2C) (hzero : c ≠ 0) (hput : Put s c s') :
    Reading s' (chars ++ [c]) fields (last ++ [c]) where
  split := splitOn_concat_of_ne hc h.split
  zeroFree := by
    intro field hfield
    rcases mem_append.1 hfield with hdone | hlast
    · exact h.zeroFree field (mem_append_left _ hdone)
    rw [mem_singleton.1 hlast]
    have hold := h.zeroFree last (mem_append_right _ (mem_singleton_self last))
    intro hmem
    rcases mem_append.1 hmem with hin | hc0
    · exact hold hin
    · exact hzero (mem_singleton.1 hc0).symm
  buffLen := by
    rw [hput.buffLen, h.buffLen, length_append, length_singleton]
    simp [uint32]
  numTokens := hput.numTokens.trans h.numTokens
  tooLong := by rw [h.put_tooLong hput, length_append, length_singleton]
  first := by rw [hput.tokenList, h.first]
  text := by
    intro hs'
    obtain ⟨hs, hroom⟩ : s.lineTooLong = false ∧ ¬startBuffSize ≤ s.buffLen := by
      simpa [hput.tooLong] using hs'
    rw [hput.buffer (by omega), length_append, length_singleton,
      h.buffLen_of_notTooLong hs, held_update, h.text hs, append_assoc]
  starts := by
    intro hs'
    have hs : s.lineTooLong = false := by
      have hor := hput.tooLong.symm.trans hs'
      exact (Bool.or_eq_false_iff.1 hor).1
    rw [hput.tokenList]
    exact h.starts hs

/-- A comma ends the field. -/
theorem comma (hput : Put s 0 s') (hcount : fields.length + 1 < 2 ^ 32) :
    ∃ s'', s'.nextToken = some s'' ∧
      Reading s'' (chars ++ [0x2C]) (fields ++ [last]) [] ∧ s''.calls = s'.calls := by
  have hnum : uint32 (s'.numTokens + 1) = fields.length + 1 := by
    rw [hput.numTokens, h.numTokens, uint32_of_lt hcount]
  have hzeroFree : ∀ field ∈ (fields ++ [last]) ++ [[]], (0 : Byte) ∉ field := by
    intro field hfield
    rcases mem_append.1 hfield with hdone | hnil
    · exact h.zeroFree field hdone
    · rw [mem_singleton.1 hnil]
      exact not_mem_nil
  have hlen : s'.buffLen = uint32 (chars ++ [(0x2C : Byte)]).length := by
    rw [hput.buffLen, h.buffLen, length_append, length_singleton]
    simp [uint32]
  have hlong := h.put_tooLong hput
  unfold ScriptState.nextToken storeAt
  simp only [hnum]
  by_cases hroom : fields.length + 1 < maxTokensPerLine
  · rw [if_pos hroom, if_pos hroom]
    refine ⟨_, rfl, ?_, rfl⟩
    have hold : s'.lineTooLong = false → s.lineTooLong = false ∧ ¬startBuffSize ≤ s.buffLen := by
      intro hs'
      simpa [hput.tooLong] using hs'
    have htext : s'.lineTooLong = false →
        held s'.buffer (chars.length + 1) = encoded (fields ++ [last]) := by
      intro hs'
      obtain ⟨hs, hlt⟩ := hold hs'
      rw [hput.buffer (by omega), h.buffLen_of_notTooLong hs, held_update, h.text hs,
        encoded_concat, append_assoc]
    exact {
      split := splitOn_concat_self h.split
      zeroFree := hzeroFree
      buffLen := hlen
      numTokens := by rw [length_append, length_singleton]
      tooLong := by
        show s'.lineTooLong = _
        rw [hlong]
        apply decide_eq_decide.2
        rw [length_append, length_append, length_singleton, length_singleton]
        omega
      first := by
        show update s'.tokenList (fields.length + 1) s'.buffLen 0 = 0
        rw [update_of_ne (by omega), hput.tokenList, h.first]
      text := by
        intro hs'
        rw [length_append, length_singleton, append_nil]
        exact htext hs'
      starts := by
        intro hs' j hj
        obtain ⟨hs, hlt⟩ := hold hs'
        show update s'.tokenList (fields.length + 1) s'.buffLen j = _
        rw [length_append, length_singleton] at hj
        by_cases hlast : j = fields.length + 1
        · -- the new token starts where the buffer is filled to
          have hlen' : s'.buffLen = chars.length + 1 := by
            have hle := (h.notTooLong hs).1
            rw [hlen, length_append, length_singleton]
            exact uint32_of_lt (by unfold startBuffSize at hle; omega)
          have hheld := congrArg List.length (htext hs')
          rw [hlast, update_self, take_of_length_le (by simp), hlen', ← hheld]
          simp [held]
        · rw [update_of_ne hlast, hput.tokenList, h.starts hs j (by omega),
            take_append_of_le_length (by omega)] }
  · rw [if_neg hroom]
    refine ⟨_, rfl, ?_, rfl⟩
    exact {
      split := splitOn_concat_self h.split
      zeroFree := hzeroFree
      buffLen := hlen
      numTokens := by rw [length_append, length_singleton]
      tooLong := by
        symm
        apply decide_eq_true
        right
        rw [length_append, length_singleton]
        omega
      first := by
        show s'.tokenList 0 = 0
        rw [hput.tokenList, h.first]
      text := by
        intro hs'
        cases hs'
      starts := by
        intro hs'
        cases hs' }

end

/-- A new line. -/
theorem start (hlen : s.buffLen = 0) (hnum : s.numTokens = 0) (hlong : s.lineTooLong = false)
    (hfirst : s.tokenList 0 = 0) : Reading s [] [] [] where
  split := splitOn_nil _
  zeroFree := by simp
  buffLen := hlen
  numTokens := hnum
  tooLong := hlong
  first := hfirst
  text := fun _ => rfl
  starts := by
    intro _ j hj
    rw [Nat.le_zero.1 hj]
    exact hfirst

/-- The line fills the buffer, with no place for the zero. -/
theorem endLine_full (h : Reading s chars fields last) (hfull : chars.length = startBuffSize)
    (hfields : fields.length < maxTokensPerLine) : s.endLine = none := by
  have hs : s.lineTooLong = false := by
    rw [h.tooLong]
    exact decide_eq_false (by omega)
  rw [ScriptState.endLine, hs, storeAt, h.buffLen_of_notTooLong hs, hfull, if_neg (lt_irrefl _)]
  rfl

/-- Any other line is handed on if it fits, and a new line starts. -/
theorem endLine_spec (h : Reading s chars fields last)
    (hfull : ¬(chars.length = startBuffSize ∧ fields.length < maxTokensPerLine)) :
    ∃ s', s.endLine = some s' ∧ Reading s' [] [] [] ∧ s'.calls = s.calls ++
        if chars.length < startBuffSize ∧ fields.length < maxTokensPerLine
        then [fields ++ [last]] else [] := by
  unfold ScriptState.endLine
  cases hs : s.lineTooLong with
  | true =>
    have hlong := h.tooLong
    rw [hs] at hlong
    have hor := of_decide_eq_true hlong.symm
    refine ⟨_, rfl, start rfl rfl rfl h.first, ?_⟩
    rw [if_neg (by omega), append_nil]
  | false =>
    obtain ⟨hle, hfields⟩ := h.notTooLong hs
    have hlt : chars.length < startBuffSize := by omega
    -- the zero completes the last field
    have hheld : held (update s.buffer s.buffLen 0) (chars.length + 1) =
        encoded (fields ++ [last]) := by
      rw [h.buffLen_of_notTooLong hs, held_update, h.text hs, encoded_concat, append_assoc]
    have hstarts : ∀ j < (fields ++ [last]).length,
        s.tokenList j = (encoded ((fields ++ [last]).take j)).length := by
      intro j hj
      rw [length_append, length_singleton] at hj
      rw [h.starts hs j (by omega), take_append_of_le_length (by omega)]
    have hread : readTokens (update s.buffer s.buffLen 0) s.tokenList (1 + s.numTokens) =
        some (fields ++ [last]) := by
      have htake : (fields ++ [last]).take (1 + s.numTokens) = fields ++ [last] := by
        rw [h.numTokens]
        apply take_of_length_le
        rw [length_append, length_singleton]
        omega
      have hall : 1 + s.numTokens ≤ (fields ++ [last]).length := by
        rw [h.numTokens, length_append, length_singleton]
        omega
      have hread := readTokens_of_held hlt h.zeroFree hheld hstarts hall
      rw [hread, htake]
    have hroom : s.buffLen < startBuffSize := by rw [h.buffLen_of_notTooLong hs]; exact hlt
    rw [if_neg Bool.false_ne_true, storeAt, if_pos hroom, bind_some, hread, map_some]
    refine ⟨_, rfl, start rfl rfl rfl h.first, ?_⟩
    rw [if_pos ⟨hlt, hfields⟩]

end Reading

end Line

/-! ## The script -/

/-- A line that has to be handed on for its fields, and fills the buffer. -/
def FillsBuffer (removed : Byte → Bool) (line : List Byte) : Prop :=
  (lineChars removed line).length = startBuffSize ∧
    (lineFields removed line).length ≤ maxTokensPerLine

instance (removed : Byte → Bool) (line : List Byte) : Decidable (FillsBuffer removed line) := by
  unfold FillsBuffer
  infer_instance

theorem isSpace_zero (sign : CharSign) : sign.isSpace 0 = true := by cases sign <;> rfl

theorem isSpace_semicolon (sign : CharSign) : sign.isSpace 0x3B = false := by cases sign <;> rfl

section Pieces

variable {raw rest : List Byte}

theorem takeWhile_append_line (h : (0x21 : Byte) ∉ raw) (rest : List Byte) :
    (raw ++ rest).takeWhile (· ≠ 0x21) = raw ++ rest.takeWhile (· ≠ 0x21) := by
  apply takeWhile_append_of_pos
  intro c hc
  exact decide_eq_true fun hmark => h (hmark ▸ hc)

/-- The line that is read now is the start of a piece. -/
theorem exists_piece (h : (0x21 : Byte) ∉ raw) (h' : (0x3B : Byte) ∉ raw) (rest : List Byte) :
    ∃ piece ∈ scriptPieces (raw ++ rest), raw <+: piece := by
  unfold scriptPieces
  rw [takeWhile_append_line h, splitOn_append_of_notMem h']
  cases hsplit : (rest.takeWhile (· ≠ 0x21)).splitOn 0x3B with
  | nil => exact absurd hsplit (splitOn_ne_nil _ _)
  | cons piece => exact ⟨raw ++ piece, mem_cons_self, prefix_append _ _⟩

/-- At the end of the script what is read of a line is dropped. -/
theorem scriptPieces_of_end (h : (0x21 : Byte) ∉ raw) (h' : (0x3B : Byte) ∉ raw)
    (hrest : rest.takeWhile (· ≠ 0x21) = []) : scriptPieces (raw ++ rest) = [raw] := by
  unfold scriptPieces
  rw [takeWhile_append_line h, hrest, splitOn_append_of_notMem h', splitOn_nil]
  simp

/-- A semicolon ends the line. -/
theorem scriptPieces_semicolon (h : (0x21 : Byte) ∉ raw) (h' : (0x3B : Byte) ∉ raw)
    (rest : List Byte) : scriptPieces (raw ++ 0x3B :: rest) = raw :: scriptPieces rest := by
  have htake : (raw ++ 0x3B :: rest).takeWhile (· ≠ 0x21) =
      raw ++ 0x3B :: rest.takeWhile (· ≠ 0x21) := by
    rw [takeWhile_append_line h]
    rfl
  unfold scriptPieces
  rw [htake, splitOn_append_cons_self, splitOn_of_notMem h']
  rfl

end Pieces

theorem lineChars_concat (removed : Byte → Bool) (raw : List Byte) (c : Byte) :
    lineChars removed (raw ++ [c]) = lineChars removed raw ++ if removed c then [] else [c] := by
  unfold lineChars
  cases hc : removed c <;> simp [hc]

theorem callsOf_cons (removed : Byte → Bool) (line : List Byte) (lines : List (List Byte)) :
    callsOf removed (line :: lines) =
      (if lineFits removed line then [lineFields removed line] else []) ++
        callsOf removed lines := by
  unfold callsOf
  cases hfits : lineFits removed line <;> simp [hfits]

section Script

variable {sign : CharSign} {s : ScriptState} {raw : List Byte} {fields : List (List Byte)}
  {last : List Byte} {c : Byte}

section

variable (h : Reading s (lineChars sign.isSpace raw) fields last)
include h

theorem Reading.length_fields : (lineFields sign.isSpace raw).length = fields.length + 1 := by
  rw [lineFields, h.split, length_append, length_singleton]

/-- A character of the line. -/
theorem Reading.read (hc : c ≠ 0x3B) (hcommas : (raw ++ [c]).count 0x2C < 2 ^ 32) :
    ∃ s' fields' last', s.read sign c = some s' ∧
      Reading s' (lineChars sign.isSpace (raw ++ [c])) fields' last' ∧ s'.calls = s.calls := by
  rw [lineChars_concat, ScriptState.read]
  by_cases hspace : sign.isSpace c
  · rw [if_pos hspace, if_pos hspace, append_nil]
    exact ⟨s, fields, last, rfl, h, rfl⟩
  rw [if_neg hspace, if_neg hspace]
  by_cases hcomma : c = 0x2C
  · subst hcomma
    obtain ⟨s', hput, hs'⟩ := put_spec s 0
    have hcount : fields.length + 1 < 2 ^ 32 := by
      have hfields : fields.length = (lineChars sign.isSpace raw).count 0x2C := by
        have hlen := congrArg List.length h.split
        rw [length_splitOn, length_append, length_singleton] at hlen
        omega
      have hkept : (lineChars sign.isSpace raw).count 0x2C ≤ raw.count 0x2C :=
        List.Sublist.count_le _ filter_sublist
      rw [count_append, count_singleton_self] at hcommas
      omega
    obtain ⟨s'', hnext, hreading, hcalls⟩ := h.comma hs' hcount
    rw [if_pos rfl, hput, bind_some]
    exact ⟨s'', _, _, hnext, hreading, hcalls.trans hs'.calls⟩
  · obtain ⟨s', hput, hs'⟩ := put_spec s c
    have hzero : c ≠ 0 := by
      intro hc0
      rw [hc0] at hspace
      exact hspace (isSpace_zero sign)
    rw [if_neg hcomma, if_pos hc]
    exact ⟨s', fields, _, hput, h.char hcomma hzero hs', hs'.calls⟩

/-- The end of a line. -/
theorem Reading.semicolon : if FillsBuffer sign.isSpace raw then s.read sign 0x3B = none
    else ∃ s', s.read sign 0x3B = some s' ∧ Reading s' [] [] [] ∧ s'.calls = s.calls ++
        if lineFits sign.isSpace raw then [lineFields sign.isSpace raw] else [] := by
  have hread : s.read sign 0x3B = s.endLine := by
    rw [ScriptState.read, isSpace_semicolon]
    rfl
  have hlen := h.length_fields
  rw [hread]
  by_cases hfills : FillsBuffer sign.isSpace raw
  · rw [if_pos hfills]
    have hfields := hfills.2
    exact h.endLine_full hfills.1 (by omega)
  rw [if_neg hfills]
  obtain ⟨s', hs', hstart, hcalls⟩ := h.endLine_spec fun hfull =>
    hfills ⟨hfull.1, by omega⟩
  refine ⟨s', hs', hstart, ?_⟩
  have hfits : (lineFits sign.isSpace raw = true) ↔
      (lineChars sign.isSpace raw).length < startBuffSize ∧ fields.length < maxTokensPerLine := by
    rw [lineFits, Bool.and_eq_true, decide_eq_true_iff, decide_eq_true_iff, hlen]
    omega
  have hsame : fields ++ [last] = lineFields sign.isSpace raw := h.split.symm
  rw [hcalls, hsame, if_congr hfits rfl rfl]

end

/-- The loop from the middle of a line: `raw` is what was read of the line. -/
theorem readScript_spec (sign : CharSign) (rest : List Byte) :
    ∀ (raw : List Byte) (s : ScriptState) (fields : List (List Byte)) (last : List Byte),
      (0x21 : Byte) ∉ raw → (0x3B : Byte) ∉ raw →
      (∀ piece ∈ scriptPieces (raw ++ rest), piece.count 0x2C < 2 ^ 32) →
      Reading s (lineChars sign.isSpace raw) fields last →
      readScript sign rest s =
        if ∃ line ∈ (scriptPieces (raw ++ rest)).dropLast, FillsBuffer sign.isSpace line then none
        else some (s.calls ++ scriptCalls sign.isSpace (raw ++ rest)) := by
  induction rest with
  | nil =>
    intro raw s fields last hbang hsemi _ h
    have hpieces : scriptPieces (raw ++ []) = [raw] := scriptPieces_of_end hbang hsemi rfl
    rw [scriptCalls, hpieces]
    simp [readScript, callsOf]
  | cons c rest ih =>
    intro raw s fields last hbang hsemi hcommas h
    rw [readScript]
    by_cases hend : c = 0x21
    · have hpieces : scriptPieces (raw ++ c :: rest) = [raw] :=
        scriptPieces_of_end hbang hsemi (by rw [hend]; rfl)
      rw [if_pos hend, scriptCalls, hpieces]
      simp [callsOf]
    rw [if_neg hend]
    by_cases hline : c = 0x3B
    · subst hline
      have hpieces : (scriptPieces (raw ++ 0x3B :: rest)).dropLast =
          raw :: (scriptPieces rest).dropLast := by
        rw [scriptPieces_semicolon hbang hsemi]
        exact dropLast_cons_of_ne_nil (splitOn_ne_nil _ _)
      have hsemicolon := h.semicolon
      by_cases hfills : FillsBuffer sign.isSpace raw
      · rw [if_pos hfills] at hsemicolon
        have hex : ∃ line ∈ raw :: (scriptPieces rest).dropLast,
            FillsBuffer sign.isSpace line := ⟨raw, mem_cons_self, hfills⟩
        rw [hsemicolon, hpieces, if_pos hex]
        rfl
      rw [if_neg hfills] at hsemicolon
      obtain ⟨s', hread, hstart, hcalls⟩ := hsemicolon
      have hcommas' : ∀ piece ∈ scriptPieces ([] ++ rest), piece.count 0x2C < 2 ^ 32 := by
        intro piece hpiece
        apply hcommas
        rw [scriptPieces_semicolon hbang hsemi]
        exact mem_cons_of_mem _ hpiece
      have hrest := ih [] s' [] [] not_mem_nil not_mem_nil hcommas' hstart
      have hex : (∃ line ∈ raw :: (scriptPieces rest).dropLast, FillsBuffer sign.isSpace line) ↔
          ∃ line ∈ (scriptPieces rest).dropLast, FillsBuffer sign.isSpace line := by
        simp [hfills]
      rw [hread, bind_some, hrest, nil_append, scriptCalls, scriptCalls, hpieces,
        callsOf_cons, if_congr hex rfl rfl, hcalls, append_assoc]
    · -- the character belongs to the line
      have hassoc : raw ++ c :: rest = (raw ++ [c]) ++ rest := by simp
      have hbang' : (0x21 : Byte) ∉ raw ++ [c] := by
        simpa using ⟨hbang, fun hc => hend hc.symm⟩
      have hsemi' : (0x3B : Byte) ∉ raw ++ [c] := by
        simpa using ⟨hsemi, fun hc => hline hc.symm⟩
      rw [hassoc] at hcommas ⊢
      have hcount : (raw ++ [c]).count 0x2C < 2 ^ 32 := by
        obtain ⟨piece, hmem, hstart⟩ := exists_piece hbang' hsemi' rest
        exact lt_of_le_of_lt (hstart.sublist.count_le _) (hcommas piece hmem)
      obtain ⟨s', fields', last', hread, hnext, hcalls⟩ := h.read hline hcount
      rw [hread, bind_some, ih _ _ _ _ hbang' hsemi' hcommas hnext, hcalls]

end Script

/-! ## Signed characters -/

/-- A byte that is negative as a signed character. -/
def isHigh (c : Byte) : Bool := decide (0x80 ≤ c.toNat)

theorem isSpace_signed (c : Byte) : CharSign.signed.isSpace c = (isBlank c || isHigh c) := by
  revert c
  decide +kernel

theorem lineChars_signed (line : List Byte) :
    lineChars CharSign.signed.isSpace line =
      (lineChars isBlank line).filter fun c => !isHigh c := by
  unfold lineChars
  rw [List.filter_filter]
  congr 1
  funext c
  rw [isSpace_signed, Bool.not_or, Bool.and_comm]

theorem lineChars_eq_iff (line : List Byte) :
    lineChars CharSign.signed.isSpace line = lineChars isBlank line ↔
      ∀ c ∈ line, isHigh c = false := by
  have hblank : ∀ c, isHigh c = true → isBlank c = false := by decide +kernel
  rw [lineChars_signed, filter_eq_self]
  unfold lineChars
  grind

/-- Fewer characters fit as well, and there are as many fields. -/
theorem lineFits_signed {line : List Byte} (h : lineFits isBlank line = true) :
    lineFits CharSign.signed.isSpace line = true := by
  have hcommas : (lineChars CharSign.signed.isSpace line).count 0x2C =
      (lineChars isBlank line).count 0x2C := by
    rw [lineChars_signed]
    exact count_filter rfl
  have hlength : (lineChars CharSign.signed.isSpace line).length ≤
      (lineChars isBlank line).length := by
    rw [lineChars_signed]
    exact length_filter_le ..
  simp only [lineFits, lineFields, length_splitOn, Bool.and_eq_true, decide_eq_true_iff] at h ⊢
  omega

/-- The entries are the same if and only if no line with a high byte is handed on. -/
theorem callsOf_signed_iff (lines : List (List Byte)) :
    callsOf CharSign.signed.isSpace lines = callsOf isBlank lines ↔
      ∀ line ∈ lines, (∃ c ∈ line, isHigh c = true) →
        lineFits CharSign.signed.isSpace line = false := by
  constructor
  · intro h line hline ⟨c, hc, hhigh⟩
    -- what fits with the high bytes fits without them, so equally many lines are the same lines
    have hsub : lines.filter (lineFits isBlank) <+
        lines.filter (lineFits CharSign.signed.isSpace) :=
      monotone_filter_right lines fun _ => lineFits_signed
    have hsame : lines.filter (lineFits isBlank) =
        lines.filter (lineFits CharSign.signed.isSpace) := by
      refine hsub.eq_of_length ?_
      have hlength := congrArg List.length h
      rw [callsOf, callsOf, length_map, length_map] at hlength
      exact hlength.symm
    rw [callsOf, callsOf, hsame] at h
    by_contra hfits
    have hfields := map_inj_left.1 h line (mem_filter.2 ⟨hline, by simpa using hfits⟩)
    have hchars := congrArg (intercalate [0x2C]) hfields
    rw [lineFields, lineFields, intercalate_splitOn, intercalate_splitOn] at hchars
    have hlow := (lineChars_eq_iff line).1 hchars c hc
    rw [hlow] at hhigh
    cases hhigh
  · intro h
    have hlines : ∀ line ∈ lines,
        lineFits CharSign.signed.isSpace line = lineFits isBlank line := by
      intro line hline
      by_cases hhigh : ∃ c ∈ line, isHigh c = true
      · have hfits := h line hline hhigh
        rw [hfits, eq_comm, Bool.eq_false_iff]
        intro hblank
        rw [lineFits_signed hblank] at hfits
        cases hfits
      · have hchars := (lineChars_eq_iff line).2 (by simpa using hhigh)
        rw [lineFits, lineFits, lineFields, lineFields, hchars]
    unfold callsOf
    rw [filter_congr hlines]
    refine map_congr_left fun line hline => ?_
    obtain ⟨hline, hfits⟩ := mem_filter.1 hline
    have hchars : lineChars CharSign.signed.isSpace line = lineChars isBlank line := by
      rw [lineChars_eq_iff]
      intro c hc
      by_contra hhigh
      have hfits' := h line hline ⟨c, hc, by simpa using hhigh⟩
      rw [hlines line hline, hfits] at hfits'
      cases hfits'
    rw [lineFields, lineFields, hchars]

/-! ## The result -/

/-- What the loop does with every script, whatever `char` is. -/
theorem startApplications_eq (sign : CharSign) (file : List Byte)
    (hcommas : ∀ piece ∈ scriptPieces file, piece.count 0x2C < 2 ^ 32) :
    startApplications sign file =
      if ∃ line ∈ (scriptPieces file).dropLast, FillsBuffer sign.isSpace line then none
      else some (scriptCalls sign.isSpace file) :=
  readScript_spec sign file [] ScriptState.init [] [] not_mem_nil not_mem_nil hcommas
    (Reading.start rfl rfl rfl rfl)

theorem scriptCalls_eq_iff (sign : CharSign) (file : List Byte) :
    scriptCalls sign.isSpace file = scriptCalls isBlank file ↔
      (sign = .signed → ∀ line ∈ (scriptPieces file).dropLast, (∃ c ∈ line, isHigh c = true) →
        lineFits sign.isSpace line = false) := by
  cases sign with
  | signed =>
    rw [scriptCalls, scriptCalls, callsOf_signed_iff]
    exact ⟨fun h _ => h, fun h => h rfl⟩
  | unsigned => exact ⟨fun _ => nofun, fun _ => rfl⟩

/-- The script is read safely and exactly if and only if no line fills the buffer, and, where
characters are signed, no line with a byte from 0x80 on fits: these bytes are below a blank and
removed. -/
theorem startApplications_exact_iff (sign : CharSign) (file : List Byte)
    (hcommas : ∀ piece ∈ scriptPieces file, piece.count 0x2C < 2 ^ 32) :
    startApplications sign file = some (scriptCalls isBlank file) ↔
      (∀ line ∈ (scriptPieces file).dropLast, ¬FillsBuffer sign.isSpace line) ∧
        (sign = .signed → ∀ line ∈ (scriptPieces file).dropLast, (∃ c ∈ line, isHigh c = true) →
          lineFits sign.isSpace line = false) := by
  rw [startApplications_eq sign file hcommas, ← scriptCalls_eq_iff]
  constructor
  · intro h
    by_cases hex : ∃ line ∈ (scriptPieces file).dropLast, FillsBuffer sign.isSpace line
    · rw [if_pos hex] at h
      cases h
    · rw [if_neg hex] at h
      exact ⟨fun line hline hfills => hex ⟨line, hline, hfills⟩, Option.some.inj h⟩
  · intro ⟨hnone, hsame⟩
    have hex : ¬∃ line ∈ (scriptPieces file).dropLast, FillsBuffer sign.isSpace line :=
      fun ⟨line, hline, hfills⟩ => hnone line hline hfills
    rw [if_neg hex, hsame]

/-- The script `A, B;` of one line. -/
theorem startApplications_one_line : startApplications .signed [0x41, 0x2C, 0x20, 0x42, 0x3B] =
      some (scriptCalls isBlank [0x41, 0x2C, 0x20, 0x42, 0x3B]) :=
  (startApplications_exact_iff .signed _ (by decide +kernel)).2
    ⟨by decide +kernel, fun _ => by decide +kernel⟩

/-- A line of 128 characters: the zero at its end is written behind the buffer. -/
theorem startApplications_writes_behind :
    startApplications .signed (List.replicate 128 0x41 ++ [0x3B]) = none := by
  decide +kernel

end CfsEds.Es
