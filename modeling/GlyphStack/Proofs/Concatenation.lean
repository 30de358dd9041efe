import GlyphStack.Proofs.Accumulation
import GlyphStack.Proofs.Places
import GlyphStack.Proofs.Reuse

/-!
# Texts behind each other

A text can stand behind another one.  A lexer that has finished the first text, with
nothing open and no number to go on with, then reads the second one as a new lexer would.
Only the places differ: offsets grow by the bytes of the first text, lines by its
newlines, and the columns of the first line by the characters on its last one.

Every step of a lexer commutes with this change of places.  The one step where this
needs an argument is to pass a glyph, since the first newline of the second text ends
the line on which columns are moved.
-/

namespace GlyphStack

/-! ## Places behind another text -/

/-- Where a position of a text lies if the text stands behind another one.  The bytes
and lines in front count always, the characters in front only for the first line. -/
def Position.behind (position : Position) (before : List Char) : Position where
  offset := position.offset + (Text.utf8 before).length
  line := position.line + before.count '\n'
  column :=
    if position.line = 1 then position.column + (before.rtakeWhile (· != '\n')).length
    else position.column

/-- A text stands where the text in front of it ends. -/
theorem Position.behind_start (before : List Char) :
    start.behind before = after before := by
  simp [behind, start, after]

/-- Going on is the same with and without a text in front.  After a newline the line is
not the first one any more, so that its columns are those of the text itself. -/
theorem Position.advance_behind
    {position : Position}
    (inText : 0 < position.line)
    (before : List Char)
    (bytes : Nat)
    (newline : Bool) :
    (position.behind before).advance bytes newline =
      (position.advance bytes newline).behind before := by
  cases newline with
  | true =>
    have later : position.line + 1 ≠ 1 := by omega
    simp only [advance, behind, if_true, if_neg later, mk.injEq, and_true]
    omega
  | false =>
    simp only [advance, behind, Bool.false_eq_true, if_false, mk.injEq, true_and]
    constructor
    · omega
    · split <;> omega

theorem Position.line_advance_pos
    {position : Position}
    (inText : 0 < position.line)
    (bytes : Nat)
    (newline : Bool) :
    0 < (position.advance bytes newline).line := by
  unfold advance
  split
  · exact Int.add_pos inText Int.one_pos
  · exact inText

/-- An instruction of a text that stands behind another one. -/
def Instruction.behind (instruction : Instruction) (before : List Char) : Instruction :=
  { instruction with position := instruction.position.behind before }

theorem Instruction.push_behind
    (width : Width)
    (value : Int64)
    (position : Position)
    (before : List Char) :
    push width value (position.behind before) =
      (push width value position).map fun instruction => instruction.behind before := by
  unfold push
  cases width.check value with
  | ok _ => rfl
  | error overflow => rfl

namespace Lexer

/-- An error of a text that stands behind another one. -/
def Error.behind (error : Error) (before : List Char) : Error :=
  match error with
  | .unknownSymbol symbol position => .unknownSymbol symbol (position.behind before)
  | .strayByte byte position => .strayByte byte (position.behind before)
  | .literal overflow position => .literal overflow (position.behind before)

/-! ## Lexers behind another text -/

namespace State

/-- A state with the same progress through a text that stands behind another one, which
has given some instructions. -/
def behind (state : State) (before : List Char) (earlier : List Instruction) : State where
  here := state.here.behind before
  mode := state.mode
  opened := state.opened.behind before
  reading := state.reading
  number := state.number
  numberAt := state.numberAt.behind before
  emitted := state.emitted.map (fun instruction => instruction.behind before) ++ earlier

/-- The result of a step with another text in front. -/
def resultBehind (before : List Char) (earlier : List Instruction) :
    Except Error State -> Except Error State
  | .ok state => .ok (state.behind before earlier)
  | .error error => .error (error.behind before)

section Steps

variable (width : Width) (state : State) (before : List Char) (earlier : List Instruction)

theorem flush_behind :
    (state.behind before earlier).flush width =
      resultBehind before earlier (state.flush width) := by
  cases reading : state.reading with
  | false => simp [flush, pending, behind, reading, resultBehind]
  | true =>
    simp only [flush, pending, behind, reading, if_true, Instruction.push_behind]
    cases Instruction.push width state.number state.numberAt with
    | ok instruction => rfl
    | error overflow => rfl

theorem emitChar_behind (c : Char) :
    (state.behind before earlier).emitChar width c =
      resultBehind before earlier (state.emitChar width c) := by
  simp only [emitChar, behind, Instruction.push_behind]
  cases Instruction.push width (Int64.ofNat c.toNat) state.here with
  | ok instruction => rfl
  | error overflow => rfl

theorem beginNumber_behind :
    (state.behind before earlier).beginNumber = state.beginNumber.behind before earlier := by
  obtain ⟨here, mode, opened, reading, number, numberAt, emitted⟩ := state
  cases reading <;> rfl

theorem appendDigit_behind (digit : Int64) :
    (state.behind before earlier).appendDigit digit =
      (state.appendDigit digit).behind before earlier := by
  have number_eq : (state.behind before earlier).number = state.number := rfl
  unfold appendDigit
  rw [number_eq]
  split <;> rfl

theorem readDigit_behind (digit : Int64) :
    (state.behind before earlier).readDigit width digit =
      resultBehind before earlier (state.readDigit width digit) := by
  simp only [readDigit, beginNumber_behind, appendDigit_behind]
  generalize state.beginNumber = begun
  have number_eq : (begun.behind before earlier).number = begun.number := rfl
  have appended_eq : ((begun.appendDigit digit).behind before earlier).number =
      (begun.appendDigit digit).number := rfl
  rw [number_eq, appended_eq]
  split
  · rfl
  · cases width.check (begun.appendDigit digit).number with
    | ok _ => rfl
    | error overflow => rfl

theorem breakOff_behind (glyph : Glyph) :
    (state.behind before earlier).breakOff glyph =
      (state.breakOff glyph).behind before earlier := by
  have mode_eq : (state.behind before earlier).mode = state.mode := rfl
  unfold breakOff
  rw [mode_eq]
  split
  · rfl
  · split
    · rw [beginNumber_behind, appendDigit_behind]
    · rfl
  · rfl

theorem readSymbol_behind (symbol : Char) :
    (state.behind before earlier).readSymbol width symbol =
      resultBehind before earlier (state.readSymbol width symbol) := by
  unfold readSymbol
  cases Kind.ofSymbol? symbol with
  | none => rfl
  | some kind =>
    simp only [flush_behind]
    cases state.flush width with
    | ok flushed => rfl
    | error error => rfl

theorem readNormal_behind (c : Char) :
    (state.behind before earlier).readNormal width c =
      resultBehind before earlier (state.readNormal width c) := by
  unfold readNormal
  split
  · apply flush_behind
  split
  · rfl
  split
  · rfl
  split
  · apply readDigit_behind
  · apply readSymbol_behind

theorem readString_behind (c : Char) :
    (state.behind before earlier).readString width c =
      resultBehind before earlier (state.readString width c) := by
  unfold readString
  split
  · rfl
  split
  · rfl
  · apply emitChar_behind

theorem readChar_behind (c : Char) :
    (state.behind before earlier).readChar width c =
      resultBehind before earlier (state.readChar width c) := by
  have mode_eq : (state.behind before earlier).mode = state.mode := rfl
  unfold readChar
  rw [mode_eq]
  cases state.mode with
  | normal => apply readNormal_behind
  | string => apply readString_behind
  | escape => exact emitChar_behind width { state with mode := .string } before earlier c
  | comment =>
    dsimp only
    split <;> rfl

/-- Reading a glyph commutes with a text in front. -/
theorem read_behind
    (inText : 0 < state.here.line)
    (glyph : Glyph) :
    (state.behind before earlier).read width glyph =
      resultBehind before earlier (state.read width glyph) := by
  cases glyph with
  | stray byte => rfl
  | char c =>
    have advanced := Position.advance_behind inText before (Glyph.char c).size
      (Glyph.char c).isNewline
    simp only [read, readChar_behind]
    cases state.readChar width c with
    | error error => rfl
    | ok after =>
      simp only [resultBehind, bind, Except.bind, pure, Except.pure, behind]
      rw [← advanced]

end Steps

theorem here_of_read
    {width : Width}
    {state after : State}
    {glyph : Glyph}
    (passed : state.read width glyph = .ok after) :
    after.here = state.here.advance glyph.size glyph.isNewline := by
  cases glyph with
  | stray byte => cases passed
  | char c =>
    cases read : state.readChar width c with
    | error error => simp [State.read, read, bind, Except.bind] at passed
    | ok middle =>
      simp only [State.read, read, bind, Except.bind, pure, Except.pure, Except.ok.injEq] at passed
      rw [← passed]

/-- Reading to the end of a text commutes with a text in front. -/
theorem scan_behind
    (width : Width)
    {state : State}
    (inText : 0 < state.here.line)
    (before : List Char)
    (earlier : List Instruction)
    (source : List Glyph) :
    (state.behind before earlier).scan width source =
      ((state.scan width source).1.behind before earlier,
        (state.scan width source).2.map fun error => error.behind before) := by
  induction source generalizing state with
  | nil =>
    simp only [scan, flush_behind]
    cases state.flush width with
    | ok flushed => rfl
    | error error => rfl
  | cons glyph rest inductionHypothesis =>
    simp only [scan, read_behind width state before earlier inText]
    cases passed : state.read width glyph with
    | error error =>
      simp only [resultBehind, breakOff_behind]
      rfl
    | ok after =>
      apply inductionHypothesis
      rw [here_of_read passed]
      exact Position.line_advance_pos inText _ _

/-- What is still open was opened behind the text in front as well. -/
theorem unterminated?_behind
    (state : State)
    (before : List Char)
    (earlier : List Instruction) :
    (state.behind before earlier).unterminated? =
      state.unterminated?.map (Prod.map id fun position => position.behind before) := by
  have mode_eq : (state.behind before earlier).mode = state.mode := rfl
  unfold unterminated?
  rw [mode_eq]
  cases state.mode <;> rfl

theorem program_behind
    (state : State)
    (before : List Char)
    (earlier : List Instruction) :
    (state.behind before earlier).program =
      earlier.reverse ++ state.program.map fun instruction => instruction.behind before := by
  simp [program, behind]

/-! ## Behind a finished text -/

/-- A lexer that stands behind a text, outside strings and comments and with no number
to go on with. -/
structure Rests (state : State) (before : List Char) : Prop where
  /-- It stands behind the text. -/
  here_eq : state.here = .after before
  /-- No string or comment is open. -/
  mode_eq : state.mode = .normal
  /-- No number is being read. -/
  pending_eq : state.pending = none

namespace Rests

variable {state : State} {before : List Char}

/-- Such a lexer is like one at the start of a text that stands behind the first. -/
theorem alike (rests : state.Rests before) :
    state.Alike (initial.behind before state.emitted) := by
  have idle : state.reading = false := by simpa [pending] using rests.pending_eq
  have same : initial.behind before state.emitted =
      { state with
        opened := Position.nowhere.behind before,
        number := 0,
        numberAt := Position.nowhere.behind before } := by
    simp [initial, behind, rests.mode_eq, idle, rests.here_eq, Position.behind_start]
  rw [same]
  refine .stale (fun inside => absurd rests.mode_eq inside) (fun reading => ?_)
  simp [idle] at reading

/-- What follows is read as a text of its own. -/
theorem scan
    (rests : state.Rests before)
    (width : Width)
    (source : List Glyph) :
    (state.scan width source).2 =
        (initial.scan width source).2.map (fun error => error.behind before) ∧
      (state.scan width source).1.program =
        state.program ++ (initial.scan width source).1.program.map
          (fun instruction => instruction.behind before) ∧
      (state.scan width source).1.unterminated? =
        (initial.scan width source).1.unterminated?.map
          (Prod.map id fun position => position.behind before) := by
  obtain ⟨alike, error_eq⟩ := rests.alike.scan width source
  have inText : 0 < initial.here.line := Int.one_pos
  have moved := scan_behind width inText before state.emitted source
  rw [moved] at alike error_eq
  refine ⟨error_eq.symm, ?_, ?_⟩
  · rw [← alike.program_eq, program_behind]
    rfl
  · rw [← alike.unterminated?_eq, unterminated?_behind]

end Rests
end State

/-- The string or comment in which the reading of a source text ends. -/
def leftOpen? (width : Width) (source : List Glyph) : Option (Mode × Position) :=
  ((new source).withWidth width).tokenize.1.unterminated?

theorem leftOpen?_eq_scan
    (width : Width)
    (source : List Glyph) :
    leftOpen? width source = (State.initial.scan width source).1.unterminated? := by
  have restarted : ((new source).withWidth width).state.restart.scan
      ((new source).withWidth width).width ((new source).withWidth width).source =
        State.initial.scan width source := rfl
  rw [leftOpen?, tokenize, restarted]
  rcases State.initial.scan width source with ⟨final, _ | error⟩ <;> rfl

/-- A text that is accepted, and leaves neither a string or comment open nor a number
unfinished, brings the lexer to rest. -/
theorem exists_rests
    {width : Width}
    {text : List Char}
    {program : Program}
    (accepted : Program.ofSource width (text.map .char) = .ok program)
    (closed : leftOpen? width (text.map .char) = none)
    (idle : (Reading.of text).pending? = none) :
    ∃ middle : State, middle.Rests text ∧ middle.program = program ∧
      State.initial.Passes width (text.map .char) middle := by
  obtain ⟨other, same, clear, -⟩ := Program.ofSource_eq_ok_iff.mp accepted
  obtain rfl : text = other := (List.map_injective_iff.mpr fun _ _ => Glyph.char.inj) same
  obtain ⟨middle, tracks, scanned⟩ :=
    (State.tracks_restart width State.initial).scan_append clear
  change middle.Tracks width (Reading.of text) at tracks
  have pending_eq : middle.pending = none := by
    have tallied := tracks.pending_eq
    rw [← Reading.pending?, idle] at tallied
    exact Option.map_eq_none_iff.mp tallied
  have final : State.initial.scan width (text.map .char) = (middle, none) := by
    have to_end := scanned []
    rw [List.append_nil, State.scan, State.flush_of_none pending_eq] at to_end
    exact to_end
  have mode_eq : middle.mode = .normal := by
    rw [leftOpen?_eq_scan, final, tracks.unterminated?_eq] at closed
    rw [tracks.mode_eq, Cut.mode_eq_normal_iff]
    by_contra leftOpen
    have isSome := Reading.isSome_unterminated?_iff.mpr leftOpen
    rw [closed] at isSome
    cases isSome
  refine ⟨middle, ⟨?_, mode_eq, pending_eq⟩, ?_, scanned⟩
  · rw [tracks.here_eq, Reading.text_of]
  · rw [Program.ofSource_eq_scan, final] at accepted
    exact Except.ok.inj accepted

end Lexer

namespace Program

open Lexer (leftOpen?)

theorem ofSource_eq_ok_iff_scan
    {width : Width}
    {source : List Glyph}
    {program : Program} :
    ofSource width source = .ok program ↔
      (Lexer.State.initial.scan width source).2 = none ∧
        (Lexer.State.initial.scan width source).1.program = program := by
  rw [ofSource_eq_scan]
  rcases Lexer.State.initial.scan width source with ⟨final, _ | error⟩ <;> simp

theorem ofSource_eq_error_iff_scan
    {width : Width}
    {source : List Glyph}
    {error : Lexer.Error} :
    ofSource width source = .error error ↔
      (Lexer.State.initial.scan width source).2 = some error := by
  rw [ofSource_eq_scan]
  rcases Lexer.State.initial.scan width source with ⟨final, _ | other⟩ <;> simp

/-- A text behind a finished one is read as if it stood alone.  If a text is accepted and
ends outside strings and comments and with no number to go on with, then whatever bytes
follow are accepted exactly if they are accepted alone.  They give the same
instructions, or the same error, and leave the same string or comment open, each at the
place that it has behind the first text. -/
theorem ofSource_append_behind
    (bytes : Int)
    (text : List Char)
    (rest : List UInt8)
    {program : Program}
    (accepted : ofSource (.ofInt bytes) (Glyph.decode (Text.utf8 text)) = .ok program)
    (closed : leftOpen? (.ofInt bytes) (Glyph.decode (Text.utf8 text)) = none)
    (idle : (Lexer.Reading.of text).pending? = none) :
    ((∃ whole, ofSource (.ofInt bytes) (Glyph.decode (Text.utf8 text ++ rest)) = .ok whole) ↔
      ∃ later, ofSource (.ofInt bytes) (Glyph.decode rest) = .ok later) ∧
    (∀ later, ofSource (.ofInt bytes) (Glyph.decode rest) = .ok later ->
      ofSource (.ofInt bytes) (Glyph.decode (Text.utf8 text ++ rest)) =
        .ok (program ++ later.map fun instruction => instruction.behind text)) ∧
    (∀ error, ofSource (.ofInt bytes) (Glyph.decode rest) = .error error ->
      ofSource (.ofInt bytes) (Glyph.decode (Text.utf8 text ++ rest)) =
        .error (error.behind text)) ∧
    leftOpen? (.ofInt bytes) (Glyph.decode (Text.utf8 text ++ rest)) =
      (leftOpen? (.ofInt bytes) (Glyph.decode rest)).map
        (Prod.map id fun position => position.behind text) := by
  rw [Glyph.decode_utf8] at accepted closed
  obtain ⟨middle, rests, rfl, passes⟩ := Lexer.exists_rests accepted closed idle
  obtain ⟨error_eq, program_eq, open_eq⟩ := rests.scan (.ofInt bytes) (Glyph.decode rest)
  rw [← passes, ← Glyph.decode_utf8_append] at error_eq program_eq open_eq
  rw [Lexer.leftOpen?_eq_scan, Lexer.leftOpen?_eq_scan]
  refine ⟨?_, ?_, ?_, open_eq⟩
  · simp only [ofSource_eq_ok_iff_scan, error_eq, Option.map_eq_none_iff, exists_and_left,
      exists_eq', and_true]
  · intro later accepted'
    obtain ⟨unfailed, rfl⟩ := ofSource_eq_ok_iff_scan.mp accepted'
    refine ofSource_eq_ok_iff_scan.mpr ⟨?_, program_eq⟩
    rw [error_eq, unfailed]
    rfl
  · intro error refused
    rw [ofSource_eq_error_iff_scan] at refused ⊢
    rw [error_eq, refused]
    rfl

/-- A string with a newline and a number in front of an operator, another line and a
string that is not closed: what stands on the line of the operator is moved to the
right, what stands on the next line is not. -/
theorem ofSource_append_behind_twoLines :
    ofSource (.ofInt 1) (Glyph.decode (Text.utf8 ['"', 'é', '\n', '"', '7', ' '])) = .ok [
      { kind := .push, value := 233, position := { offset := 1, line := 1, column := 2 } },
      { kind := .push, value := 10, position := { offset := 3, line := 1, column := 3 } },
      { kind := .push, value := 7, position := { offset := 5, line := 2, column := 2 } }] ∧
    ofSource (.ofInt 1) (Glyph.decode (Text.utf8 ['"', 'é', '\n', '"', '7', ' '] ++
        Text.utf8 ['+', '\n', '"', 'a'])) = .ok [
      { kind := .push, value := 233, position := { offset := 1, line := 1, column := 2 } },
      { kind := .push, value := 10, position := { offset := 3, line := 1, column := 3 } },
      { kind := .push, value := 7, position := { offset := 5, line := 2, column := 2 } },
      { kind := .add, value := 0, position := { offset := 7, line := 2, column := 4 } },
      { kind := .push, value := 97, position := { offset := 10, line := 3, column := 2 } }] ∧
    leftOpen? (.ofInt 1) (Glyph.decode (Text.utf8 ['"', 'é', '\n', '"', '7', ' '] ++
        Text.utf8 ['+', '\n', '"', 'a'])) =
      some (.string, { offset := 9, line := 3, column := 1 }) := by
  have accepted : ofSource (.ofInt 1)
      (Glyph.decode (Text.utf8 ['"', 'é', '\n', '"', '7', ' '])) = .ok [
      { kind := .push, value := 233, position := { offset := 1, line := 1, column := 2 } },
      { kind := .push, value := 10, position := { offset := 3, line := 1, column := 3 } },
      { kind := .push, value := 7, position := { offset := 5, line := 2, column := 2 } }] := by
    rw [Glyph.decode_utf8]
    rfl
  have closed : leftOpen? (.ofInt 1)
      (Glyph.decode (Text.utf8 ['"', 'é', '\n', '"', '7', ' '])) = none := by
    rw [Glyph.decode_utf8]
    rfl
  have later : ofSource (.ofInt 1) (Glyph.decode (Text.utf8 ['+', '\n', '"', 'a'])) = .ok [
      { kind := .add, value := 0, position := { offset := 0, line := 1, column := 1 } },
      { kind := .push, value := 97, position := { offset := 3, line := 2, column := 2 } }] := by
    rw [Glyph.decode_utf8]
    rfl
  have leftOpen : leftOpen? (.ofInt 1) (Glyph.decode (Text.utf8 ['+', '\n', '"', 'a'])) =
      some (.string, { offset := 2, line := 2, column := 1 }) := by
    rw [Glyph.decode_utf8]
    rfl
  obtain ⟨-, whole, -, open_eq⟩ := ofSource_append_behind 1 ['"', 'é', '\n', '"', '7', ' ']
    (Text.utf8 ['+', '\n', '"', 'a']) accepted closed rfl
  refine ⟨accepted, whole _ later, ?_⟩
  rw [open_eq, leftOpen]
  rfl

end Program
end GlyphStack
