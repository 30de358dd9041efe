import GlyphStack.Proofs.Literals
import GlyphStack.Proofs.Reading

/-!
# A lexer follows the reading of its text

A lexer goes through a text with a mode, a number that is being read and the
program so far.  At every place these are what the reading of the text so far
says: the mode is how the reading ends, the number is the one of the last chunk,
and the program is that of all chunks before, with the letters of the last.

A character that does not fit is an offense.  Where there is none, the lexer goes
on and keeps following the reading; where there is one, it stops with the error of
that offense.
-/

namespace GlyphStack

/-- An instruction with its value as a number without bounds. -/
def Instruction.entry (instruction : Instruction) : Lexer.Entry where
  kind := instruction.kind
  value := instruction.value.toInt
  position := instruction.position

namespace Lexer

/-- The number being read as the push that it will become. -/
def Literal.entry (literal : Literal) : Entry where
  kind := .push
  value := literal.value.toInt
  position := literal.start

/-- What a lexer is in the middle of where a reading ends. -/
def Cut.mode : Cut -> Mode
  | .clean => .normal
  | .string _ => .string
  | .escape _ => .escape
  | .comment _ _ => .comment

/-! ## One character -/

namespace State

/-- What a character does in its role, apart from opening and closing strings and
comments. -/
def absorb (width : Width) (state : State) (c : Char) : Role -> Except Error State
  | .space => state.flush width
  | .digit value => state.readDigit width (Int64.ofNat value)
  | .operator kind => do
    let flushed <- state.flush width
    return flushed.emit (.plain kind state.here)
  | .letter letter => state.emitChar width letter
  | .silent => .ok state
  | .unknown => .error (.unknownSymbol c state.here)

/-- Change the mode, and note where a string or comment is opened. -/
def turn (state : State) (mode : Mode) : State :=
  { state with
    mode := mode,
    opened := if state.mode = .normal ∧ mode ≠ .normal then state.here else state.opened }

theorem turn_self
    {state : State}
    {mode : Mode}
    (unchanged : state.mode = mode) :
    state.turn mode = state := by
  subst unchanged
  simp [turn]

variable {width : Width} {state : State}

theorem digit_frame
    (state : State)
    (digit : Int64) :
    (state.beginNumber.appendDigit digit).mode = state.mode ∧
      (state.beginNumber.appendDigit digit).emitted = state.emitted := by
  rw [beginNumber_eq]
  unfold appendDigit
  split <;> exact ⟨rfl, rfl⟩

/-- A reading that breaks off leaves open what was open and adds no instruction. -/
theorem breakOff_frame
    (state : State)
    (glyph : Glyph) :
    (state.breakOff glyph).unterminated? = state.unterminated? ∧
      (state.breakOff glyph).program = state.program := by
  unfold breakOff
  split
  · next mode => exact ⟨by simp [unterminated?, mode], rfl⟩
  · next mode =>
    split
    · next digit _ =>
      obtain ⟨mode_eq, emitted_eq⟩ := digit_frame state digit
      exact ⟨by simp [unterminated?, mode_eq, mode], by simp [program, emitted_eq]⟩
    · exact ⟨rfl, rfl⟩
  · exact ⟨rfl, rfl⟩

theorem flush_frame
    {after : State}
    (flushed : state.flush width = .ok after) :
    after.here = state.here ∧ after.mode = state.mode ∧ after.opened = state.opened := by
  unfold flush at flushed
  split at flushed
  · cases flushed
    exact ⟨rfl, rfl, rfl⟩
  · split at flushed
    · cases flushed
      exact ⟨rfl, rfl, rfl⟩
    · cases flushed

/-- Whatever a character does in its role, the place and the mode stay. -/
theorem absorb_frame
    {after : State}
    {c : Char}
    {role : Role}
    (absorbed : state.absorb width c role = .ok after) :
    after.here = state.here ∧ after.mode = state.mode ∧ after.opened = state.opened := by
  cases role with
  | space => exact flush_frame absorbed
  | digit value =>
    simp only [absorb, readDigit_eq] at absorbed
    split at absorbed
    · cases absorbed
    · split at absorbed <;> cases absorbed
      exact ⟨rfl, rfl, rfl⟩
  | operator kind =>
    simp only [absorb] at absorbed
    cases flushed : state.flush width with
    | error error =>
      rw [flushed] at absorbed
      cases absorbed
    | ok middle =>
      rw [flushed] at absorbed
      cases absorbed
      have frame := flush_frame flushed
      exact frame
  | letter letter =>
    simp only [absorb, emitChar] at absorbed
    split at absorbed <;> cases absorbed
    exact ⟨rfl, rfl, rfl⟩
  | silent =>
    cases absorbed
    exact ⟨rfl, rfl, rfl⟩
  | unknown => cases absorbed

theorem emitChar_mode
    (mode : Mode)
    (c : Char) :
    { state with mode := mode }.emitChar width c =
      (state.emitChar width c).map fun after => { after with mode := mode } := by
  simp only [emitChar]
  cases Instruction.push width (Int64.ofNat c.toNat) state.here <;> rfl

theorem readNormal_bare
    {c : Char}
    (notQuote : c ≠ quoteMark)
    (notComment : c ≠ commentMark) :
    state.readNormal width c = state.absorb width c (.ofBare c) := by
  unfold readNormal Role.ofBare digit?
  by_cases isSpace : Text.isSpace c
  · simp [isSpace, absorb]
  by_cases isDigit : '0' ≤ c ∧ c ≤ '9'
  · simp [isSpace, notQuote, notComment, isDigit, absorb]
  · simp only [isSpace, notQuote, notComment, isDigit, readSymbol, Bool.false_eq_true, if_false]
    cases Kind.ofSymbol? c <;> rfl

/-- A character acts in the role that it has behind the text so far, and then the
mode is the one behind the character. -/
theorem readChar_eq
    {reading : Reading}
    (mode_eq : state.mode = reading.cut.mode)
    (c : Char) :
    state.readChar width c =
      (state.absorb width c (reading.cut.role c)).map fun after =>
        after.turn (reading.extend c).cut.mode := by
  obtain ⟨pieces, cut⟩ := reading
  -- In all cases without a change of the mode the turn does nothing.
  have stays : ∀ role mode, state.mode = mode ->
      state.absorb width c role =
        (state.absorb width c role).map fun after => after.turn mode := by
    intro role mode unchanged
    cases absorbed : state.absorb width c role with
    | error error => rfl
    | ok after =>
      have frame := absorb_frame absorbed
      rw [Except.map, turn_self (frame.2.1.trans unchanged)]
  cases cut with
  | clean =>
    change state.mode = .normal at mode_eq
    simp only [readChar, mode_eq]
    by_cases isQuote : c = quoteMark
    · subst isQuote
      simp [readNormal, Text.isSpace, quoteMark, Cut.role, absorb, Reading.extend, Cut.mode,
        turn, mode_eq, Except.map]
    by_cases isComment : c = commentMark
    · subst isComment
      simp [readNormal, Text.isSpace, quoteMark, commentMark, Cut.role, absorb, Reading.extend,
        Cut.mode, turn, mode_eq, Except.map]
    rw [readNormal_bare isQuote isComment]
    simpa [Cut.role, isQuote, isComment, Reading.extend, Cut.mode] using stays _ _ mode_eq
  | string body =>
    change state.mode = .string at mode_eq
    simp only [readChar, mode_eq]
    by_cases isEscape : c = escapeMark
    · simp [readString, Cut.role, absorb, Reading.extend, Cut.mode, turn, mode_eq, isEscape,
        Except.map]
    by_cases isQuote : c = quoteMark
    · simp [readString, Cut.role, absorb, Reading.extend, Cut.mode, turn, mode_eq, isQuote,
        quoteMark, escapeMark, Except.map]
    simpa [readString, Cut.role, isEscape, isQuote, Reading.extend, Cut.mode, absorb]
      using stays (.letter c) _ mode_eq
  | escape body =>
    change state.mode = .escape at mode_eq
    simp only [readChar, mode_eq, emitChar_mode, Cut.role, absorb, Reading.extend, Cut.mode]
    cases emitted : state.emitChar width c with
    | error error => rfl
    | ok after =>
      have absorbed : state.absorb width c (.letter c) = .ok after := emitted
      have frame := absorb_frame absorbed
      simp [Except.map, turn, frame.2.1, mode_eq]
  | comment body unmarked =>
    change state.mode = .comment at mode_eq
    simp only [readChar, mode_eq]
    by_cases isComment : c = commentMark
    · simp [Cut.role, absorb, Reading.extend, Cut.mode, turn, mode_eq, isComment, Except.map]
    · simpa [Cut.role, absorb, Reading.extend, Cut.mode, isComment, Except.map]
        using (turn_self mode_eq).symm

end State

/-! ## Offenses -/

namespace Reading

/-- The number that the digits of the last chunk spell. -/
def pendingValue (reading : Reading) : Nat :=
  spelled (sinceFlush reading.marks)

/-- Where that number begins, or the end of the text if there is none. -/
def pendingStart (reading : Reading) : Position :=
  numberStart (.after reading.text) (sinceFlush reading.marks)

/-- The error of a glyph that does not fit behind a reading: a stray byte, a
character that the language does not know, a digit that takes its number beyond
the width, or a letter beyond it. -/
def offense? (width : Width) (reading : Reading) : Glyph -> Option Error
  | .stray byte => some (.strayByte byte (.after reading.text))
  | .char c =>
    match reading.cut.role c with
    | .unknown => some (.unknownSymbol c (.after reading.text))
    | .digit digit =>
      if 10 * (reading.pendingValue : Int) + digit ≤ width.largest then
        none
      else
        some (.literal
          { value := Int64.ofInt (State.reported width reading.pendingValue digit),
            bytes := width.bytes }
          reading.pendingStart)
    | .letter letter =>
      if (letter.toNat : Int) ≤ width.largest then
        none
      else
        some (.literal
          { value := Int64.ofNat letter.toNat, bytes := width.bytes }
          (.after reading.text))
    | .space | .operator _ | .silent => none

/-- No character of a text that follows a reading is an offense. -/
def Clear (width : Width) (reading : Reading) : List Char -> Prop
  | [] => True
  | c :: rest => reading.offense? width (.char c) = none ∧ (reading.extend c).Clear width rest

end Reading

theorem Role.digit_lt_of_ofBare
    {c : Char}
    {digit : Nat}
    (isDigit : Role.ofBare c = .digit digit) :
    digit < 10 := by
  unfold ofBare at isDigit
  split at isDigit
  · cases isDigit
  split at isDigit
  · next range =>
    have below : c.toNat ≤ '9'.toNat := range.2
    simp only [Role.digit.injEq, Char.reduceToNat] at isDigit below
    omega
  · split at isDigit <;> cases isDigit

theorem Cut.digit_lt_of_role
    {cut : Cut}
    {c : Char}
    {digit : Nat}
    (isDigit : cut.role c = .digit digit) :
    digit < 10 := by
  cases cut with
  | clean =>
    simp only [role] at isDigit
    split at isDigit
    · cases isDigit
    · exact Role.digit_lt_of_ofBare isDigit
  | string body =>
    simp only [role] at isDigit
    split at isDigit <;> cases isDigit
  | escape body => cases isDigit
  | comment body unmarked => cases isDigit

/-! ## The lexer between two characters -/

namespace State

/-- The program so far and the number being read are those of some marks. -/
structure Tallies (width : Width) (state : State) (marks : List Mark) : Prop where
  /-- The number is the one of the last chunk. -/
  pending_eq : state.pending.map Literal.entry = number? (sinceFlush marks)
  /-- The program has all chunks before, and the letters of the last. -/
  program_eq : state.program.map Instruction.entry =
    settled marks ++ (sinceFlush marks).filterMap Mark.letter?
  /-- The number is within the width. -/
  pending_le : ∀ literal, state.pending = some literal ->
    literal.value.toInt ≤ width.largest

namespace Tallies

variable {width : Width} {state after : State} {marks : List Mark}

/-- The number that a digit is appended to is the one of the last chunk. -/
theorem literal_entry
    (tallies : state.Tallies width marks) :
    state.literal.entry =
      { kind := .push,
        value := spelled (sinceFlush marks),
        position := numberStart state.here (sinceFlush marks) } := by
  have pending_eq := tallies.pending_eq
  cases pending : state.pending with
  | none =>
    have absent : number? (sinceFlush marks) = none := by
      simpa [pending] using pending_eq.symm
    rw [spelled_of_number?_eq_none absent, numberStart_of_number?_eq_none absent]
    simp [literal, pending, Literal.entry]
  | some found =>
    have present : number? (sinceFlush marks) = some found.entry := by
      simpa [pending] using pending_eq.symm
    rw [← number?_eq_some present state.here]
    simp [literal, pending]

theorem literal_value
    (tallies : state.Tallies width marks) :
    state.literal.value.toInt = spelled (sinceFlush marks) :=
  congrArg Entry.value tallies.literal_entry

theorem literal_start
    (tallies : state.Tallies width marks) :
    state.literal.start = numberStart state.here (sinceFlush marks) :=
  congrArg Entry.position tallies.literal_entry

theorem literal_le
    (tallies : state.Tallies width marks) :
    state.literal.value.toInt ≤ width.largest := by
  cases pending : state.pending with
  | none => simpa [literal, pending] using width.largest_nonneg
  | some found => simpa [literal, pending] using tallies.pending_le found pending

/-- The number being read can always be turned into a push. -/
theorem flush
    (tallies : state.Tallies width marks) :
    ∃ flushed, state.flush width = .ok flushed ∧ flushed.pending = none ∧
      flushed.program.map Instruction.entry =
        settled marks ++ settle (sinceFlush marks) := by
  have pending_eq := tallies.pending_eq
  cases pending : state.pending with
  | none =>
    refine ⟨state, flush_of_none pending, pending, ?_⟩
    have absent : number? (sinceFlush marks) = none := by
      simpa [pending] using pending_eq.symm
    rw [tallies.program_eq, settle, absent]
    simp
  | some found =>
    have nonneg : 0 ≤ found.value.toInt := by
      have value_eq := tallies.literal_value
      simp only [literal, pending, Option.getD_some] at value_eq
      omega
    refine ⟨_, flush_of_le pending nonneg (tallies.pending_le found pending), rfl, ?_⟩
    have present : number? (sinceFlush marks) = some found.entry := by
      simpa [pending] using pending_eq.symm
    rw [settle, present, ← List.append_assoc, ← tallies.program_eq]
    simp [program, emit, Instruction.entry, Literal.entry]

/-- A character that ends a number starts a new chunk. -/
theorem concat_of_flush
    {mark : Mark}
    (flush : mark.isFlush = true)
    (idle : after.pending = none)
    (emitted : after.program.map Instruction.entry =
      settled marks ++ settle (sinceFlush marks) ++ mark.operator?.toList) :
    after.Tallies width (marks ++ [mark]) where
  pending_eq := by
    rw [sinceFlush_concat_of_flush flush, idle]
    rfl
  program_eq := by
    rw [sinceFlush_concat_of_flush flush, settled_concat_of_flush flush, emitted]
    simp
  pending_le literal pending := by simp [idle] at pending

/-- Any other character belongs to the last chunk. -/
theorem concat
    {mark : Mark}
    (tallies : state.Tallies width marks)
    (noFlush : mark.isFlush = false)
    (pending_eq : after.pending.map Literal.entry = number? (sinceFlush marks ++ [mark]))
    (pending_le : ∀ literal, after.pending = some literal ->
      literal.value.toInt ≤ width.largest)
    (emitted : after.program.map Instruction.entry =
      state.program.map Instruction.entry ++ mark.letter?.toList) :
    after.Tallies width (marks ++ [mark]) where
  pending_eq := by rw [sinceFlush_concat noFlush, pending_eq]
  program_eq := by
    rw [sinceFlush_concat noFlush, settled_concat noFlush, emitted, tallies.program_eq,
      List.filterMap_append, List.append_assoc]
    cases letter : mark.letter? <;> simp [letter]
  pending_le := pending_le

theorem absorb_space
    (tallies : state.Tallies width marks)
    (c : Char) :
    ∃ after, state.absorb width c .space = .ok after ∧
      after.Tallies width (marks ++ [{ position := state.here, role := .space }]) := by
  obtain ⟨flushed, flushes, idle, emitted⟩ := tallies.flush
  refine ⟨flushed, flushes, concat_of_flush rfl idle ?_⟩
  simp [emitted, Mark.operator?]

theorem absorb_operator
    (tallies : state.Tallies width marks)
    (c : Char)
    (kind : Kind) :
    ∃ after, state.absorb width c (.operator kind) = .ok after ∧
      after.Tallies width (marks ++ [{ position := state.here, role := .operator kind }]) := by
  obtain ⟨flushed, flushes, idle, emitted⟩ := tallies.flush
  refine ⟨flushed.emit (.plain kind state.here), ?_, concat_of_flush rfl idle ?_⟩
  · rw [absorb, flushes]
    rfl
  · rw [← emitted]
    simp [program, emit, Mark.operator?, Instruction.entry, Instruction.plain]

theorem absorb_digit
    (tallies : state.Tallies width marks)
    (c : Char)
    {digit : Nat}
    (isDigit : digit < 10)
    (within : 10 * (spelled (sinceFlush marks) : Int) + digit ≤ width.largest) :
    ∃ after, state.absorb width c (.digit digit) = .ok after ∧
      after.Tallies width (marks ++ [{ position := state.here, role := .digit digit }]) := by
  have value_eq := tallies.literal_value
  have nonneg : 0 ≤ state.literal.value.toInt := by omega
  have within' : 10 * state.literal.value.toInt + digit ≤ width.largest := by omega
  obtain ⟨value, appended, read⟩ := readDigit_of_le nonneg isDigit within'
  refine ⟨_, read, tallies.concat rfl ?_ ?_ ?_⟩
  · rw [number?_concat_digit rfl, ← tallies.literal_start]
    simp [Literal.entry, appended, value_eq]
  · intro literal pending
    rw [pending_withLiteral, Option.some.injEq] at pending
    subst pending
    simp only [appended]
    omega
  · simp [program, withLiteral, Mark.letter?]

theorem absorb_letter
    (tallies : state.Tallies width marks)
    (c : Char)
    {letter : Char}
    (within : (letter.toNat : Int) ≤ width.largest) :
    ∃ after, state.absorb width c (.letter letter) = .ok after ∧
      after.Tallies width (marks ++ [{ position := state.here, role := .letter letter }]) := by
  refine ⟨_, emitChar_of_le within, tallies.concat rfl ?_ tallies.pending_le ?_⟩
  · rw [number?_concat rfl]
    exact tallies.pending_eq
  · simp only [program, emit, List.reverse_cons, List.map_append, List.map_cons, List.map_nil,
      Instruction.entry, toInt_codePoint, Mark.letter?, Option.toList]

theorem absorb_silent
    (tallies : state.Tallies width marks)
    (c : Char) :
    ∃ after, state.absorb width c .silent = .ok after ∧
      after.Tallies width (marks ++ [{ position := state.here, role := .silent }]) := by
  refine ⟨state, rfl, tallies.concat rfl ?_ tallies.pending_le ?_⟩
  · rw [number?_concat rfl]
    exact tallies.pending_eq
  · simp [Mark.letter?]

end Tallies

/-- A lexer that has come to the end of a reading. -/
structure Follows (width : Width) (state : State) (reading : Reading) : Prop
    extends Tallies width state reading.marks where
  /-- It stands behind the text. -/
  here_eq : state.here = .after reading.text
  /-- It is in the middle of what the reading ends in. -/
  mode_eq : state.mode = reading.cut.mode

theorem follows_initial (width : Width) : initial.Follows width .empty where
  pending_eq := rfl
  program_eq := rfl
  pending_le literal pending := by cases pending
  here_eq := rfl
  mode_eq := rfl

namespace Follows

variable {width : Width} {state : State} {reading : Reading}

/-- What a character does that is no offense. -/
theorem absorb
    (follows : state.Follows width reading)
    {c : Char}
    (fits : reading.offense? width (.char c) = none) :
    ∃ after, state.absorb width c (reading.cut.role c) = .ok after ∧
      after.Tallies width (reading.extend c).marks := by
  rw [Reading.marks_extend, ← follows.here_eq]
  have tallies := follows.toTallies
  simp only [Reading.offense?] at fits
  cases role_eq : reading.cut.role c with
  | space => exact tallies.absorb_space c
  | operator kind => exact tallies.absorb_operator c kind
  | silent => exact tallies.absorb_silent c
  | unknown => simp [role_eq] at fits
  | digit digit =>
    simp only [role_eq, ite_eq_left_iff, reduceCtorEq, imp_false, Decidable.not_not] at fits
    exact tallies.absorb_digit c (Cut.digit_lt_of_role role_eq) fits
  | letter letter =>
    simp only [role_eq, ite_eq_left_iff, reduceCtorEq, imp_false, Decidable.not_not] at fits
    exact tallies.absorb_letter c fits

/-- A character that is no offense is passed. -/
theorem read
    (follows : state.Follows width reading)
    {c : Char}
    (fits : reading.offense? width (.char c) = none) :
    ∃ after, state.read width (.char c) = .ok after ∧
      after.Follows width (reading.extend c) := by
  obtain ⟨middle, absorbed, tallies⟩ := follows.absorb fits
  refine ⟨{ middle.turn (reading.extend c).cut.mode with
    here := state.here.advance c.utf8Size (c == '\n') }, ?_, ?_⟩
  · rw [State.read, readChar_eq follows.mode_eq c, absorbed]
    rfl
  · refine ⟨⟨tallies.pending_eq, tallies.program_eq, tallies.pending_le⟩, ?_, rfl⟩
    rw [Reading.text_extend, Position.after_concat, ← follows.here_eq]

/-- The lexer stops at an offense with its error. -/
theorem read_offense
    (follows : state.Follows width reading)
    {glyph : Glyph}
    {error : Error}
    (offense : reading.offense? width glyph = some error) :
    state.read width glyph = .error error := by
  have here_eq := follows.here_eq
  cases glyph with
  | stray byte =>
    simp only [Reading.offense?, Option.some.injEq] at offense
    rw [← offense, State.read, here_eq]
  | char c =>
    suffices absorbed : state.absorb width c (reading.cut.role c) = .error error by
      rw [State.read, readChar_eq follows.mode_eq c, absorbed]
      rfl
    simp only [Reading.offense?] at offense
    cases role_eq : reading.cut.role c with
    | space => simp [role_eq] at offense
    | operator kind => simp [role_eq] at offense
    | silent => simp [role_eq] at offense
    | unknown =>
      simp only [role_eq, Option.some.injEq] at offense
      rw [← offense, State.absorb, here_eq]
    | digit digit =>
      simp only [role_eq, Option.ite_none_left_eq_some, Option.some.injEq] at offense
      obtain ⟨beyond, rfl⟩ := offense
      have value_eq : state.literal.value.toInt = reading.pendingValue := follows.literal_value
      have start_eq : state.literal.start = reading.pendingStart := by
        rw [follows.literal_start, here_eq]
        rfl
      rw [State.absorb, readDigit_of_lt (by omega) follows.literal_le
        (Cut.digit_lt_of_role role_eq) (by omega), value_eq, start_eq]
    | letter letter =>
      simp only [role_eq, Option.ite_none_left_eq_some, Option.some.injEq] at offense
      obtain ⟨beyond, rfl⟩ := offense
      rw [State.absorb, emitChar_of_lt (by omega), here_eq]

/-! ## The whole text -/

/-- A text without an offense is read to its end and gives the program of its
reading. -/
theorem scan
    (follows : state.Follows width reading)
    {text : List Char}
    (clear : reading.Clear width text) :
    ∃ final, state.scan width (text.map .char) = (final, none) ∧
      final.program.map Instruction.entry = (text.foldl Reading.extend reading).entries := by
  induction text generalizing state reading with
  | nil =>
    obtain ⟨flushed, flushes, -, emitted⟩ := follows.flush
    refine ⟨flushed, ?_, ?_⟩
    · simp only [List.map_nil, State.scan, flushes]
    · rw [emitted, ← entriesFrom_nil]
      rfl
  | cons c text inductionHypothesis =>
    obtain ⟨fits, clear⟩ := clear
    obtain ⟨after, passed, follows⟩ := follows.read fits
    obtain ⟨final, scanned, emitted⟩ := inductionHypothesis follows clear
    refine ⟨final, ?_, emitted⟩
    rw [List.map_cons, State.scan, passed]
    exact scanned

/-- At the first offense the reading of a text ends with its error. -/
theorem scan_offense
    (follows : state.Follows width reading)
    {text : List Char}
    (clear : reading.Clear width text)
    {glyph : Glyph}
    {error : Error}
    (offense : (text.foldl Reading.extend reading).offense? width glyph = some error)
    (later : List Glyph) :
    ∃ final, state.scan width (text.map .char ++ glyph :: later) = (final, some error) := by
  induction text generalizing state reading with
  | nil =>
    refine ⟨state.breakOff glyph, ?_⟩
    rw [List.map_nil, List.nil_append, State.scan, follows.read_offense offense]
  | cons c text inductionHypothesis =>
    obtain ⟨fits, clear⟩ := clear
    obtain ⟨after, passed, follows⟩ := follows.read fits
    obtain ⟨final, scanned⟩ := inductionHypothesis follows clear offense
    refine ⟨final, ?_⟩
    rw [List.map_cons, List.cons_append, State.scan, passed]
    exact scanned

end Follows
end State

/-- Going through glyphs one either meets no offense, and then they are all
characters, or a first one. -/
theorem Reading.clear_or_offense
    (width : Width)
    (reading : Reading)
    (glyphs : List Glyph) :
    (∃ text, glyphs = text.map .char ∧ reading.Clear width text) ∨
      ∃ text glyph later error, glyphs = text.map .char ++ glyph :: later ∧
        reading.Clear width text ∧
        (text.foldl extend reading).offense? width glyph = some error := by
  induction glyphs generalizing reading with
  | nil => exact .inl ⟨[], rfl, trivial⟩
  | cons glyph glyphs inductionHypothesis =>
    cases offense : reading.offense? width glyph with
    | some error => exact .inr ⟨[], glyph, glyphs, error, rfl, trivial, offense⟩
    | none =>
      cases glyph with
      | stray byte => simp [offense?] at offense
      | char c =>
        rcases inductionHypothesis (reading.extend c) with
          ⟨text, rfl, clear⟩ | ⟨text, glyph, later, error, rfl, clear, found⟩
        · exact .inl ⟨c :: text, rfl, offense, clear⟩
        · exact .inr ⟨c :: text, glyph, later, error, rfl, ⟨offense, clear⟩, found⟩

end Lexer
end GlyphStack
