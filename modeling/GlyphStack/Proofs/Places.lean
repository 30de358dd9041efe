import GlyphStack.Proofs.Origins

/-!
# Places that a lexer reports

A lexer counts bytes, lines and columns as it goes.  Whatever place it reports, of
an instruction, of an error or of a string or comment that is still open, is the
place of one glyph of the text: all bytes before it are whole characters, and line
and column are those that these characters give.  The glyph is the one that the
report is about.  A lexer may have been used before; nothing of that shows.
-/

namespace GlyphStack

/-- A position is the place of a glyph, behind the characters before it. -/
structure Position.PointsAt
    (position : Position)
    (input : List UInt8)
    (before : List Char)
    (glyph : Glyph) : Prop where
  /-- Offset, line and column are those behind the characters. -/
  position_eq : position = .after before
  /-- The bytes are those of the characters, and then comes the glyph. -/
  begins : ∃ rest, input = Text.utf8 before ++ rest ∧ glyph.Begins rest

theorem Position.pointsAt_after
    (before : List Char)
    (c : Char)
    (later : List Char)
    (rest : List UInt8) :
    (after before).PointsAt (Text.utf8 (before ++ c :: later) ++ rest) before (.char c) where
  position_eq := rfl
  begins := by
    refine ⟨String.utf8EncodeChar c ++ (Text.utf8 later ++ rest), ?_, List.prefix_append _ _⟩
    simp [Text.utf8]

namespace Lexer

/-! ## What is still open -/

theorem Cut.mode_eq_normal_iff
    {cut : Cut} :
    cut.mode = .normal ↔ cut = .clean := by
  cases cut <;> simp [mode]

namespace Reading

/-- The text of the complete pieces, which is all that stands before a string or
comment that is cut off. -/
def complete (reading : Reading) : List Char :=
  (reading.pieces.flatMap Piece.roles).map Prod.fst

theorem text_eq_complete_append (reading : Reading) :
    reading.text = reading.complete ++ reading.cut.roles.map Prod.fst := by
  rw [text, roles, List.map_append]
  rfl

theorem complete_of_clean
    {reading : Reading}
    (clean : reading.cut = .clean) :
    reading.complete = reading.text := by
  rw [text_eq_complete_append, clean]
  simp [Cut.roles]

/-- A character that leaves something open completes no piece. -/
theorem complete_extend
    {reading : Reading}
    {c : Char}
    (leftOpen : (reading.extend c).cut ≠ .clean) :
    (reading.extend c).complete = reading.complete := by
  obtain ⟨pieces, cut⟩ := reading
  cases cut with
  | clean =>
    by_cases isQuote : c = quoteMark
    · simp [extend, isQuote, complete]
    by_cases isComment : c = commentMark
    · simp [extend, isComment, complete, quoteMark, commentMark]
    simp [extend, isQuote, isComment] at leftOpen
  | string body =>
    by_cases isEscape : c = escapeMark
    · simp [extend, isEscape, complete]
    by_cases isQuote : c = quoteMark
    · simp [extend, isQuote, quoteMark, escapeMark] at leftOpen
    simp [extend, isEscape, isQuote, complete]
  | escape body => simp [extend, complete]
  | comment body unmarked =>
    by_cases isComment : c = commentMark
    · simp [extend, isComment] at leftOpen
    · simp [extend, isComment, complete]

/-- What is complete stays complete. -/
theorem complete_prefix_extend
    (reading : Reading)
    (c : Char) :
    reading.complete <+: (reading.extend c).complete := by
  by_cases leftOpen : (reading.extend c).cut = .clean
  · rw [complete_of_clean leftOpen, text_extend, text_eq_complete_append, List.append_assoc]
    exact List.prefix_append _ _
  · exact (complete_extend leftOpen) ▸ List.prefix_refl _

theorem complete_prefix_of_append
    (text later : List Char) :
    (of text).complete <+: (of (text ++ later)).complete := by
  induction later using List.reverseRecOn with
  | nil => simp
  | append_singleton later c inductionHypothesis =>
    rw [← List.append_assoc, of_concat]
    exact inductionHypothesis.trans (complete_prefix_extend _ c)

/-- The string or comment in which a reading ends, and where it was opened. -/
def unterminated? (reading : Reading) : Option (Mode × Position) :=
  match reading.cut with
  | .clean => none
  | .string _ | .escape _ => some (.string, .after reading.complete)
  | .comment _ _ => some (.comment, .after reading.complete)

theorem isSome_unterminated?_iff
    {reading : Reading} :
    reading.unterminated?.isSome ↔ reading.cut ≠ .clean := by
  unfold unterminated?
  split <;> simp_all

end Reading

/-- The character at which a string or comment was opened that is still open where
a text ends. -/
structure OpenedAt (text : List Char) (mode : Mode) (before : List Char) (c : Char) : Prop where
  /-- It is the mark of a string or of a comment. -/
  mark_eq : mode = .string ∧ c = quoteMark ∨ mode = .comment ∧ c = commentMark
  /-- It does not stand in another string or comment. -/
  outside : (Reading.of before).cut = .clean
  /-- Nothing behind it closes what it opens. -/
  unclosed : ∃ body, text = before ++ c :: body ∧ ∀ more, more <+: body ->
    (Reading.of (before ++ c :: more)).cut ≠ .clean

/-- The complete pieces end outside strings and comments. -/
theorem Reading.cut_of_complete (reading : Reading) : (of reading.complete).cut = .clean := by
  have pieces_only : of reading.complete = { pieces := reading.pieces, cut := .clean } := by
    rw [← of_text { pieces := reading.pieces, cut := .clean }, ← complete_of_clean rfl]
    rfl
  rw [pieces_only]

/-- Behind the complete pieces nothing is complete. -/
theorem Reading.cut_ne_clean_of_prefix
    {text more : List Char}
    {c : Char}
    (further : (of text).complete ++ c :: more <+: text) :
    (of ((of text).complete ++ c :: more)).cut ≠ .clean := by
  intro clean
  obtain ⟨rest, text_eq⟩ := further
  have kept := complete_prefix_of_append ((of text).complete ++ c :: more) rest
  rw [text_eq, complete_of_clean clean, text_of] at kept
  have length_le := kept.length_le
  rw [List.length_append, List.length_cons] at length_le
  omega

/-- A reading that ends in a string or comment knows where it was opened. -/
theorem openedAt_of_unterminated?
    {text : List Char}
    {mode : Mode}
    {position : Position}
    (leftOpen : (Reading.of text).unterminated? = some (mode, position)) :
    ∃ before c, position = .after before ∧ OpenedAt text mode before c := by
  have split := (Reading.of text).text_eq_complete_append
  rw [Reading.text_of] at split
  have opened : ∀ c body, (Reading.of text).cut.roles.map Prod.fst = c :: body ->
      (mode = .string ∧ c = quoteMark ∨ mode = .comment ∧ c = commentMark) ->
      OpenedAt text mode (Reading.of text).complete c := by
    intro c body cut_eq mark_eq
    rw [cut_eq] at split
    refine ⟨mark_eq, (Reading.of text).cut_of_complete, body, split, ?_⟩
    rintro more ⟨rest, rfl⟩
    refine Reading.cut_ne_clean_of_prefix ⟨rest, ?_⟩
    rw [List.append_assoc, List.cons_append, ← split]
  unfold Reading.unterminated? at leftOpen
  split at leftOpen
  · cases leftOpen
  · next body cut_eq =>
    cases leftOpen
    exact ⟨_, _, rfl, opened quoteMark _ (by rw [cut_eq]; rfl) (.inl ⟨rfl, rfl⟩)⟩
  · next body cut_eq =>
    cases leftOpen
    exact ⟨_, _, rfl, opened quoteMark _ (by rw [cut_eq]; rfl) (.inl ⟨rfl, rfl⟩)⟩
  · next body unmarked cut_eq =>
    cases leftOpen
    exact ⟨_, _, rfl, opened commentMark _ (by rw [cut_eq]; rfl) (.inr ⟨rfl, rfl⟩)⟩

/-! ## The lexer between two characters -/

namespace State

variable {width : Width} {state : State} {reading : Reading}

/-- Where a string or comment was opened is noted when it is, and kept. -/
theorem opened_of_read
    {after : State}
    {c : Char}
    (mode_eq : state.mode = reading.cut.mode)
    (passed : state.read width (.char c) = .ok after) :
    after.opened =
      if state.mode = .normal ∧ (reading.extend c).cut.mode ≠ .normal then state.here
      else state.opened := by
  rw [read, readChar_eq mode_eq c] at passed
  cases absorbed : state.absorb width c (reading.cut.role c) with
  | error error =>
    rw [absorbed] at passed
    cases passed
  | ok middle =>
    rw [absorbed] at passed
    cases passed
    obtain ⟨here_eq, mode_eq, opened_eq⟩ := absorb_frame absorbed
    simp only [turn, here_eq, mode_eq, opened_eq]

/-- A lexer that has come to the end of a reading and knows where the string or
comment was opened in which the reading ends. -/
structure Tracks (width : Width) (state : State) (reading : Reading) : Prop
    extends Follows width state reading where
  /-- What is still open was opened behind the complete pieces. -/
  opened_eq : reading.cut ≠ .clean -> state.opened = .after reading.complete

/-- At the start it does not matter where a string or comment was opened before. -/
theorem tracks_restart
    (width : Width)
    (earlier : State) :
    earlier.restart.Tracks width .empty where
  pending_eq := rfl
  program_eq := rfl
  pending_le literal pending := by cases pending
  here_eq := rfl
  mode_eq := rfl
  opened_eq leftOpen := absurd rfl leftOpen

namespace Tracks

theorem unterminated?_eq
    (tracks : state.Tracks width reading) :
    state.unterminated? = reading.unterminated? := by
  have opened_eq := tracks.opened_eq
  have mode_eq := tracks.mode_eq
  unfold State.unterminated? Reading.unterminated?
  cases cut_eq : reading.cut with
  | clean => simp [mode_eq, cut_eq, Cut.mode]
  | string body => simp [mode_eq, cut_eq, Cut.mode, opened_eq]
  | escape body => simp [mode_eq, cut_eq, Cut.mode, opened_eq]
  | comment body unmarked => simp [mode_eq, cut_eq, Cut.mode, opened_eq]

/-- A character that is no offense is passed. -/
theorem read
    (tracks : state.Tracks width reading)
    {c : Char}
    (fits : reading.offense? width (.char c) = none) :
    ∃ after, state.read width (.char c) = .ok after ∧ after.Tracks width (reading.extend c) := by
  obtain ⟨after, passed, follows⟩ := tracks.toFollows.read fits
  refine ⟨after, passed, follows, fun leftOpen => ?_⟩
  rw [opened_of_read tracks.mode_eq passed, Reading.complete_extend leftOpen]
  by_cases clean : reading.cut = .clean
  · have opens : state.mode = .normal ∧ (reading.extend c).cut.mode ≠ .normal :=
      ⟨tracks.mode_eq.trans (Cut.mode_eq_normal_iff.mpr clean),
        fun normal => leftOpen (Cut.mode_eq_normal_iff.mp normal)⟩
    rw [if_pos opens, tracks.here_eq, Reading.complete_of_clean clean]
  · have inside : ¬ (state.mode = .normal ∧ (reading.extend c).cut.mode ≠ .normal) :=
      fun opens => clean (Cut.mode_eq_normal_iff.mp (tracks.mode_eq.symm.trans opens.1))
    rw [if_neg inside, tracks.opened_eq clean]

/-- A text without an offense is passed, and the lexer goes on behind it. -/
theorem scan_append
    (tracks : state.Tracks width reading)
    {text : List Char}
    (clear : reading.Clear width text) :
    ∃ after : State, after.Tracks width (text.foldl Reading.extend reading) ∧
      ∀ later, state.scan width (text.map .char ++ later) = after.scan width later := by
  induction text generalizing state reading with
  | nil => exact ⟨state, tracks, fun later => rfl⟩
  | cons c text inductionHypothesis =>
    obtain ⟨fits, clear⟩ := clear
    obtain ⟨next, passed, tracks⟩ := tracks.read fits
    obtain ⟨after, tracks, scanned⟩ := inductionHypothesis tracks clear
    refine ⟨after, tracks, fun later => ?_⟩
    rw [List.map_cons, List.cons_append, State.scan, passed]
    exact scanned later

end Tracks
end State

/-! ## The lexer at its end -/

variable {width : Width} {text : List Char}

/-- A lexer that meets no offense gives the program of its text, and what is open at
the end is what the reading leaves open. -/
theorem tokenize_of_clear
    {lexer : Lexer}
    (source_eq : lexer.source = text.map .char)
    (clear : Reading.empty.Clear lexer.width text) :
    ∃ program, lexer.tokenize.2 = .ok program ∧
      program.map Instruction.entry = (Reading.of text).entries ∧
      lexer.tokenize.1.unterminated? = (Reading.of text).unterminated? := by
  obtain ⟨after, tracks, scanned⟩ :=
    (State.tracks_restart lexer.width lexer.state).scan_append clear
  obtain ⟨flushed, flushes, -, emitted⟩ := tracks.flush
  obtain ⟨here_eq, mode_eq, opened_eq⟩ := State.flush_frame flushes
  have final : lexer.state.restart.scan lexer.width lexer.source = (flushed, none) := by
    have to_end := scanned []
    rw [List.append_nil, ← source_eq] at to_end
    rw [to_end, State.scan, flushes]
  refine ⟨flushed.program, ?_, ?_, ?_⟩
  · rw [tokenize, final]
  · rw [emitted, ← entriesFrom_nil]
    rfl
  · rw [tokenize, final]
    refine Eq.trans ?_ tracks.unterminated?_eq
    simp only [unterminated?, State.unterminated?, mode_eq, opened_eq]

/-- A lexer that meets an offense stops there, with what the text in front leaves
open. -/
theorem tokenize_of_offense
    {lexer : Lexer}
    {glyph : Glyph}
    {later : List Glyph}
    {error : Error}
    (source_eq : lexer.source = text.map .char ++ glyph :: later)
    (clear : Reading.empty.Clear lexer.width text)
    (offense : (Reading.of text).offense? lexer.width glyph = some error) :
    lexer.tokenize.2 = .error error ∧
      lexer.tokenize.1.unterminated? = (Reading.of text).unterminated? := by
  obtain ⟨after, tracks, scanned⟩ :=
    (State.tracks_restart lexer.width lexer.state).scan_append clear
  have final : lexer.state.restart.scan lexer.width lexer.source =
      (after.breakOff glyph, some error) := by
    rw [source_eq, scanned, State.scan, tracks.toFollows.read_offense offense]
  constructor
  · rw [tokenize, final]
  · rw [tokenize, final]
    exact (after.breakOff_frame glyph).1.trans tracks.unterminated?_eq

/-! ## The glyph at fault -/

/-- Where an error lies and what stands there, for a lexer that has consumed some
text before the glyph at fault. -/
inductive Error.Blames
    (width : Width)
    (input : List UInt8)
    (consumed : List Char) : Error -> Prop
  /-- A stray byte lies where it stands. -/
  | strayByte {byte : UInt8} {position : Position}
      (there : position.PointsAt input consumed (.stray byte)) :
      Blames width input consumed (.strayByte byte position)
  /-- So does a character that the language does not know. -/
  | unknownSymbol {symbol : Char} {position : Position}
      (there : position.PointsAt input consumed (.char symbol))
      (unknown : (Reading.of consumed).cut.role symbol = .unknown) :
      Blames width input consumed (.unknownSymbol symbol position)
  /-- So does a letter beyond the width. -/
  | letter {c : Char} {overflow : Overflow} {position : Position}
      (there : position.PointsAt input consumed (.char c))
      (isLetter : (Reading.of consumed).cut.role c = .letter c)
      (value_eq : overflow.value.toInt = c.toNat)
      (beyond : width.largest < c.toNat) :
      Blames width input consumed (.literal overflow position)
  /-- A number beyond the width lies at its first digit, while the glyph at fault is
  the digit that makes it too large. -/
  | number {before later : List Char} {first last : Char} {overflow : Overflow}
      {position : Position}
      (there : position.PointsAt input before (.char first))
      (begins : BeginsNumber before first)
      (fault : (Position.after consumed).PointsAt input consumed (.char last))
      (split : consumed ++ [last] = before ++ first :: later)
      (unended : ∀ mark ∈ (Reading.of (consumed ++ [last])).marks.drop before.length,
        mark.isFlush = false)
      (beyond : width.largest <
        spelled ((Reading.of (consumed ++ [last])).marks.drop before.length)) :
      Blames width input consumed (.literal overflow position)

/-- The number that is being read behind a further digit. -/
theorem pending?_of_digit
    {c : Char}
    {digit : Nat}
    (isDigit : (Reading.of text).cut.role c = .digit digit) :
    (Reading.of (text ++ [c])).pending? =
      some
        { kind := .push,
          value := 10 * (Reading.of text).pendingValue + digit,
          position := (Reading.of text).pendingStart } := by
  have noFlush : Mark.isFlush ⟨.after text, .digit digit⟩ = false := rfl
  rw [Reading.pending?, Reading.of_concat, Reading.marks_extend, isDigit, Reading.text_of,
    sinceFlush_concat noFlush, number?_concat_digit rfl, Reading.pendingStart, Reading.text_of]
  rfl

/-- An offense lies where its error says. -/
theorem blames_of_offense?
    {input rest : List UInt8}
    {glyph : Glyph}
    {error : Error}
    (input_eq : input = Text.utf8 text ++ rest)
    (begins : glyph.Begins rest)
    (offense : (Reading.of text).offense? width glyph = some error) :
    error.Blames width input text := by
  have there : (Position.after text).PointsAt input text glyph := ⟨rfl, rest, input_eq, begins⟩
  cases glyph with
  | stray byte =>
    cases offense
    rw [Reading.text_of]
    exact .strayByte there
  | char c =>
    simp only [Reading.offense?, Reading.text_of] at offense
    cases role_eq : (Reading.of text).cut.role c with
    | space => simp [role_eq] at offense
    | operator kind => simp [role_eq] at offense
    | silent => simp [role_eq] at offense
    | unknown =>
      simp only [role_eq, Option.some.injEq] at offense
      rw [← offense]
      exact .unknownSymbol there role_eq
    | letter letter =>
      simp only [role_eq, Option.ite_none_left_eq_some, Option.some.injEq] at offense
      obtain ⟨beyond, rfl⟩ := offense
      obtain rfl := Cut.role_eq_letter role_eq
      exact .letter there role_eq (toInt_codePoint letter) (by omega)
    | digit digit =>
      simp only [role_eq, Option.ite_none_left_eq_some, Option.some.injEq] at offense
      obtain ⟨beyond, rfl⟩ := offense
      obtain ⟨before, first, later, split, beginsNumber, entry_eq, unended⟩ :=
        exists_beginsNumber (pending?_of_digit role_eq)
      obtain ⟨-, value_eq, position_eq⟩ := Entry.mk.inj entry_eq
      obtain ⟨rest, rfl⟩ := begins
      have spelled_out : input = Text.utf8 (before ++ first :: later) ++ rest := by
        rw [← split, input_eq]
        simp [Text.utf8]
      rw [position_eq]
      refine .number ?_ beginsNumber there split unended ?_
      · rw [spelled_out]
        exact Position.pointsAt_after before first later rest
      · rw [← value_eq]
        omega

/-- The error of some bytes lies in them where it says. -/
theorem exists_blames
    {input : List UInt8}
    {error : Error}
    (refused : Program.ofSource width (Glyph.decode input) = .error error) :
    ∃ consumed, error.Blames width input consumed := by
  obtain ⟨consumed, glyph, later, decoded, -, offense⟩ :=
    Program.ofSource_eq_error_iff.mp refused
  obtain ⟨rest, input_eq, decoded_rest⟩ := Glyph.decode_eq_append_iff.mp decoded
  exact ⟨consumed, blames_of_offense? input_eq (Glyph.begins_of_decode_eq_cons decoded_rest).1
    offense⟩

/-- What is left open was opened at the place that is reported. -/
theorem pointsAt_of_unterminated?
    {input rest : List UInt8}
    (input_eq : input = Text.utf8 text ++ rest)
    {mode : Mode}
    {position : Position}
    (leftOpen : (Reading.of text).unterminated? = some (mode, position)) :
    ∃ before c, position.PointsAt input before (.char c) ∧ OpenedAt text mode before c := by
  obtain ⟨before, c, rfl, openedAt⟩ := openedAt_of_unterminated? leftOpen
  obtain ⟨body, split, -⟩ := openedAt.unclosed
  refine ⟨before, c, ?_, openedAt⟩
  rw [input_eq, split]
  exact Position.pointsAt_after before c body rest

/-- Every place that a lexer reports is the place of the glyph that the report is
about, whatever the bytes and the width, and whatever the lexer has read before.
With a program come the places of its instructions, with an error the place of what
is at fault.  In both cases a string or comment is reported as open exactly if the
consumed text ends inside one, with the place of the mark that opened it. -/
theorem tokenize_reports_places
    (lexer : Lexer)
    (bytes : Int)
    (input : List UInt8)
    (source_eq : lexer.source = Glyph.decode input) :
    ∃ consumed : List Char,
      (∀ program, (lexer.withWidth (.ofInt bytes)).tokenize.2 = .ok program ->
        input = Text.utf8 consumed ∧
        ∀ instruction ∈ program, ∃ before c later, consumed = before ++ c :: later ∧
          instruction.position.PointsAt input before (.char c) ∧
          Origin before c later instruction) ∧
      (∀ error, (lexer.withWidth (.ofInt bytes)).tokenize.2 = .error error ->
        error.Blames (.ofInt bytes) input consumed) ∧
      ((lexer.withWidth (.ofInt bytes)).tokenize.1.unterminated?.isSome ↔
        (Reading.of consumed).cut ≠ .clean) ∧
      ∀ mode position,
        (lexer.withWidth (.ofInt bytes)).tokenize.1.unterminated? = some (mode, position) ->
        ∃ before c, position.PointsAt input before (.char c) ∧
          OpenedAt consumed mode before c := by
  have source_eq : (lexer.withWidth (.ofInt bytes)).source = Glyph.decode input := source_eq
  rcases Reading.clear_or_offense (.ofInt bytes) .empty (Glyph.decode input) with
    ⟨text, decoded, clear⟩ | ⟨text, glyph, later, error, decoded, clear, offense⟩
  · obtain ⟨program, accepted, entries_eq, open_eq⟩ :=
      tokenize_of_clear (source_eq.trans decoded) clear
    have input_eq : input = Text.utf8 text := Glyph.decode_eq_map_iff.mp decoded
    refine ⟨text, ?_, ?_, ?_, ?_⟩
    · intro other accepted'
      obtain rfl : program = other := by simpa [accepted] using accepted'
      refine ⟨input_eq, fun instruction inProgram => ?_⟩
      have found : instruction.entry ∈ (Reading.of text).entries := by
        rw [← entries_eq]
        exact List.mem_map_of_mem inProgram
      obtain ⟨before, c, later, split, position_eq, origin⟩ := exists_origin found
      refine ⟨before, c, later, split, ?_, origin⟩
      rw [position_eq, input_eq, split, ← List.append_nil (Text.utf8 (before ++ c :: later))]
      exact Position.pointsAt_after before c later []
    · intro error refused
      rw [accepted] at refused
      cases refused
    · rw [open_eq]
      exact Reading.isSome_unterminated?_iff
    · intro mode position leftOpen
      rw [open_eq] at leftOpen
      exact pointsAt_of_unterminated? (input_eq.trans (List.append_nil _).symm) leftOpen
  · obtain ⟨refused, open_eq⟩ := tokenize_of_offense (source_eq.trans decoded) clear offense
    obtain ⟨rest, input_eq, decoded_rest⟩ := Glyph.decode_eq_append_iff.mp decoded
    have begins : glyph.Begins rest := (Glyph.begins_of_decode_eq_cons decoded_rest).1
    refine ⟨text, ?_, ?_, ?_, ?_⟩
    · intro program accepted
      rw [refused] at accepted
      cases accepted
    · intro other refused'
      obtain rfl : error = other := by simpa [refused] using refused'
      exact blames_of_offense? input_eq begins offense
    · rw [open_eq]
      exact Reading.isSome_unterminated?_iff
    · intro mode position leftOpen
      rw [open_eq] at leftOpen
      exact pointsAt_of_unterminated? input_eq leftOpen

/-- A used lexer reads a string with a character of two bytes and a newline, then a
number and a comment that is not closed. -/
theorem tokenize_reports_places_across_lines :
    ∃ lexer : Lexer, lexer.source = Glyph.decode [0x22, 0xc3, 0xa9, 0x0a, 0x22, 0x37, 0x23] ∧
      (lexer.withWidth (.ofInt 1)).tokenize.2 = .ok [
        { kind := .push, value := 233, position := { offset := 1, line := 1, column := 2 } },
        { kind := .push, value := 10, position := { offset := 3, line := 1, column := 3 } },
        { kind := .push, value := 7, position := { offset := 5, line := 2, column := 2 } }] ∧
      (lexer.withWidth (.ofInt 1)).tokenize.1.unterminated? =
        some (.comment, { offset := 6, line := 2, column := 3 }) ∧
      ∃ consumed before c, OpenedAt consumed .comment before c ∧
        Position.PointsAt { offset := 6, line := 2, column := 3 }
          [0x22, 0xc3, 0xa9, 0x0a, 0x22, 0x37, 0x23] before (.char c) := by
  have encoded : [0x22, 0xc3, 0xa9, 0x0a, 0x22, 0x37, 0x23] =
      Text.utf8 ['"', 'é', '\n', '"', '7', '#'] := by
    decide
  let lexer : Lexer :=
    { source := Glyph.decode [0x22, 0xc3, 0xa9, 0x0a, 0x22, 0x37, 0x23],
      width := .standard,
      state := { State.initial with
        mode := .string,
        opened := { offset := 8, line := 1, column := 9 },
        reading := true,
        number := 5,
        numberAt := .start } }
  have leftOpen : (lexer.withWidth (.ofInt 1)).tokenize.1.unterminated? =
      some (.comment, { offset := 6, line := 2, column := 3 }) := by
    simp only [lexer]
    rw [encoded, Glyph.decode_utf8]
    rfl
  refine ⟨lexer, rfl, ?_, leftOpen, ?_⟩
  · simp only [lexer]
    rw [encoded, Glyph.decode_utf8]
    rfl
  · obtain ⟨consumed, -, -, -, opened⟩ := tokenize_reports_places lexer 1 _ rfl
    obtain ⟨before, c, there, openedAt⟩ := opened _ _ leftOpen
    exact ⟨consumed, before, c, openedAt, there⟩

end Lexer
end GlyphStack
