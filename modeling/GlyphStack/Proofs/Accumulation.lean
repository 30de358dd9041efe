import GlyphStack.Proofs.Printing

/-!
# Numbers digit by digit

A number is read with one word for the value of the digits so far.  Strings and
comments among the digits leave that word alone.  As long as the exact number stays
within the width, the word has its value; the first digit that takes the number beyond
the width is an error, whatever follows.  Since a further digit never makes a number
smaller, this is the same as to compare the whole number with the largest literal.

Two checks are made for every digit, and a third one where the number ends.  The first
can fail only where the width has no bound, and the third never fails.
-/

namespace GlyphStack
namespace Lexer

/-! ## Decimal numbers -/

theorem decimal_concat
    (digits : List Nat)
    (digit : Nat) :
    decimal (digits ++ [digit]) = 10 * decimal digits + digit := by
  simp [decimal]

/-- More digits never make a number smaller. -/
theorem decimal_mono
    {initial digits : List Nat}
    (begins : initial <+: digits) :
    decimal initial ≤ decimal digits := by
  obtain ⟨rest, rfl⟩ := begins
  induction rest using List.reverseRecOn with
  | nil => simp
  | append_singleton rest digit inductionHypothesis =>
    rw [← List.append_assoc, decimal_concat]
    omega

theorem digitValue_lt
    {c : Char}
    (isDigit : c.isDigit = true) :
    digitValue c < 10 :=
  Role.digit_lt_of_ofBare (Role.ofBare_digit isDigit).1

/-! ## The text of a number -/

/-- The character that a letter stands for. -/
def Letter.char : Letter -> Char
  | .plain c _ => c
  | .escaped c => c

namespace Piece

/-- Whether a number goes on with a piece: a digit, a string whose letters the width
allows, or a comment. -/
def Continues (width : Width) : Piece -> Prop
  | .bare c _ => c.isDigit = true
  | .string body => ∀ letter ∈ body, (letter.char.toNat : Int) ≤ width.largest
  | .comment _ _ => True

instance (width : Width) : DecidablePred (Continues width)
  | .bare c _ => inferInstanceAs (Decidable (c.isDigit = true))
  | .string body =>
    inferInstanceAs (Decidable (∀ letter ∈ body, (letter.char.toNat : Int) ≤ width.largest))
  | .comment _ _ => inferInstanceAs (Decidable True)

/-- The value of a piece that is a digit. -/
def digit? : Piece -> Option Nat
  | .bare c _ => some (digitValue c)
  | _ => none

/-- The glyphs of a piece. -/
def glyphs (piece : Piece) : List Glyph :=
  piece.roles.map fun pair => .char pair.1

end Piece

/-- The digits among some pieces. -/
def digitsOf (pieces : List Piece) : List Nat :=
  pieces.filterMap Piece.digit?

/-- The glyphs of some pieces. -/
def glyphsOf (pieces : List Piece) : List Glyph :=
  pieces.flatMap Piece.glyphs

/-- The text of one number, from its first digit on. -/
structure Numeral (width : Width) where
  /-- The digits, and the strings and comments among them. -/
  pieces : List Piece
  /-- Nothing ends the number. -/
  continues : ∀ piece ∈ pieces, piece.Continues width
  /-- The first piece is a digit. -/
  begins : (pieces.head?.bind Piece.digit?).isSome = true

theorem digitsOf_concat
    (pieces : List Piece)
    (piece : Piece) :
    digitsOf (pieces ++ [piece]) = digitsOf pieces ++ piece.digit?.toList := by
  cases digit : piece.digit? <;> simp [digitsOf, digit]

theorem glyphsOf_concat
    (pieces : List Piece)
    (piece : Piece) :
    glyphsOf (pieces ++ [piece]) = glyphsOf pieces ++ piece.glyphs := by
  simp [glyphsOf]

/-- Some of the pieces of a number, from the first on, have a digit among them. -/
theorem Numeral.digitsOf_ne_nil
    {width : Width}
    (numeral : Numeral width)
    {read : List Piece}
    (initial : read <+: numeral.pieces)
    (nonempty : read ≠ []) :
    digitsOf read ≠ [] := by
  obtain ⟨first, others, rfl⟩ := List.exists_cons_of_ne_nil nonempty
  obtain ⟨unread, split⟩ := initial
  have begins := numeral.begins
  simp only [← split, List.cons_append, List.head?_cons, Option.bind_some] at begins
  obtain ⟨digit, isDigit⟩ := Option.isSome_iff_exists.mp begins
  simp [digitsOf, isDigit]

/-! ## Reading a part of a text -/

namespace State

/-- Some glyphs lead from one state to another, whatever follows them. -/
def Passes (width : Width) (state : State) (glyphs : List Glyph) (after : State) : Prop :=
  ∀ rest, state.scan width (glyphs ++ rest) = after.scan width rest

/-- Some glyphs lead to an error, whatever follows them. -/
def Stops (width : Width) (state : State) (glyphs : List Glyph) (error : Error) : Prop :=
  ∀ rest, (state.scan width (glyphs ++ rest)).2 = some error

section Parts

variable {width : Width} {state middle after : State} {glyphs more : List Glyph}

theorem passes_nil (width : Width) (state : State) : state.Passes width [] state :=
  fun _ => rfl

theorem Passes.append
    (first : state.Passes width glyphs middle)
    (second : middle.Passes width more after) :
    state.Passes width (glyphs ++ more) after := by
  intro rest
  rw [List.append_assoc, first, second]

theorem Passes.stops
    {error : Error}
    (first : state.Passes width glyphs middle)
    (second : middle.Stops width more error) :
    state.Stops width (glyphs ++ more) error := by
  intro rest
  rw [List.append_assoc, first]
  exact second rest

theorem Stops.append
    {error : Error}
    (stops : state.Stops width glyphs error)
    (more : List Glyph) :
    state.Stops width (glyphs ++ more) error := by
  intro rest
  rw [List.append_assoc]
  exact stops (more ++ rest)

theorem passes_char
    {c : Char}
    (read : state.readChar width c = .ok after) :
    state.Passes width [.char c]
      { after with here := state.here.advance (Glyph.char c).size (Glyph.char c).isNewline } := by
  intro rest
  rw [List.singleton_append, scan, State.read, read]
  rfl

theorem stops_char
    {c : Char}
    {error : Error}
    (read : state.readChar width c = .error error) :
    state.Stops width [.char c] error := by
  intro rest
  rw [List.singleton_append, scan, State.read, read]
  rfl

end Parts

/-! ## Strings and comments -/

/-- Some glyphs are read up to a mode and leave the number as it is. -/
def LeavesNumber (width : Width) (state : State) (glyphs : List Glyph) (mode : Mode) : Prop :=
  ∃ after, state.Passes width glyphs after ∧ after.mode = mode ∧ after.pending = state.pending

section Asides

variable {width : Width} {state : State}

theorem leavesNumber_nil (width : Width) (state : State) :
    state.LeavesNumber width [] state.mode :=
  ⟨state, passes_nil width state, rfl, rfl⟩

theorem leavesNumber_char
    {after : State}
    {c : Char}
    {mode : Mode}
    (read : state.readChar width c = .ok after)
    (mode_eq : after.mode = mode)
    (untouched : after.pending = state.pending) :
    state.LeavesNumber width [.char c] mode :=
  ⟨_, passes_char read, mode_eq, untouched⟩

theorem LeavesNumber.append
    {glyphs more : List Glyph}
    {between mode : Mode}
    (first : state.LeavesNumber width glyphs between)
    (second : ∀ middle : State, middle.mode = between -> middle.LeavesNumber width more mode) :
    state.LeavesNumber width (glyphs ++ more) mode := by
  obtain ⟨middle, passes, middle_mode, untouched⟩ := first
  obtain ⟨after, passes', after_mode, untouched'⟩ := second middle middle_mode
  exact ⟨after, passes.append passes', after_mode, untouched'.trans untouched⟩

theorem leavesNumber_letter
    (inString : state.mode = .string)
    {letter : Letter}
    (within : (letter.char.toNat : Int) ≤ width.largest) :
    state.LeavesNumber width (letter.roles.map fun pair => .char pair.1) .string := by
  cases letter with
  | plain c ordinary =>
    have read : state.readChar width c = .ok (state.emit
        { kind := .push, value := Int64.ofNat c.toNat, position := state.here }) := by
      simp only [readChar, inString, readString, ordinary.1, ordinary.2, if_false]
      exact emitChar_of_le within
    exact leavesNumber_char read inString rfl
  | escaped c =>
    have escapes : state.readChar width escapeMark = .ok { state with mode := .escape } := by
      simp [readChar, inString, readString]
    have second : ∀ middle : State, middle.mode = .escape ->
        middle.LeavesNumber width [.char c] .string := by
      intro middle inEscape
      have read : middle.readChar width c = .ok ({ middle with mode := .string }.emit
          { kind := .push, value := Int64.ofNat c.toNat, position := middle.here }) := by
        simp only [readChar, inEscape]
        exact emitChar_of_le within
      exact leavesNumber_char read rfl rfl
    exact (leavesNumber_char escapes rfl rfl).append second

theorem leavesNumber_letters
    (inString : state.mode = .string)
    {body : List Letter}
    (within : ∀ letter ∈ body, (letter.char.toNat : Int) ≤ width.largest) :
    state.LeavesNumber width ((body.flatMap Letter.roles).map fun pair => .char pair.1)
      .string := by
  induction body generalizing state with
  | nil =>
    rw [← inString]
    exact leavesNumber_nil width state
  | cons letter body inductionHypothesis =>
    rw [List.flatMap_cons, List.map_append]
    apply (leavesNumber_letter inString (within letter (.head body))).append
    intro middle inString'
    exact inductionHypothesis inString' fun other found => within other (.tail letter found)

theorem leavesNumber_silently
    (inComment : state.mode = .comment)
    {body : List Char}
    (unmarked : commentMark ∉ body) :
    state.LeavesNumber width ((silently body).map fun pair => .char pair.1) .comment := by
  induction body generalizing state with
  | nil =>
    rw [← inComment]
    exact leavesNumber_nil width state
  | cons c body inductionHypothesis =>
    rw [List.mem_cons, not_or] at unmarked
    have read : state.readChar width c = .ok state := by
      simp [readChar, inComment, Ne.symm unmarked.1]
    have first := leavesNumber_char read inComment rfl
    exact first.append fun middle inComment' => inductionHypothesis inComment' unmarked.2

/-- Strings and comments are read past the number. -/
theorem leavesNumber_piece
    (outside : state.mode = .normal)
    {piece : Piece}
    (continues : piece.Continues width)
    (noDigit : piece.digit? = none) :
    state.LeavesNumber width piece.glyphs .normal := by
  cases piece with
  | bare c outside => cases noDigit
  | string body =>
    have opens : state.readChar width quoteMark =
        .ok { state with mode := .string, opened := state.here } := by
      simp [readChar, outside, readNormal, Text.isSpace, quoteMark]
    have closes : ∀ middle : State, middle.mode = .string ->
        middle.LeavesNumber width [.char quoteMark] .normal := by
      intro middle inString
      have read : middle.readChar width quoteMark = .ok { middle with mode := .normal } := by
        simp [readChar, inString, readString, quoteMark, escapeMark]
      exact leavesNumber_char read rfl rfl
    have whole := ((leavesNumber_char opens rfl rfl).append fun middle inString =>
      leavesNumber_letters inString continues).append closes
    simpa [Piece.glyphs, Piece.roles] using whole
  | comment body unmarked =>
    have opens : state.readChar width commentMark =
        .ok { state with mode := .comment, opened := state.here } := by
      simp [readChar, outside, readNormal, Text.isSpace, quoteMark, commentMark]
    have closes : ∀ middle : State, middle.mode = .comment ->
        middle.LeavesNumber width [.char commentMark] .normal := by
      intro middle inComment
      have read : middle.readChar width commentMark = .ok { middle with mode := .normal } := by
        simp [readChar, inComment]
      exact leavesNumber_char read rfl rfl
    have whole := ((leavesNumber_char opens rfl rfl).append fun middle inComment =>
      leavesNumber_silently inComment unmarked).append closes
    simpa [Piece.glyphs, Piece.roles] using whole

end Asides

/-! ## Digits -/

/-- Some digits have been read into one number, which begins at the given place.  Before
the first digit this is zero. -/
structure Accumulates
    (width : Width)
    (state : State)
    (start : Position)
    (digits : List Nat) : Prop where
  /-- The next character is outside strings and comments. -/
  mode_eq : state.mode = .normal
  /-- The value is exact. -/
  value_eq : state.literal.value.toInt = decimal digits
  /-- The number begins at its first digit. -/
  start_eq : state.literal.start = start
  /-- The number is within the width. -/
  within : (decimal digits : Int) ≤ width.largest
  /-- With a digit, there is a number. -/
  pending_eq : digits ≠ [] -> state.pending = some state.literal

theorem accumulates_nil
    (width : Width)
    {state : State}
    (outside : state.mode = .normal)
    (idle : state.pending = none) :
    state.Accumulates width state.here [] where
  mode_eq := outside
  value_eq := by
    simp [literal, idle, decimal]
  start_eq := by
    simp [literal, idle]
  within := by
    simpa [decimal] using width.largest_nonneg
  pending_eq nonempty := absurd rfl nonempty

namespace Accumulates

variable {width : Width} {state : State} {start : Position} {digits : List Nat} {c : Char}

theorem readChar_digit
    (accumulates : state.Accumulates width start digits)
    (isDigit : c.isDigit = true) :
    state.readChar width c = state.readDigit width (Int64.ofNat (digitValue c)) := by
  obtain ⟨role_eq, notQuote, notComment⟩ := Role.ofBare_digit isDigit
  simp only [readChar, accumulates.mode_eq]
  rw [readNormal_bare notQuote notComment, role_eq]
  rfl

/-- A digit is appended as long as the number stays within the width. -/
theorem digit
    (accumulates : state.Accumulates width start digits)
    (isDigit : c.isDigit = true)
    (within : (decimal (digits ++ [digitValue c]) : Int) ≤ width.largest) :
    ∃ after, state.Passes width [.char c] after ∧
      after.Accumulates width start (digits ++ [digitValue c]) := by
  have value_eq := accumulates.value_eq
  have decimal_eq := decimal_concat digits (digitValue c)
  obtain ⟨value, appended, read⟩ :=
    readDigit_of_le (show 0 ≤ state.literal.value.toInt by omega) (digitValue_lt isDigit)
      (show 10 * state.literal.value.toInt + digitValue c ≤ width.largest by omega)
  rw [← accumulates.readChar_digit isDigit] at read
  refine ⟨_, passes_char read, accumulates.mode_eq, ?_, accumulates.start_eq, within, fun _ => rfl⟩
  change value.toInt = _
  omega

/-- The first digit beyond the width is an error where the number begins. -/
theorem stops_digit
    (accumulates : state.Accumulates width start digits)
    (isDigit : c.isDigit = true)
    (beyond : width.largest < decimal (digits ++ [digitValue c])) :
    state.Stops width [.char c]
      (.literal
        { value := Int64.ofInt (reported width (decimal digits) (digitValue c)),
          bytes := width.bytes }
        start) := by
  have value_eq := accumulates.value_eq
  have within := accumulates.within
  have decimal_eq := decimal_concat digits (digitValue c)
  have read := readDigit_of_lt (show 0 ≤ state.literal.value.toInt by omega) (by omega)
    (digitValue_lt isDigit)
    (show width.largest < 10 * state.literal.value.toInt + digitValue c by omega)
  rw [← accumulates.readChar_digit isDigit, value_eq, accumulates.start_eq] at read
  exact stops_char read

/-- Behind the first digit, strings and comments change nothing. -/
theorem aside
    (accumulates : state.Accumulates width start digits)
    (begun : digits ≠ [])
    {piece : Piece}
    (continues : piece.Continues width)
    (noDigit : piece.digit? = none) :
    ∃ after, state.Passes width piece.glyphs after ∧ after.Accumulates width start digits := by
  obtain ⟨after, passes, outside, untouched⟩ :=
    leavesNumber_piece accumulates.mode_eq continues noDigit
  have literal_eq : after.literal = state.literal := by
    rw [literal, untouched, accumulates.pending_eq begun]
    rfl
  refine ⟨after, passes, outside, ?_, ?_, accumulates.within, fun _ => ?_⟩
  · rw [literal_eq, accumulates.value_eq]
  · rw [literal_eq, accumulates.start_eq]
  · rw [literal_eq, untouched, accumulates.pending_eq begun]

/-- The check against 64 bits can fail only where the width has no bound. -/
theorem wide_of_guard
    (accumulates : state.Accumulates width start digits)
    {digit : Nat}
    (isDigit : digit < 10)
    (guarded : state.literal.value > (Int64.maxValue - Int64.ofNat digit) / 10) :
    8 ≤ width.bytes := by
  rw [overflow_check_iff isDigit, accumulates.value_eq] at guarded
  by_contra narrow
  have small := Width.largest_le_of_lt (Nat.not_le.mp narrow)
  have within := accumulates.within
  omega

/-- The check at the end of the number never fails. -/
theorem flush
    (accumulates : state.Accumulates width start digits)
    (begun : digits ≠ []) :
    state.flush width =
      .ok { state.emit { kind := .push, value := state.literal.value, position := start } with
        reading := false, number := 0 } := by
  have value_eq := accumulates.value_eq
  have within := accumulates.within
  rw [flush_of_le (accumulates.pending_eq begun) (by omega) (by omega), accumulates.start_eq]

end Accumulates

end State

/-! ## Whole numbers -/

theorem exists_first_failure
    {α : Type}
    (holds : List α -> Prop)
    (start : holds [])
    {list : List α}
    (fails : ¬ holds list) :
    ∃ before element behind, list = before ++ element :: behind ∧
      holds before ∧ ¬ holds (before ++ [element]) := by
  induction list using List.reverseRecOn with
  | nil => exact absurd start fails
  | append_singleton list last inductionHypothesis =>
    by_cases held : holds list
    · exact ⟨list, last, [], rfl, held, fails⟩
    · obtain ⟨before, element, behind, rfl, held', fails'⟩ := inductionHypothesis held
      exact ⟨before, element, behind ++ [last], by simp, held', fails'⟩

/-- Among the digits of a number, the parts within the width are those that end before
the first digit beyond it. -/
theorem decimal_le_iff_of_first
    {before digits : List Nat}
    {digit : Nat}
    {largest : Int}
    (initial : before ++ [digit] <+: digits)
    (within : (decimal before : Int) ≤ largest)
    (beyond : largest < decimal (before ++ [digit]))
    {other : List Nat}
    (otherInitial : other <+: digits) :
    (decimal other : Int) ≤ largest ↔ other <+: before := by
  constructor
  · intro otherWithin
    rcases List.prefix_or_prefix_of_prefix otherInitial initial with shorter | longer
    · rcases List.prefix_concat_iff.mp shorter with rfl | shorter'
      · omega
      · exact shorter'
    · have larger := decimal_mono longer
      omega
  · intro shorter
    have smaller := decimal_mono shorter
    omega

namespace Numeral

variable {width : Width} {state : State}

/-- As long as the number stays within the width, it is read exactly. -/
theorem exists_accumulates
    (numeral : Numeral width)
    (outside : state.mode = .normal)
    (idle : state.pending = none)
    {read : List Piece}
    (initial : read <+: numeral.pieces)
    (within : (decimal (digitsOf read) : Int) ≤ width.largest) :
    ∃ after, state.Passes width (glyphsOf read) after ∧
      after.Accumulates width state.here (digitsOf read) := by
  induction read using List.reverseRecOn with
  | nil =>
    exact ⟨state, State.passes_nil width state, State.accumulates_nil width outside idle⟩
  | append_singleton read piece inductionHypothesis =>
    have continues := numeral.continues piece (initial.subset (by simp))
    have nonempty := numeral.digitsOf_ne_nil initial (by simp)
    rw [digitsOf_concat] at within nonempty ⊢
    rw [glyphsOf_concat]
    have smaller := decimal_mono (List.prefix_append (digitsOf read) piece.digit?.toList)
    obtain ⟨middle, passes, accumulates⟩ :=
      inductionHypothesis ((List.prefix_append read [piece]).trans initial) (by omega)
    cases piece with
    | bare c outside =>
      obtain ⟨after, passes', accumulates'⟩ := accumulates.digit continues within
      exact ⟨after, passes.append passes', accumulates'⟩
    | string _ | comment _ _ =>
      simp only [Piece.digit?, Option.toList_none, List.append_nil] at nonempty ⊢
      obtain ⟨after, passes', accumulates'⟩ := accumulates.aside nonempty continues rfl
      exact ⟨after, passes.append passes', accumulates'⟩

/-- A number beyond the width is an error at its first digit, as soon as the digits so
far are beyond it. -/
theorem exists_stops
    (numeral : Numeral width)
    (outside : state.mode = .normal)
    (idle : state.pending = none)
    (beyond : width.largest < decimal (digitsOf numeral.pieces)) :
    ∃ before digit, before ++ [digit] <+: digitsOf numeral.pieces ∧ digit < 10 ∧
      (decimal before : Int) ≤ width.largest ∧
      width.largest < decimal (before ++ [digit]) ∧
      state.Stops width (glyphsOf numeral.pieces)
        (.literal
          { value := Int64.ofInt (State.reported width (decimal before) digit),
            bytes := width.bytes }
          state.here) := by
  have start : (decimal (digitsOf []) : Int) ≤ width.largest := width.largest_nonneg
  obtain ⟨read, piece, unread, split, within, fails⟩ :=
    exists_first_failure (fun read => (decimal (digitsOf read) : Int) ≤ width.largest)
      start (Int.not_le.mpr beyond)
  have initial : read ++ [piece] <+: numeral.pieces := ⟨unread, by simp [split]⟩
  have continues := numeral.continues piece (initial.subset (by simp))
  obtain ⟨middle, passes, accumulates⟩ := numeral.exists_accumulates outside idle
    ((List.prefix_append read [piece]).trans initial) within
  rw [digitsOf_concat] at fails
  cases piece with
  | bare c outside =>
    have stops := passes.stops (accumulates.stops_digit continues (Int.not_le.mp fails))
    refine ⟨digitsOf read, digitValue c, ?_, digitValue_lt continues, within,
      Int.not_le.mp fails, ?_⟩
    · exact ⟨digitsOf unread, by simp [split, digitsOf, Piece.digit?]⟩
    · rw [split]
      simpa [glyphsOf, Piece.glyphs, Piece.roles] using stops.append (glyphsOf unread)
  | string _ | comment _ _ => exact absurd (by simpa [Piece.digit?] using within) fails

/-- To stop at the first digit beyond the width is to refuse the number as a whole. -/
theorem scan_eq_none_iff
    (numeral : Numeral width)
    (outside : state.mode = .normal)
    (idle : state.pending = none) :
    (state.scan width (glyphsOf numeral.pieces)).2 = none ↔
      (decimal (digitsOf numeral.pieces) : Int) ≤ width.largest := by
  constructor
  · intro accepted
    by_contra beyond
    obtain ⟨before, digit, -, -, -, -, stops⟩ :=
      numeral.exists_stops outside idle (Int.not_le.mp beyond)
    have refused := stops []
    rw [List.append_nil, accepted] at refused
    cases refused
  · intro within
    obtain ⟨after, passes, accumulates⟩ :=
      numeral.exists_accumulates outside idle List.prefix_rfl within
    have nonempty : numeral.pieces ≠ [] := by
      intro isNil
      have begins := numeral.begins
      simp [isNil] at begins
    have flushes := accumulates.flush (numeral.digitsOf_ne_nil List.prefix_rfl nonempty)
    have read := passes []
    rw [List.append_nil] at read
    rw [read, State.scan, flushes]

/-- What is reported of a number beyond the width is a word. -/
theorem toInt_reported
    {before : List Nat}
    {digit : Nat}
    (isDigit : digit < 10)
    (within : (decimal before : Int) ≤ width.largest) :
    (Int64.ofInt (State.reported width (decimal before) digit)).toInt =
      if width.bytes < 8 then (decimal (before ++ [digit]) : Int) else decimal before := by
  have small := width.largest_lt
  rw [State.reported]
  by_cases narrow : width.bytes < 8
  · have smaller := Width.largest_le_of_lt narrow
    rw [if_pos narrow, if_pos narrow, Int64.toInt_ofInt_of_le (by omega) (by omega), decimal_concat]
    simp
  · rw [if_neg narrow, if_neg narrow, Int64.toInt_ofInt_of_le (by omega) (by omega)]

end Numeral

/-- A number is read exactly, however long it is and whatever strings and comments
stand among its digits.  After each of its pieces that is within the width, the word for
it has the value of the digits so far; the check against 64 bits can fail only where
the width has no bound; and the number can be turned into a push.  So the number is
accepted exactly if its value is at most the largest literal.  Otherwise the error
stands at the first digit, and carries the value of the shortest part of the digits that
is beyond the bound, or without a bound, of the longest part that fits 64 bits. -/
theorem digits_accumulate_exactly
    (width : Width)
    (numeral : Numeral width)
    (state : State)
    (outside : state.mode = .normal)
    (idle : state.pending = none) :
    (∀ read, read <+: numeral.pieces ->
      (decimal (digitsOf read) : Int) ≤ width.largest ->
      ∃ after, state.Passes width (glyphsOf read) after ∧
        after.literal.value.toInt = decimal (digitsOf read) ∧
        (∀ digit < 10, after.literal.value > (Int64.maxValue - Int64.ofNat digit) / 10 ->
          8 ≤ width.bytes) ∧
        (read ≠ [] ->
          after.flush width =
            .ok { after.emit
                { kind := .push, value := after.literal.value, position := state.here } with
              reading := false, number := 0 })) ∧
    ((state.scan width (glyphsOf numeral.pieces)).2 = none ↔
      (decimal (digitsOf numeral.pieces) : Int) ≤ width.largest) ∧
    (width.largest < decimal (digitsOf numeral.pieces) ->
      ∃ (before : List Nat) (digit : Nat) (value : Int64),
        before ++ [digit] <+: digitsOf numeral.pieces ∧
        (∀ other, other <+: digitsOf numeral.pieces ->
          ((decimal other : Int) ≤ width.largest ↔ other <+: before)) ∧
        value.toInt =
          (if width.bytes < 8 then (decimal (before ++ [digit]) : Int) else decimal before) ∧
        ∀ rest, (state.scan width (glyphsOf numeral.pieces ++ rest)).2 =
          some (.literal { value := value, bytes := width.bytes } state.here)) := by
  refine ⟨?_, ?_, ?_⟩
  · intro read initial within
    obtain ⟨after, passes, accumulates⟩ :=
      numeral.exists_accumulates outside idle initial within
    refine ⟨after, passes, accumulates.value_eq, ?_, ?_⟩
    · intro digit isDigit guarded
      exact accumulates.wide_of_guard isDigit guarded
    · intro nonempty
      exact accumulates.flush (numeral.digitsOf_ne_nil initial nonempty)
  · exact numeral.scan_eq_none_iff outside idle
  · intro beyond
    obtain ⟨before, digit, initial, isDigit, within, first, stops⟩ :=
      numeral.exists_stops outside idle beyond
    refine ⟨before, digit, _, initial, ?_, Numeral.toInt_reported isDigit within, stops⟩
    intro other otherInitial
    exact decimal_le_iff_of_first initial within first otherInitial

/-- The digits of two hundred and fifty-seven, with a zero before them and a string
among them. -/
def aroundString : Numeral (.ofInt 1) where
  pieces :=
    [.bare '0' (by decide), .bare '2' (by decide), .string [.plain 'a' (by decide)],
      .bare '5' (by decide), .bare '7' (by decide)]
  continues := by decide
  begins := rfl

/-- One byte allows the first digits of this number, but not all of them. -/
theorem digits_accumulate_exactly_aroundString :
    (∃ after, State.initial.Passes (.ofInt 1) (glyphsOf (aroundString.pieces.take 4)) after ∧
      after.literal.value.toInt = 25) ∧
    (State.initial.scan (.ofInt 1) (glyphsOf aroundString.pieces)).2 =
      some (.literal { value := 257, bytes := 1 } .start) := by
  obtain ⟨reads, -, refuses⟩ :=
    digits_accumulate_exactly (.ofInt 1) aroundString .initial rfl rfl
  constructor
  · obtain ⟨after, passes, value_eq, -⟩ :=
      reads (aroundString.pieces.take 4) ⟨_, List.take_append_drop 4 _⟩ (by decide)
    exact ⟨after, passes, value_eq⟩
  · obtain ⟨before, digit, value, initial, parts, value_eq, stops⟩ := refuses (by decide)
    obtain ⟨more, rfl⟩ := (parts [0, 2, 5] (by decide)).mp (by decide)
    obtain ⟨behind, split⟩ := initial
    change [0, 2, 5] ++ more ++ [digit] ++ behind = [0, 2, 5] ++ [7] at split
    rw [List.append_assoc, List.append_assoc, List.append_cancel_left_eq] at split
    obtain ⟨rfl, rfl⟩ : more = [] ∧ digit = 7 := by
      cases more <;> simp_all
    have value_eq : value = 257 := Int64.toInt_inj.mp value_eq
    have refused := stops []
    rwa [List.append_nil, value_eq] at refused

end Lexer
end GlyphStack
