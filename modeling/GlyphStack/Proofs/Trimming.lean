import GlyphStack.Proofs.Concatenation
import GlyphStack.Text.Trim

/-!
# Trimmed texts

A command drops the white space at both ends of its source text before it reads it.
This changes no program.  White space at the start brings a lexer to rest, so what
follows is read as a text of its own.  White space at the end is passed over in a
comment, and elsewhere ends a number that the end of the text would end as well.  Only
in a string white space counts, and a text that ends in a string is left out here.
-/

namespace GlyphStack

/-! ## Texts without the white space at their ends -/

namespace Text

/-- A text is cut into a body and the white space around it. -/
structure Trims (text leading body trailing : List Char) : Prop where
  /-- The text is made up of the three parts. -/
  text_eq : text = leading ++ (body ++ trailing)
  /-- In front of the body there is only white space. -/
  leading_blank : ∀ c ∈ leading, isSpace c = true
  /-- Behind the body there is only white space. -/
  trailing_blank : ∀ c ∈ trailing, isSpace c = true
  /-- The body does not begin with white space. -/
  begins : ∀ c ∈ body.head?, isSpace c = false
  /-- The body does not end with white space. -/
  ends : ∀ c ∈ body.getLast?, isSpace c = false

/-- Unless all is white space, what is in front of the body is all of it at the start. -/
theorem Trims.leading_eq
    {text leading body trailing : List Char}
    (trims : Trims text leading body trailing)
    (nonempty : body ≠ []) :
    leading = text.takeWhile isSpace := by
  obtain ⟨first, rest, rfl⟩ := List.exists_cons_of_ne_nil nonempty
  have ends : isSpace first = false := trims.begins first rfl
  rw [trims.text_eq, List.takeWhile_append_of_pos trims.leading_blank, List.cons_append,
    List.takeWhile_cons_of_neg (by simp [ends]), List.append_nil]

theorem trimStart_map (text : List Char) :
    trimStart (text.map .char) = (text.dropWhile isSpace).map .char := by
  rw [trimStart, List.dropWhile_map]
  rfl

theorem trimEnd_map (text : List Char) :
    trimEnd (text.map .char) = (text.rdropWhile isSpace).map .char := by
  rw [trimEnd, ← List.map_reverse, trimStart_map, ← List.map_reverse, List.rdropWhile]

/-- Trimming a text leaves its body. -/
theorem exists_trims (text : List Char) :
    ∃ leading body trailing, Trims text leading body trailing ∧
      trim (text.map .char) = body.map .char := by
  refine ⟨text.takeWhile isSpace, (text.dropWhile isSpace).rdropWhile isSpace,
    (text.dropWhile isSpace).rtakeWhile isSpace, ⟨?_, ?_, ?_, ?_, ?_⟩, ?_⟩
  · rw [List.rdropWhile_append_rtakeWhile, List.takeWhile_append_dropWhile]
  · intro c found
    exact List.mem_takeWhile_imp found
  · intro c found
    exact List.mem_rtakeWhile_imp found
  · -- The body is a beginning of what is left without the white space in front.
    intro c first
    have initial := List.rdropWhile_prefix isSpace (text.dropWhile isSpace)
    have found : (text.dropWhile isSpace).head? = some c := by
      obtain ⟨rest, split⟩ := initial
      rw [← split, List.head?_append, first]
      rfl
    have stops := List.head?_dropWhile_not isSpace text
    rw [found] at stops
    simpa using stops
  · intro c last
    have nonempty : (text.dropWhile isSpace).rdropWhile isSpace ≠ [] := by
      rintro empty
      simp [empty] at last
    have stops := List.rdropWhile_last_not isSpace (text.dropWhile isSpace) nonempty
    rw [List.getLast?_eq_some_getLast nonempty] at last
    rw [Option.mem_some_iff.mp last] at stops
    simpa using stops
  · rw [trim, trimStart_map, trimEnd_map]

end Text

/-- Where a position of a text lies if a part at its start is dropped. -/
def Position.since (position : Position) (before : List Char) : Position where
  offset := position.offset - (Text.utf8 before).length
  line := position.line - before.count '\n'
  column :=
    if position.line = 1 + before.count '\n' then
      position.column - (before.rtakeWhile (· != '\n')).length
    else position.column

/-- Dropping a text undoes putting it in front. -/
@[simp] theorem Position.since_behind
    (position : Position)
    (before : List Char) :
    (position.behind before).since before = position := by
  obtain ⟨offset, line, column⟩ := position
  simp only [behind, since, mk.injEq]
  refine ⟨by omega, by omega, ?_⟩
  by_cases first : line = 1
  · rw [if_pos (by omega), if_pos first]
    omega
  · rw [if_neg (by omega), if_neg first]

namespace Lexer
namespace State

variable {width : Width} {state after : State}

/-! ## White space at the start -/

theorem readChar_space
    (outside : state.mode = .normal)
    {c : Char}
    (isSpace : Text.isSpace c = true) :
    state.readChar width c = state.flush width := by
  simp [readChar, outside, readNormal, isSpace]

theorem rests_initial : initial.Rests [] :=
  ⟨rfl, rfl, rfl⟩

/-- A lexer at rest stays so over white space. -/
theorem Rests.spaces
    {before spaces : List Char}
    (rests : state.Rests before)
    (width : Width)
    (blank : ∀ c ∈ spaces, Text.isSpace c = true) :
    ∃ after : State, after.Rests (before ++ spaces) ∧ after.program = state.program ∧
      state.Passes width (spaces.map .char) after := by
  induction spaces generalizing state before with
  | nil => exact ⟨state, by rwa [List.append_nil], rfl, passes_nil width state⟩
  | cons c spaces inductionHypothesis =>
    have read : state.readChar width c = .ok state := by
      rw [readChar_space rests.mode_eq (blank c (.head spaces)), flush_of_none rests.pending_eq]
    have next : { state with here := state.here.advance c.utf8Size (c == '\n') }.Rests
        (before ++ [c]) := by
      refine ⟨?_, rests.mode_eq, rests.pending_eq⟩
      rw [Position.after_concat, ← rests.here_eq]
    obtain ⟨after, rests', program_eq, passes⟩ :=
      inductionHypothesis next fun other found => blank other (.tail c found)
    rw [List.append_assoc, List.singleton_append] at rests'
    exact ⟨after, rests', program_eq, (passes_char read).append passes⟩

/-! ## White space at the end -/

/-- Two readings give the same program or the same error, and leave the same string or
comment open. -/
structure SameEnd (first second : State × Option Error) : Prop where
  error_eq : first.2 = second.2
  program_eq : first.1.program = second.1.program
  open_eq : first.1.unterminated? = second.1.unterminated?

theorem SameEnd.trans
    {first second third : State × Option Error}
    (same : SameEnd first second)
    (same' : SameEnd second third) :
    SameEnd first third where
  error_eq := same.error_eq.trans same'.error_eq
  program_eq := same.program_eq.trans same'.program_eq
  open_eq := same.open_eq.trans same'.open_eq

/-- How a reading ends does not depend on the place. -/
theorem sameEnd_here
    (width : Width)
    (state : State)
    (place : Position) :
    SameEnd ({ state with here := place }.scan width []) (state.scan width []) := by
  have pending_eq : { state with here := place }.pending = state.pending := rfl
  simp only [scan, flush]
  rw [pending_eq]
  cases state.pending with
  | none => exact ⟨rfl, rfl, rfl⟩
  | some literal =>
    dsimp only
    cases Instruction.push width literal.value literal.start with
    | ok instruction => exact ⟨rfl, rfl, rfl⟩
    | error overflow => exact ⟨rfl, rfl, rfl⟩

theorem pending_of_flush
    (flushed : state.flush width = .ok after) :
    after.pending = none := by
  unfold flush at flushed
  split at flushed
  · next absent =>
    cases flushed
    exact absent
  · split at flushed
    · cases flushed
      rfl
    · cases flushed

/-- A number may be ended before the text ends. -/
theorem sameEnd_flush
    (flushed : state.flush width = .ok after) :
    SameEnd (after.scan width []) (state.scan width []) := by
  rw [scan, scan, flushed, flush_of_none (pending_of_flush flushed)]
  exact ⟨rfl, rfl, rfl⟩

theorem not_mark_of_isSpace
    {c : Char}
    (isSpace : Text.isSpace c = true) :
    c ≠ quoteMark ∧ c ≠ escapeMark ∧ c ≠ commentMark := by
  refine ⟨?_, ?_, ?_⟩ <;> (rintro rfl; revert isSpace; decide)

/-- Outside strings white space is passed without a change of how the reading ends, if
it does not fail, as the end of the text would. -/
theorem space_cases
    (width : Width)
    {c : Char}
    (outside : state.mode = .normal ∨ state.mode = .comment)
    (isSpace : Text.isSpace c = true) :
    (∃ error, state.read width (.char c) = .error error ∧ state.flush width = .error error) ∨
      ∃ after, state.Passes width [.char c] after ∧ after.mode = state.mode ∧
        SameEnd (after.scan width []) (state.scan width []) := by
  rcases outside with normal | comment
  · have read : state.readChar width c = state.flush width := readChar_space normal isSpace
    cases flushed : state.flush width with
    | error error =>
      refine .inl ⟨error, ?_, rfl⟩
      rw [State.read, read, flushed]
      rfl
    | ok after =>
      rw [flushed] at read
      refine .inr ⟨_, passes_char read, (flush_frame flushed).2.1, ?_⟩
      exact (sameEnd_here width after _).trans (sameEnd_flush flushed)
  · have read : state.readChar width c = .ok state := by
      simp [readChar, comment, (not_mark_of_isSpace isSpace).2.2]
    exact .inr ⟨_, passes_char read, rfl, sameEnd_here width state _⟩

/-- White space at the end of a text changes nothing, unless it stands in a string. -/
theorem sameEnd_spaces
    {spaces : List Char}
    (outside : state.mode = .normal ∨ state.mode = .comment)
    (blank : ∀ c ∈ spaces, Text.isSpace c = true) :
    SameEnd (state.scan width (spaces.map .char)) (state.scan width []) := by
  induction spaces generalizing state with
  | nil => exact ⟨rfl, rfl, rfl⟩
  | cons c spaces inductionHypothesis =>
    have blank' : ∀ other ∈ spaces, Text.isSpace other = true :=
      fun other found => blank other (.tail c found)
    rcases space_cases width outside (blank c (.head spaces)) with
      ⟨error, reads, flushes⟩ | ⟨after, passes, mode_eq, same⟩
    · rw [List.map_cons, scan, scan, reads, flushes]
      obtain ⟨open_eq, program_eq⟩ := state.breakOff_frame (.char c)
      exact ⟨rfl, program_eq, open_eq⟩
    · rw [List.map_cons, ← List.singleton_append, passes]
      rw [← mode_eq] at outside
      exact (inductionHypothesis outside blank').trans same

/-- A lexer inside a string. -/
def InString (state : State) : Prop :=
  state.mode = .string ∨ state.mode = .escape

theorem InString.unterminated?
    (inString : state.InString) :
    state.unterminated? = some (.string, state.opened) := by
  rcases inString with string | escape
  · simp [State.unterminated?, string]
  · simp [State.unterminated?, escape]

/-- White space does not end a string. -/
theorem InString.readChar
    (inString : state.InString)
    {c : Char}
    (isSpace : Text.isSpace c = true)
    (read : state.readChar width c = .ok after) :
    after.InString := by
  obtain ⟨notQuote, notEscape, -⟩ := not_mark_of_isSpace isSpace
  have emits : state.readChar width c = { state with mode := .string }.emitChar width c := by
    rcases inString with string | escape
    · simp only [State.readChar, string, readString, if_neg notQuote, if_neg notEscape]
      rw [← string]
    · simp only [State.readChar, escape]
  rw [emits, emitChar] at read
  split at read <;> cases read
  exact .inl rfl

theorem InString.breakOff
    (inString : state.InString)
    (glyph : Glyph) :
    (state.breakOff glyph).InString := by
  unfold State.breakOff
  rcases inString with string | escape
  · simp only [string]
    exact .inl string
  · cases glyph with
    | stray byte => exact .inr (by simp [escape])
    | char c => exact .inl (by simp [escape])

theorem InString.spaces
    {spaces : List Char}
    (inString : state.InString)
    (blank : ∀ c ∈ spaces, Text.isSpace c = true) :
    (state.scan width (spaces.map .char)).1.InString := by
  induction spaces generalizing state with
  | nil =>
    rw [List.map_nil, scan]
    split
    · next flushed flushes =>
      unfold InString
      rw [(flush_frame flushes).2.1]
      exact inString
    · exact inString
  | cons c spaces inductionHypothesis =>
    have blank' : ∀ other ∈ spaces, Text.isSpace other = true :=
      fun other found => blank other (.tail c found)
    rw [List.map_cons, scan, State.read]
    cases read : state.readChar width c with
    | error error => exact inString.breakOff (.char c)
    | ok after =>
      have inString' := inString.readChar (blank c (.head spaces)) read
      exact inductionHypothesis
        (show State.InString { after with here := _ } from inString') blank'

/-- Some glyphs are passed, or lead to an error whatever follows. -/
theorem passes_or_stops
    (width : Width)
    (state : State)
    (glyphs : List Glyph) :
    (∃ after, state.Passes width glyphs after) ∨ ∃ error, state.Stops width glyphs error := by
  induction glyphs generalizing state with
  | nil => exact .inl ⟨state, passes_nil width state⟩
  | cons glyph glyphs inductionHypothesis =>
    cases read : state.read width glyph with
    | error error =>
      refine .inr ⟨error, fun rest => ?_⟩
      rw [List.cons_append, scan, read]
    | ok middle =>
      have passes : state.Passes width [glyph] middle := by
        intro rest
        rw [List.singleton_append, scan, read]
      rcases inductionHypothesis middle with ⟨after, passes'⟩ | ⟨error, stops⟩
      · exact .inl ⟨after, passes.append passes'⟩
      · exact .inr ⟨error, passes.stops stops⟩

/-- An accepted text that does not end in a string is read in the same way without the
white space at its end. -/
theorem sameEnd_trailing
    {body trailing : List Char}
    (blank : ∀ c ∈ trailing, Text.isSpace c = true)
    (unfailed : (state.scan width (body.map .char ++ trailing.map .char)).2 = none)
    (outside : ∀ place,
      (state.scan width (body.map .char ++ trailing.map .char)).1.unterminated? ≠
        some (.string, place)) :
    SameEnd (state.scan width (body.map .char ++ trailing.map .char))
      (state.scan width (body.map .char)) := by
  rcases passes_or_stops width state (body.map .char) with ⟨middle, passes⟩ | ⟨error, stops⟩
  · have alone := passes []
    rw [List.append_nil] at alone
    rw [passes] at outside ⊢
    rw [alone]
    apply sameEnd_spaces ?_ blank
    by_contra inside
    have inString : middle.InString := by
      unfold InString
      cases mode : middle.mode <;> simp_all
    exact outside _ (inString.spaces blank).unterminated?
  · rw [stops] at unfailed
    cases unfailed

/-- An accepted text that does not end in a string is its body behind the white space in
front. -/
theorem scan_of_trims
    {text leading body trailing : List Char}
    (trims : Text.Trims text leading body trailing)
    (unfailed : (initial.scan width (text.map .char)).2 = none)
    (outside : ∀ place,
      (initial.scan width (text.map .char)).1.unterminated? ≠ some (.string, place)) :
    (initial.scan width (body.map .char)).2 = none ∧
      (initial.scan width (text.map .char)).1.program =
        (initial.scan width (body.map .char)).1.program.map
          (fun instruction => instruction.behind leading) ∧
      (initial.scan width (text.map .char)).1.unterminated? =
        (initial.scan width (body.map .char)).1.unterminated?.map
          (Prod.map id fun position => position.behind leading) := by
  obtain ⟨middle, rests, idle, passes⟩ := rests_initial.spaces width trims.leading_blank
  obtain ⟨error_eq, program_eq, open_eq⟩ :=
    rests.scan width (body.map .char ++ trailing.map .char)
  have text_eq : text.map Glyph.char =
      leading.map .char ++ (body.map .char ++ trailing.map .char) := by
    rw [trims.text_eq, List.map_append, List.map_append]
  rw [text_eq, passes] at unfailed outside ⊢
  rw [List.nil_append] at error_eq program_eq open_eq
  rw [idle] at program_eq
  rw [error_eq, Option.map_eq_none_iff] at unfailed
  have outside' : ∀ place,
      (initial.scan width (body.map .char ++ trailing.map .char)).1.unterminated? ≠
        some (.string, place) := by
    intro place inString
    rw [open_eq, inString] at outside
    exact outside _ rfl
  have same := sameEnd_trailing trims.trailing_blank unfailed outside'
  refine ⟨same.error_eq.symm.trans unfailed, ?_, ?_⟩
  · rw [program_eq, same.program_eq]
    rfl
  · rw [open_eq, same.open_eq]

end State
end Lexer

namespace Program

open Lexer (leftOpen?)

/-- Trimming a source text does not change its program.  If bytes are accepted and do not
end in a string, then so is what is left without the white space at both ends.  It has
the same instructions in the same order and the same comment open, if there is one, and
all places are those of the whole text without the white space in front. -/
theorem trimming_keeps_program
    (bytes : Int)
    (input : List UInt8)
    {program : Program}
    (accepted : ofSource (.ofInt bytes) (Glyph.decode input) = .ok program)
    (outside : ∀ place, leftOpen? (.ofInt bytes) (Glyph.decode input) ≠ some (.string, place)) :
    ∃ text leading body trailing trimmed,
      input = Text.utf8 text ∧ Text.Trims text leading body trailing ∧
      Text.trim (Glyph.decode input) = Glyph.decode (Text.utf8 body) ∧
      ofSource (.ofInt bytes) (Text.trim (Glyph.decode input)) = .ok trimmed ∧
      trimmed.map (fun instruction => (instruction.kind, instruction.value)) =
        program.map (fun instruction => (instruction.kind, instruction.value)) ∧
      trimmed.map Instruction.position =
        program.map (fun instruction => instruction.position.since leading) ∧
      leftOpen? (.ofInt bytes) (Text.trim (Glyph.decode input)) =
        (leftOpen? (.ofInt bytes) (Glyph.decode input)).map
          (Prod.map id fun position => position.since leading) := by
  obtain ⟨text, decoded, -, -⟩ := ofSource_eq_ok_iff.mp accepted
  obtain ⟨leading, body, trailing, trims, trim_eq⟩ := Text.exists_trims text
  obtain rfl : input = Text.utf8 text := Glyph.decode_eq_map_iff.mp decoded
  rw [decoded, trim_eq]
  rw [decoded, ofSource_eq_ok_iff_scan] at accepted
  rw [decoded] at outside
  simp only [Lexer.leftOpen?_eq_scan] at outside ⊢
  obtain ⟨unfailed, rfl⟩ := accepted
  obtain ⟨unfailed', program_eq, open_eq⟩ :=
    Lexer.State.scan_of_trims trims unfailed outside
  refine ⟨text, leading, body, trailing, _, rfl, trims, (Glyph.decode_utf8 body).symm,
    ofSource_eq_ok_iff_scan.mpr ⟨unfailed', rfl⟩, ?_, ?_, ?_⟩
  · rw [program_eq, List.map_map]
    rfl
  · rw [program_eq, List.map_map]
    apply List.map_congr_left
    intro instruction _
    exact (Position.since_behind _ leading).symm
  · have back : (fun position : Position => position.since leading) ∘
        (fun position => position.behind leading) = id := by
      funext position
      exact Position.since_behind position leading
    rw [open_eq, Option.map_map, Prod.map_comp_map, back, Function.id_comp, Prod.map_id,
      Option.map_id_apply]

/-- A newline and a wide blank in front, and a blank in a comment that is not closed.  All
places move by one line, one column and the four bytes of the white space in front. -/
theorem trimming_keeps_program_wideBlank :
    let text := ['\n', '\u3000', '7', '+', '#', ' ']
    let body := ['7', '+', '#']
    ofSource (.ofInt 2) (Glyph.decode (Text.utf8 text)) = .ok [
      { kind := .push, value := 7, position := { offset := 4, line := 2, column := 2 } },
      { kind := .add, value := 0, position := { offset := 5, line := 2, column := 3 } }] ∧
    leftOpen? (.ofInt 2) (Glyph.decode (Text.utf8 text)) =
      some (.comment, { offset := 6, line := 2, column := 4 }) ∧
    Text.trim (Glyph.decode (Text.utf8 text)) = body.map .char ∧
    leftOpen? (.ofInt 2) (body.map .char) =
      some (.comment, { offset := 2, line := 1, column := 3 }) ∧
    ∃ trimmed, ofSource (.ofInt 2) (body.map .char) = .ok trimmed ∧
      trimmed.map (fun instruction => (instruction.kind, instruction.value)) =
        [(.push, 7), (.add, 0)] ∧
      trimmed.map Instruction.position = [
        { offset := 0, line := 1, column := 1 },
        { offset := 1, line := 1, column := 2 }] := by
  intro text body
  have trim_eq : Text.trim (Glyph.decode (Text.utf8 text)) = body.map .char := by
    rw [Glyph.decode_utf8]
    rfl
  have accepted : ofSource (.ofInt 2) (Glyph.decode (Text.utf8 text)) = .ok [
      { kind := .push, value := 7, position := { offset := 4, line := 2, column := 2 } },
      { kind := .add, value := 0, position := { offset := 5, line := 2, column := 3 } }] := by
    rw [Glyph.decode_utf8]
    rfl
  have leftOpen : leftOpen? (.ofInt 2) (Glyph.decode (Text.utf8 text)) =
      some (.comment, { offset := 6, line := 2, column := 4 }) := by
    rw [Glyph.decode_utf8]
    rfl
  obtain ⟨other, leading, rest, trailing, trimmed, input_eq, trims, rest_eq, accepted',
    contents_eq, places_eq, open_eq⟩ := trimming_keeps_program 2 _ accepted (by simp [leftOpen])
  obtain rfl : other = text := by
    have decoded := congrArg Glyph.decode input_eq
    rw [Glyph.decode_utf8, Glyph.decode_utf8] at decoded
    exact (Glyph.map_char_inj decoded).symm
  obtain rfl : body = rest := by
    rw [trim_eq, Glyph.decode_utf8] at rest_eq
    exact Glyph.map_char_inj rest_eq
  obtain rfl : leading = ['\n', '\u3000'] := trims.leading_eq (by simp [body])
  rw [trim_eq] at accepted' open_eq
  rw [leftOpen] at open_eq
  exact ⟨accepted, leftOpen, trim_eq, open_eq, trimmed, accepted', contents_eq, places_eq⟩

end Program
end GlyphStack
