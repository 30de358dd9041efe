import GlyphStack.Proofs.Scanning

/-!
# The language of source texts

Which byte strings are programs, what program each of them is, and with which
error all others are refused.  A byte string is a program if it is the encoding of
a text whose reading has only known characters and only literals within the width.
Its program is the one of the reading.  In every other byte string there is a first
glyph that does not fit behind the text in front of it, and the error is that
glyph's.
-/

namespace GlyphStack
namespace Lexer
namespace Reading

/-- All characters outside strings and comments are white space, digits or
operators. -/
def Grammatical (reading : Reading) : Prop :=
  ∀ c outside, Piece.bare c outside ∈ reading.pieces ->
    Text.isSpace c ∨ ('0' ≤ c ∧ c ≤ '9') ∨ (Kind.ofSymbol? c).isSome

/-- All literals, the letters of strings and the numbers, are within a width. -/
def Within (width : Width) (reading : Reading) : Prop :=
  ∀ entry ∈ reading.entries, entry.value ≤ width.largest

end Reading

theorem Role.ofBare_eq_unknown_iff
    {c : Char} :
    Role.ofBare c = .unknown ↔
      ¬ (Text.isSpace c ∨ ('0' ≤ c ∧ c ≤ '9') ∨ (Kind.ofSymbol? c).isSome) := by
  unfold ofBare
  split
  · next isSpace => simp [isSpace]
  · next notSpace =>
    split
    · next isDigit => simp [isDigit]
    · next notDigit =>
      cases symbol : Kind.ofSymbol? c <;> simp [notSpace, notDigit]

namespace Reading

variable {width : Width} {reading : Reading}

/-- A reading stays grammatical with a character that has a role. -/
theorem grammatical_extend
    {c : Char} :
    (reading.extend c).Grammatical ↔
      reading.Grammatical ∧ reading.cut.role c ≠ .unknown := by
  obtain ⟨pieces, cut⟩ := reading
  cases cut with
  | clean =>
    by_cases isQuote : c = quoteMark
    · simp [extend, Grammatical, Cut.role, isQuote]
    by_cases isComment : c = commentMark
    · simp [extend, Grammatical, Cut.role, isComment, quoteMark, commentMark]
    rw [ne_eq, Cut.role, if_neg (by simp [isQuote, isComment]), Role.ofBare_eq_unknown_iff,
      Decidable.not_not]
    simp only [extend, isQuote, isComment, dite_false, Grammatical, List.mem_append,
      List.mem_singleton, Piece.bare.injEq]
    constructor
    · intro grammatical
      refine ⟨fun other outside found => grammatical other outside (.inl found), ?_⟩
      exact grammatical c ⟨isQuote, isComment⟩ (.inr rfl)
    · rintro ⟨grammatical, known⟩ other outside (found | rfl)
      · exact grammatical other outside found
      · exact known
  | string body =>
    by_cases isEscape : c = escapeMark
    · simp [extend, Grammatical, Cut.role, isEscape]
    by_cases isQuote : c = quoteMark
    · simp [extend, Grammatical, Cut.role, isQuote, quoteMark, escapeMark]
    simp [extend, Grammatical, Cut.role, isEscape, isQuote]
  | escape body => simp [extend, Grammatical, Cut.role]
  | comment body unmarked =>
    by_cases isComment : c = commentMark
    · simp [extend, Grammatical, Cut.role, isComment]
    · simp [extend, Grammatical, Cut.role, isComment]

/-! Whether literals are within the width is seen from the settled part, the letters
of the last chunk and its number. -/

theorem settle_within
    {chunk : List Mark} :
    (∀ entry ∈ settle chunk, entry.value ≤ width.largest) ↔
      (∀ entry ∈ chunk.filterMap Mark.letter?, entry.value ≤ width.largest) ∧
        (spelled chunk : Int) ≤ width.largest := by
  rw [settle, List.forall_mem_append]
  refine and_congr_right fun _ => ?_
  cases found : number? chunk with
  | none =>
    rw [spelled_of_number?_eq_none found]
    simpa using width.largest_nonneg
  | some entry =>
    rw [number?_eq_some found .start]
    simp

theorem within_iff :
    reading.Within width ↔
      (∀ entry ∈ settled reading.marks, entry.value ≤ width.largest) ∧
        (∀ entry ∈ (sinceFlush reading.marks).filterMap Mark.letter?,
          entry.value ≤ width.largest) ∧
        (reading.pendingValue : Int) ≤ width.largest := by
  rw [Within, entries, entriesFrom_nil, List.forall_mem_append, settle_within]
  rfl

/-- A character that ends a number adds no literal. -/
theorem within_extend_of_flush
    {c : Char}
    {mark : Mark}
    (marks_eq : (reading.extend c).marks = reading.marks ++ [mark])
    (flush : mark.isFlush = true) :
    (reading.extend c).Within width ↔ reading.Within width := by
  have operator_le : ∀ entry ∈ mark.operator?.toList, entry.value ≤ width.largest := by
    intro entry found
    have value_eq : entry.value = 0 := by
      unfold Mark.operator? at found
      split at found <;> simp_all
    rw [value_eq]
    exact width.largest_nonneg
  rw [within_iff, within_iff, pendingValue, marks_eq, sinceFlush_concat_of_flush flush,
    settled_concat_of_flush flush, List.forall_mem_append, List.forall_mem_append, settle_within]
  have zero_le := width.largest_nonneg
  constructor
  · rintro ⟨⟨⟨settled, letters, number⟩, -⟩, -⟩
    exact ⟨settled, letters, number⟩
  · rintro ⟨settled, letters, number⟩
    exact ⟨⟨⟨settled, letters, number⟩, operator_le⟩, by simp, by simpa [spelled, decimal]⟩

/-- Any other character adds its letter, or makes the last number larger. -/
theorem within_extend_of_chunk
    {c : Char}
    {mark : Mark}
    (marks_eq : (reading.extend c).marks = reading.marks ++ [mark])
    (noFlush : mark.isFlush = false)
    (grows : reading.pendingValue ≤ (reading.extend c).pendingValue) :
    (reading.extend c).Within width ↔
      reading.Within width ∧
        (∀ entry ∈ mark.letter?.toList, entry.value ≤ width.largest) ∧
        ((reading.extend c).pendingValue : Int) ≤ width.largest := by
  have letters_eq : (sinceFlush (reading.extend c).marks).filterMap Mark.letter? =
      (sinceFlush reading.marks).filterMap Mark.letter? ++ mark.letter?.toList := by
    rw [marks_eq, sinceFlush_concat noFlush, List.filterMap_append]
    cases letter : mark.letter? <;> simp [letter]
  rw [within_iff, within_iff, letters_eq, marks_eq, settled_concat noFlush,
    List.forall_mem_append]
  constructor
  · rintro ⟨settled, ⟨letters, letter⟩, number⟩
    exact ⟨⟨settled, letters, by omega⟩, letter, number⟩
  · rintro ⟨⟨settled, letters, -⟩, letter, number⟩
    exact ⟨settled, ⟨letters, letter⟩, number⟩

theorem pendingValue_extend
    {c : Char}
    {mark : Mark}
    (marks_eq : (reading.extend c).marks = reading.marks ++ [mark])
    (noFlush : mark.isFlush = false) :
    (reading.extend c).pendingValue =
      match mark.digit? with
      | some digit => 10 * reading.pendingValue + digit
      | none => reading.pendingValue := by
  rw [pendingValue, marks_eq, sinceFlush_concat noFlush, spelled, List.filterMap_append]
  cases digit : mark.digit? <;> simp [pendingValue, spelled, decimal, digit]

/-- Literals stay within the width exactly if the next character is no offense. -/
theorem within_extend
    {c : Char}
    (known : reading.cut.role c ≠ .unknown) :
    (reading.extend c).Within width ↔
      reading.Within width ∧ reading.offense? width (.char c) = none := by
  have marks_eq := reading.marks_extend c
  simp only [offense?]
  cases role_eq : reading.cut.role c with
  | unknown => exact absurd role_eq known
  | space =>
    rw [within_extend_of_flush marks_eq (by simp [Mark.isFlush, role_eq])]
    simp
  | operator kind =>
    rw [within_extend_of_flush marks_eq (by simp [Mark.isFlush, role_eq])]
    simp
  | silent =>
    have noFlush : Mark.isFlush ⟨.after reading.text, reading.cut.role c⟩ = false := by
      simp [Mark.isFlush, role_eq]
    have pending_eq : (reading.extend c).pendingValue = reading.pendingValue := by
      rw [pendingValue_extend marks_eq noFlush]
      simp [Mark.digit?, role_eq]
    rw [within_extend_of_chunk marks_eq noFlush (by omega), pending_eq]
    simp only [Mark.letter?, role_eq, Option.toList, List.not_mem_nil, false_implies,
      implies_true, true_and, and_true]
    exact ⟨And.left, fun within => ⟨within, (within_iff.mp within).2.2⟩⟩
  | letter letter =>
    have noFlush : Mark.isFlush ⟨.after reading.text, reading.cut.role c⟩ = false := by
      simp [Mark.isFlush, role_eq]
    have pending_eq : (reading.extend c).pendingValue = reading.pendingValue := by
      rw [pendingValue_extend marks_eq noFlush]
      simp [Mark.digit?, role_eq]
    rw [within_extend_of_chunk marks_eq noFlush (by omega), pending_eq]
    simp only [Mark.letter?, role_eq, Option.toList, List.mem_singleton, forall_eq,
      ite_eq_left_iff, reduceCtorEq, imp_false, Decidable.not_not]
    constructor
    · rintro ⟨within, letter_le, -⟩
      exact ⟨within, letter_le⟩
    · rintro ⟨within, letter_le⟩
      exact ⟨within, letter_le, (within_iff.mp within).2.2⟩
  | digit digit =>
    have noFlush : Mark.isFlush ⟨.after reading.text, reading.cut.role c⟩ = false := by
      simp [Mark.isFlush, role_eq]
    have pending_eq : (reading.extend c).pendingValue = 10 * reading.pendingValue + digit := by
      rw [pendingValue_extend marks_eq noFlush]
      simp [Mark.digit?, role_eq]
    rw [within_extend_of_chunk marks_eq noFlush (by omega), pending_eq]
    simp [Mark.letter?, role_eq]

theorem offense?_ne_none_of_unknown
    {c : Char}
    (unknown : reading.cut.role c = .unknown) :
    reading.offense? width (.char c) ≠ none := by
  simp [offense?, unknown]

/-- A reading stays within the language exactly if the next character is no
offense. -/
theorem accepted_extend
    {c : Char} :
    (reading.extend c).Grammatical ∧ (reading.extend c).Within width ↔
      (reading.Grammatical ∧ reading.Within width) ∧
        reading.offense? width (.char c) = none := by
  rw [grammatical_extend]
  by_cases unknown : reading.cut.role c = .unknown
  · simp [unknown, offense?_ne_none_of_unknown unknown]
  · rw [within_extend unknown]
    simp [unknown, and_assoc]

theorem clear_concat
    {text : List Char}
    {c : Char} :
    reading.Clear width (text ++ [c]) ↔
      reading.Clear width text ∧
        (text.foldl extend reading).offense? width (.char c) = none := by
  induction text generalizing reading with
  | nil => simp [Clear]
  | cons first text inductionHypothesis =>
    simp [Clear, inductionHypothesis, and_assoc]

/-- A text is in the language exactly if none of its characters is an offense. -/
theorem clear_iff
    {text : List Char} :
    empty.Clear width text ↔ (of text).Grammatical ∧ (of text).Within width := by
  induction text using List.reverseRecOn with
  | nil => simp [Clear, of, empty, Grammatical, Within, entries, marks, roles, Cut.roles,
      marksFrom, entriesFrom, settle, number?]
  | append_singleton before c inductionHypothesis =>
    rw [clear_concat, of_concat, accepted_extend, inductionHypothesis]
    rfl

theorem clear_append_cons
    {before later : List Char}
    {c : Char}
    (clear : reading.Clear width (before ++ c :: later)) :
    (before.foldl extend reading).offense? width (.char c) = none := by
  induction before generalizing reading with
  | nil => exact clear.1
  | cons first before inductionHypothesis => exact inductionHypothesis clear.2

end Reading
end Lexer

open Lexer (Reading)

namespace Program

variable {width : Width}

theorem ofSource_eq_scan
    (width : Width)
    (source : List Glyph) :
    ofSource width source =
      match Lexer.State.initial.scan width source with
      | (final, none) => .ok final.program
      | (_, some error) => .error error := by
  have restarted : ((Lexer.new source).withWidth width).state.restart.scan
      ((Lexer.new source).withWidth width).width
      ((Lexer.new source).withWidth width).source =
        Lexer.State.initial.scan width source := rfl
  rw [ofSource, Lexer.tokenize, restarted]
  rcases Lexer.State.initial.scan width source with ⟨final, _ | error⟩ <;> rfl

/-- A text without an offense is a program, the one of its reading. -/
theorem ofSource_of_clear
    {text : List Char}
    (clear : Reading.empty.Clear width text) :
    ∃ program, ofSource width (text.map .char) = .ok program ∧
      program.map Instruction.entry = (Reading.of text).entries := by
  obtain ⟨final, scanned, emitted⟩ := (Lexer.State.follows_initial width).scan clear
  exact ⟨final.program, by rw [ofSource_eq_scan, scanned], emitted⟩

/-- Otherwise the first offense decides. -/
theorem ofSource_of_offense
    {text : List Char}
    (clear : Reading.empty.Clear width text)
    {glyph : Glyph}
    {error : Lexer.Error}
    (offense : (Reading.of text).offense? width glyph = some error)
    (later : List Glyph) :
    ofSource width (text.map .char ++ glyph :: later) = .error error := by
  obtain ⟨final, scanned⟩ :=
    (Lexer.State.follows_initial width).scan_offense clear offense later
  rw [ofSource_eq_scan, scanned]

theorem entry_injective : Function.Injective Instruction.entry := by
  intro first second equal
  simp only [Instruction.entry, Lexer.Entry.mk.injEq, Int64.toInt_inj] at equal
  obtain ⟨kind_eq, value_eq, position_eq⟩ := equal
  cases first
  cases second
  simp_all

/-- A source is a program exactly if it is a text without an offense. -/
theorem ofSource_eq_ok_iff
    {source : List Glyph}
    {program : Program} :
    ofSource width source = .ok program ↔
      ∃ text, source = text.map .char ∧ Reading.empty.Clear width text ∧
        program.map Instruction.entry = (Reading.of text).entries := by
  constructor
  · intro accepted
    rcases Reading.clear_or_offense width .empty source with
      ⟨text, rfl, clear⟩ | ⟨text, glyph, later, error, rfl, clear, offense⟩
    · obtain ⟨other, accepted', entries_eq⟩ := ofSource_of_clear clear
      obtain rfl : other = program := by simpa [accepted'] using accepted
      exact ⟨text, rfl, clear, entries_eq⟩
    · rw [ofSource_of_offense clear offense] at accepted
      cases accepted
  · rintro ⟨text, rfl, clear, entries_eq⟩
    obtain ⟨other, accepted, entries_eq'⟩ := ofSource_of_clear clear
    rw [accepted, List.map_injective_iff.mpr entry_injective (entries_eq'.trans entries_eq.symm)]

/-- A source is refused with the error of its first offense. -/
theorem ofSource_eq_error_iff
    {source : List Glyph}
    {error : Lexer.Error} :
    ofSource width source = .error error ↔
      ∃ text glyph later, source = text.map .char ++ glyph :: later ∧
        Reading.empty.Clear width text ∧
        (Reading.of text).offense? width glyph = some error := by
  constructor
  · intro refused
    rcases Reading.clear_or_offense width .empty source with
      ⟨text, rfl, clear⟩ | ⟨text, glyph, later, other, rfl, clear, offense⟩
    · obtain ⟨program, accepted, -⟩ := ofSource_of_clear clear
      rw [accepted] at refused
      cases refused
    · rw [ofSource_of_offense clear offense] at refused
      cases refused
      exact ⟨text, glyph, later, rfl, clear, offense⟩
  · rintro ⟨text, glyph, later, rfl, clear, offense⟩
    exact ofSource_of_offense clear offense later

/-- Bytes that are accepted are the encoding of one text with one reading, and the
program is the one of this reading. -/
theorem ofSource_eq_reading_entries
    (bytes : Int)
    (input : List UInt8)
    {program : Program}
    (accepted : ofSource (.ofInt bytes) (Glyph.decode input) = .ok program) :
    ∃ reading : Reading, Text.utf8 reading.text = input ∧
      (∀ other : Reading, Text.utf8 other.text = input -> other = reading) ∧
      program.map Instruction.entry = reading.entries := by
  obtain ⟨text, decoded, -, entries_eq⟩ := ofSource_eq_ok_iff.mp accepted
  refine ⟨.of text, ?_, ?_, entries_eq⟩
  · rw [Reading.text_of]
    exact (Glyph.decode_eq_map_iff.mp decoded).symm
  · rintro other rfl
    rw [Glyph.decode_utf8] at decoded
    have text_eq : other.text = text :=
      List.map_injective_iff.mpr (fun _ _ equal => Glyph.char.inj equal) decoded
    exact Reading.text_eq_iff.mp text_eq

/-- Digits on both sides of a string are one number, which is pushed after the
letters of the string and has the place of its first digit. -/
theorem ofSource_eq_reading_entries_around_string :
    ofSource (.ofInt 1) (Glyph.decode [0x31, 0x22, 0x61, 0x22, 0x32]) =
      .ok [
        { kind := .push, value := 97, position := { offset := 2, line := 1, column := 3 } },
        { kind := .push, value := 12, position := { offset := 0, line := 1, column := 1 } }] ∧
    ∃ reading : Reading, Text.utf8 reading.text = [0x31, 0x22, 0x61, 0x22, 0x32] ∧
      reading.entries = [
        { kind := .push, value := 97, position := { offset := 2, line := 1, column := 3 } },
        { kind := .push, value := 12, position := { offset := 0, line := 1, column := 1 } }] := by
  have accepted : ofSource (.ofInt 1) (Glyph.decode [0x31, 0x22, 0x61, 0x22, 0x32]) =
      .ok [
        { kind := .push, value := 97, position := { offset := 2, line := 1, column := 3 } },
        { kind := .push, value := 12, position := { offset := 0, line := 1, column := 1 } }] := by
    have encoded : [0x31, 0x22, 0x61, 0x22, 0x32] = Text.utf8 ['1', '"', 'a', '"', '2'] := by
      decide
    rw [encoded, Glyph.decode_utf8]
    rfl
  obtain ⟨reading, spelled, -, entries_eq⟩ := ofSource_eq_reading_entries _ _ accepted
  exact ⟨accepted, reading, spelled, entries_eq.symm⟩

/-- Bytes are accepted exactly if they are the encoding of a text whose reading is
grammatical and has its literals within the width.  All others are refused with
the error of the first glyph that is an offense, and the text in front of it is
accepted on its own. -/
theorem ofSource_accepts_exactly
    (bytes : Int)
    (input : List UInt8) :
    ((∃ program, ofSource (.ofInt bytes) (Glyph.decode input) = .ok program) ↔
      ∃ reading : Reading, input = Text.utf8 reading.text ∧
        reading.Grammatical ∧ reading.Within (.ofInt bytes)) ∧
    ∀ error, ofSource (.ofInt bytes) (Glyph.decode input) = .error error ↔
      ∃ (before : Reading) (glyph : Glyph) (rest : List UInt8),
        input = Text.utf8 before.text ++ rest ∧ glyph.Begins rest ∧
        before.offense? (.ofInt bytes) glyph = some error ∧
        (∀ (earlier : Reading) (c : Char) (later : List Char),
          before.text = earlier.text ++ c :: later ->
          earlier.offense? (.ofInt bytes) (.char c) = none) ∧
        ∃ program, ofSource (.ofInt bytes) (Glyph.decode (Text.utf8 before.text)) = .ok program := by
  constructor
  · constructor
    · rintro ⟨program, accepted⟩
      obtain ⟨text, decoded, clear, -⟩ := ofSource_eq_ok_iff.mp accepted
      refine ⟨.of text, ?_, Reading.clear_iff.mp clear⟩
      rw [Reading.text_of]
      exact Glyph.decode_eq_map_iff.mp decoded
    · rintro ⟨reading, rfl, acceptable⟩
      rw [← Reading.of_text reading] at acceptable
      obtain ⟨program, accepted, -⟩ := ofSource_of_clear (Reading.clear_iff.mpr acceptable)
      exact ⟨program, by rw [Glyph.decode_utf8, accepted]⟩
  · intro error
    constructor
    · intro refused
      obtain ⟨text, glyph, later, decoded, clear, offense⟩ := ofSource_eq_error_iff.mp refused
      obtain ⟨rest, rfl, decoded_rest⟩ := Glyph.decode_eq_append_iff.mp decoded
      obtain ⟨program, accepted, -⟩ := ofSource_of_clear clear
      refine ⟨.of text, glyph, rest, by rw [Reading.text_of],
        (Glyph.begins_of_decode_eq_cons decoded_rest).1, offense, ?_, program, ?_⟩
      · intro earlier c later split
        rw [Reading.text_of] at split
        rw [split] at clear
        have fits := Reading.clear_append_cons clear
        rwa [← Reading.of, Reading.of_text] at fits
      · rw [Reading.text_of, Glyph.decode_utf8, accepted]
    · rintro ⟨before, glyph, rest, rfl, begins, offense, -, program, accepted⟩
      obtain ⟨later, -, decoded⟩ := begins.decode_eq
      rw [Glyph.decode_utf8] at accepted
      obtain ⟨text, text_eq, clear, -⟩ := ofSource_eq_ok_iff.mp accepted
      obtain rfl : before.text = text :=
        List.map_injective_iff.mpr (fun _ _ equal => Glyph.char.inj equal) text_eq
      rw [Glyph.decode_utf8_append, decoded]
      refine ofSource_of_offense clear ?_ _
      rw [Reading.of_text]
      exact offense

end Program
end GlyphStack
