import GlyphStack.Proofs.Lines
import GlyphStack.Proofs.Matching
import GlyphStack.Proofs.Trimming

/-!
# Where diagnostics stand

A diagnostic is made from a position that a lexer or the check of the blocks reports.  All
of these are places of glyphs, and none of the glyphs is a newline: an unknown character, a
stray byte, a letter beyond the width, the first digit of a number, the mark of a string
or comment, or a bracket.  So there is a line to every diagnostic, and on it a character,
and what an editor is told is found by taking one from the line and from the column.

An editor is told no more than the 32 last bits of either number.  This is all there is
unless a text has more lines, or one of its lines more characters, than they can count.
-/

namespace GlyphStack

/-! ## Glyphs that end no line -/

/-- A newline is white space, or a letter, or part of a comment. -/
theorem Lexer.Cut.role_newline_ne_unknown (cut : Cut) : cut.role '\n' ≠ .unknown := by
  cases cut with
  | clean => decide
  | string body => simp [role, quoteMark, escapeMark]
  | escape body => simp [role]
  | comment body unmarked => simp [role]

/-- Every width has room for a newline. -/
theorem Width.newline_le_largest (width : Width) : ('\n'.toNat : Int) ≤ width.largest := by
  by_cases narrow : width.bytes < 8
  · have power : 2 ^ 8 ≤ 2 ^ (8 * width.bytes) := by
      have positive := width.positive
      exact Nat.pow_le_pow_right (by decide) (by omega)
    have small : '\n'.toNat ≤ 2 ^ (8 * width.bytes) := Nat.le_trans (by decide) power
    rw [largest_of_lt narrow]
    exact_mod_cast small
  · rw [largest_of_le (by omega)]
    decide

/-- No operator is written as a newline. -/
theorem Kind.symbol?_ne_newline (kind : Kind) : kind.symbol? ≠ some '\n' := by
  cases kind <;> simp [symbol?]

namespace Position

/-- What stands at a position of some bytes, among their glyphs. -/
theorem PointsAt.exists_later
    {position : Position}
    {input : List UInt8}
    {before : List Char}
    {glyph : Glyph}
    (there : position.PointsAt input before glyph) :
    ∃ later, Glyph.decode input = before.map .char ++ glyph :: later := by
  obtain ⟨rest, rfl, begins⟩ := there.begins
  obtain ⟨others, -, decoded⟩ := begins.decode_eq
  exact ⟨Glyph.decode others, by rw [Glyph.decode_utf8_append, decoded]⟩

/-- A position is the place of a glyph that ends no line. -/
def IsOnLine (position : Position) (input : List UInt8) : Prop :=
  ∃ before glyph, position.PointsAt input before glyph ∧ glyph ≠ .char '\n'

end Position

namespace Lexer

variable {width : Width} {input : List UInt8}

/-- No error lies at a newline. -/
theorem Error.Blames.isOnLine
    {consumed : List Char}
    {error : Error}
    (blames : error.Blames width input consumed) :
    error.position.IsOnLine input := by
  cases blames with
  | strayByte there => exact ⟨_, _, there, by simp⟩
  | unknownSymbol there unknown =>
    refine ⟨_, _, there, fun newline => ?_⟩
    rw [Glyph.char.inj newline] at unknown
    exact Cut.role_newline_ne_unknown _ unknown
  | letter there isLetter value_eq beyond =>
    refine ⟨_, _, there, fun newline => ?_⟩
    have small := width.newline_le_largest
    rw [Glyph.char.inj newline] at beyond
    omega
  | number there begins fault split unended beyond =>
    refine ⟨_, _, there, fun newline => ?_⟩
    have digit := begins.isDigit
    rw [Glyph.char.inj newline] at digit
    exact absurd digit (by decide)

theorem isOnLine_of_error
    {error : Error}
    (refused : Program.ofSource width (Glyph.decode input) = .error error) :
    error.position.IsOnLine input := by
  obtain ⟨consumed, blames⟩ := exists_blames refused
  exact blames.isOnLine

/-- A string or comment is not opened at a newline. -/
theorem isOnLine_of_unterminated?
    {text : List Char}
    {mode : Mode}
    {position : Position}
    (leftOpen : (Reading.of text).unterminated? = some (mode, position)) :
    position.IsOnLine (Text.utf8 text) := by
  obtain ⟨before, c, there, openedAt⟩ :=
    pointsAt_of_unterminated? (List.append_nil (Text.utf8 text)).symm leftOpen
  refine ⟨before, .char c, there, fun newline => ?_⟩
  rcases openedAt.mark_eq with ⟨-, isMark⟩ | ⟨-, isMark⟩ <;>
    exact absurd (isMark.symm.trans (Glyph.char.inj newline)) (by decide)

/-- A bracket is not read at a newline. -/
theorem isOnLine_of_issue
    {program : Program}
    (accepted : Program.ofSource width (Glyph.decode input) = .ok program)
    {issue : Blocks.Issue}
    (found : issue ∈ program.blockIssues) :
    issue.instruction.position.IsOnLine input := by
  obtain ⟨text, decoded, origins⟩ := Program.origins_of_ofSource accepted
  obtain ⟨inProgram, isBracket, -⟩ := Program.mem_blockIssues_iff.mp found
  obtain ⟨-, before, c, later, rfl, position_eq, origin⟩ :=
    origins _ (List.mem_of_getElem? inProgram)
  rw [Program.bracketAt?_of_getElem? inProgram] at isBracket
  refine ⟨before, .char c, ?_, fun newline => ?_⟩
  · rw [position_eq, Glyph.decode_eq_map_iff.mp decoded,
      ← List.append_nil (Text.utf8 (before ++ c :: later))]
    exact Position.pointsAt_after before c later []
  · cases origin with
    | operator outside symbol value_eq =>
      rw [Glyph.char.inj newline] at symbol
      exact Kind.symbol?_ne_newline _ symbol
    | letter inside isPush value_eq => simp [isPush, Kind.bracket?] at isBracket
    | number begins isPush value_eq => simp [isPush, Kind.bracket?] at isBracket

end Lexer

namespace Editor

/-! ## From positions to diagnostics -/

/-- The range of a diagnostic is the character of a text that stands behind the given
ones on its line. -/
structure Diagnostic.Covers
    (diagnostic : Diagnostic)
    (source : List Glyph)
    (preceding : List Char) : Prop where
  /-- The line is a line of the text, and the character is one of the line. -/
  there : ∃ line glyph rest,
    (Text.lines source)[diagnostic.start.line.toNat]? = some line ∧
    line = preceding.map .char ++ glyph :: rest ∧
    diagnostic.start.character.toNat = preceding.length ∧
    diagnostic.start.character.toNat < line.length
  /-- The characters in front of it are as many units of UTF-16 exactly if none of them
  lies beyond the basic multilingual plane. -/
  utf16_iff : (Text.utf16 preceding).length = diagnostic.start.character.toNat ↔
    ∀ c ∈ preceding, c.toNat < 0x10000
  /-- The end is one character further on the same line. -/
  stop_line_eq : diagnostic.stop.line = diagnostic.start.line
  stop_character_eq :
    diagnostic.stop.character.toNat = diagnostic.start.character.toNat + 1

/-- A diagnostic stands at a position, which is that of the character behind the given
ones on a line of a text. -/
structure Diagnostic.StandsBehind
    (diagnostic : Diagnostic)
    (source : List Glyph)
    (position : Position)
    (index : Nat)
    (preceding : List Char) : Prop where
  /-- One can be taken from the line and from the column. -/
  line_eq : position.line - 1 = index
  column_eq : position.column - 1 = preceding.length
  /-- There is such a line in the text, and on it such a character. -/
  there : ∃ glyph rest,
    (Text.lines source)[index]? = some (preceding.map .char ++ glyph :: rest)
  /-- What is published are the last 32 bits of the line and of the character, and of the
  character after it. -/
  start_eq : diagnostic.start = { line := .ofNat index, character := .ofNat preceding.length }
  stop_eq : diagnostic.stop = { line := .ofNat index, character := .ofNat (preceding.length + 1) }
  /-- If 32 bits can count the lines and the characters, that is the character itself. -/
  covers : index < 2 ^ 32 -> preceding.length + 1 < 2 ^ 32 -> diagnostic.Covers source preceding
  /-- They can if they can count the whole text. -/
  short : source.length < 2 ^ 32 -> index < 2 ^ 32 ∧ preceding.length + 1 < 2 ^ 32

/-- A diagnostic stands at a position of a text. -/
def Diagnostic.StandsAt
    (diagnostic : Diagnostic)
    (source : List Glyph)
    (position : Position) : Prop :=
  ∃ index preceding, diagnostic.StandsBehind source position index preceding

section Published

variable {diagnostic : Diagnostic} {source : List Glyph} {preceding : List Char} {index : Nat}

/-- What is published without loss points at the character. -/
theorem Diagnostic.covers_of_lt
    (there : ∃ glyph rest,
      (Text.lines source)[index]? = some (preceding.map .char ++ glyph :: rest))
    (start_eq : diagnostic.start =
      { line := .ofNat index, character := .ofNat preceding.length })
    (index_lt : index < 2 ^ 32)
    (length_lt : preceding.length + 1 < 2 ^ 32) :
    diagnostic.Covers source preceding := by
  obtain ⟨glyph, rest, found⟩ := there
  have line_eq : diagnostic.start.line.toNat = index := by
    rw [start_eq, UInt32.toNat_ofNat_of_lt' index_lt]
  have character_eq : diagnostic.start.character.toNat = preceding.length := by
    rw [start_eq, UInt32.toNat_ofNat_of_lt' (Nat.lt_of_succ_lt length_lt)]
  refine ⟨⟨_, glyph, rest, ?_, rfl, character_eq, ?_⟩, ?_, rfl, ?_⟩
  · rw [line_eq, found]
  · rw [character_eq, List.length_append, List.length_map, List.length_cons]
    exact Nat.lt_add_of_pos_right (Nat.succ_pos _)
  · rw [character_eq]
    exact Text.length_utf16_eq_iff
  · rw [stop, UInt32.toNat_add, character_eq, UInt32.toNat_one, Nat.mod_eq_of_lt length_lt]

end Published

theorem Diagnostic.standsAt_atPosition
    {position : Position}
    {input : List UInt8}
    (onLine : position.IsOnLine input)
    (severity : Severity)
    (message : String) :
    (atPosition position severity message).StandsAt (Glyph.decode input) position := by
  obtain ⟨before, glyph, pointsAt, inLine⟩ := onLine
  obtain ⟨later, decoded⟩ := pointsAt.exists_later
  have start_eq : (atPosition position severity message).start =
      { line := .ofNat (before.count '\n')
        character := .ofNat (Text.lastLine before).length } := by
    rw [atPosition, pointsAt.position_eq, Place.ofPosition_after]
  obtain ⟨rest, found⟩ := Text.exists_line before inLine later
  rw [← decoded] at found
  have there : ∃ glyph rest, (Text.lines (Glyph.decode input))[before.count '\n']? =
      some ((Text.lastLine before).map .char ++ glyph :: rest) :=
    ⟨glyph, rest, found⟩
  refine ⟨before.count '\n', Text.lastLine before, ?_, ?_, there, start_eq, ?_, ?_, ?_⟩
  · simp only [pointsAt.position_eq, Position.after]
    omega
  · simp only [pointsAt.position_eq, Position.after, Text.lastLine]
    omega
  · rw [stop, start_eq, UInt32.ofNat_add]
    rfl
  · exact covers_of_lt there start_eq
  · intro short
    rw [decoded, List.length_append, List.length_map, List.length_cons] at short
    have lines_le : before.count '\n' ≤ before.length := List.count_le_length
    have columns_le : (Text.lastLine before).length ≤ before.length :=
      (List.rtakeWhile_suffix _ before).length_le
    omega

/-! ## Diagnostics of a text -/

variable {width : Width} {source : List Glyph}

theorem diagnose_of_error
    {error : Lexer.Error}
    (refused : Program.ofSource width source = .error error) :
    diagnose width source = [.atPosition error.position .error error.message] := by
  rw [Program.ofSource] at refused
  unfold diagnose
  split
  · next tokenized =>
    rw [tokenized] at refused
    cases refused
    rfl
  · next tokenized =>
    rw [tokenized] at refused
    cases refused

theorem diagnose_of_ok
    {program : Program}
    (accepted : Program.ofSource width source = .ok program) :
    ∃ text, source = text.map .char ∧
      diagnose width source =
        ((Lexer.Reading.of text).unterminated?.toList.map fun found =>
          .atPosition found.2 .warning ("unterminated " ++ found.1.name)) ++
        program.blockIssues.map fun issue =>
          .atPosition issue.instruction.position .warning issue.message := by
  obtain ⟨text, source_eq, clear, -⟩ := Program.ofSource_eq_ok_iff.mp accepted
  have read : ((Lexer.new source).withWidth width).source = text.map .char := source_eq
  obtain ⟨-, -, -, leftOpen_eq⟩ := Lexer.tokenize_of_clear read clear
  refine ⟨text, source_eq, ?_⟩
  rw [Program.ofSource] at accepted
  rw [← leftOpen_eq]
  unfold diagnose
  split
  · next tokenized =>
    rw [tokenized] at accepted
    cases accepted
  · next lexer other tokenized =>
    rw [tokenized] at accepted ⊢
    cases accepted
    cases lexer.unterminated? <;> rfl

/-- A text that is no program has one diagnostic, an error.  A program has warnings only:
one if a string or comment is left open, and then one for every block without a partner.
Each stands at the character that it is about, as far as 32 bits can count. -/
theorem diagnostics_stand_on_characters
    (bytes : Int)
    (input : List UInt8) :
    (∀ error, Program.ofSource (.ofInt bytes) (Glyph.decode input) = .error error ->
      ∃ diagnostic, diagnose (.ofInt bytes) (Glyph.decode input) = [diagnostic] ∧
        diagnostic.severity = .error ∧
        diagnostic.message = error.message ∧
        diagnostic.StandsAt (Glyph.decode input) error.position) ∧
    ∀ program, Program.ofSource (.ofInt bytes) (Glyph.decode input) = .ok program ->
      ∃ text unclosed blocks, input = Text.utf8 text ∧
        diagnose (.ofInt bytes) (Glyph.decode input) = unclosed ++ blocks ∧
        (∀ diagnostic ∈ unclosed ++ blocks, diagnostic.severity = .warning) ∧
        List.Forall₂
          (fun diagnostic found =>
            diagnostic.message = "unterminated " ++ found.1.name ∧
              diagnostic.StandsAt (Glyph.decode input) found.2)
          unclosed (Lexer.Reading.of text).unterminated?.toList ∧
        List.Forall₂
          (fun diagnostic issue =>
            diagnostic.message = issue.message ∧
              diagnostic.StandsAt (Glyph.decode input) issue.instruction.position)
          blocks program.blockIssues := by
  refine ⟨fun error refused => ?_, fun program accepted => ?_⟩
  · exact ⟨_, diagnose_of_error refused, rfl, rfl,
      Diagnostic.standsAt_atPosition (Lexer.isOnLine_of_error refused) _ _⟩
  · obtain ⟨text, source_eq, diagnosed⟩ := diagnose_of_ok accepted
    have input_eq := Glyph.decode_eq_map_iff.mp source_eq
    refine ⟨text, _, _, input_eq, diagnosed, ?_, ?_, ?_⟩
    · simp only [List.mem_append, List.mem_map]
      rintro diagnostic (⟨found, -, rfl⟩ | ⟨issue, -, rfl⟩) <;> rfl
    · rw [List.forall₂_map_left_iff, List.forall₂_same]
      intro found isFound
      rw [Option.mem_toList] at isFound
      refine ⟨rfl, Diagnostic.standsAt_atPosition ?_ _ _⟩
      rw [input_eq]
      exact Lexer.isOnLine_of_unterminated? isFound
    · rw [List.forall₂_map_left_iff, List.forall₂_same]
      intro issue found
      exact ⟨rfl, Diagnostic.standsAt_atPosition (Lexer.isOnLine_of_issue accepted found) _ _⟩

/-- A string with a character of two units of UTF-16, an endif that closes nothing, and on
the next line a string that is not closed. -/
theorem diagnostics_stand_on_characters_behindSurrogates :
    let text := ['"', '𐀀', '"', ')', '\n', '"']
    let refusedText := ['7', '\n', '@']
    Program.ofSource (.ofInt 4) (Glyph.decode (Text.utf8 text)) = .ok [
      { kind := .push, value := 0x10000, position := { offset := 1, line := 1, column := 2 } },
      { kind := .endif, value := 0, position := { offset := 6, line := 1, column := 4 } }] ∧
    (∃ unclosed block,
      diagnose (.ofInt 4) (Glyph.decode (Text.utf8 text)) = [unclosed, block] ∧
      unclosed.severity = .warning ∧
      block.severity = .warning ∧
      unclosed.StandsAt (Glyph.decode (Text.utf8 text)) { offset := 8, line := 2, column := 1 } ∧
      block.StandsAt (Glyph.decode (Text.utf8 text)) { offset := 6, line := 1, column := 4 }) ∧
    Program.ofSource (.ofInt 1) (Glyph.decode (Text.utf8 refusedText)) =
      .error (.unknownSymbol '@' { offset := 2, line := 2, column := 1 }) ∧
    ∃ diagnostic,
      diagnose (.ofInt 1) (Glyph.decode (Text.utf8 refusedText)) = [diagnostic] ∧
      diagnostic.severity = .error ∧
      diagnostic.StandsAt (Glyph.decode (Text.utf8 refusedText))
        { offset := 2, line := 2, column := 1 } := by
  intro text refusedText
  have accepted : Program.ofSource (.ofInt 4) (Glyph.decode (Text.utf8 text)) = .ok [
      { kind := .push, value := 0x10000, position := { offset := 1, line := 1, column := 2 } },
      { kind := .endif, value := 0, position := { offset := 6, line := 1, column := 4 } }] := by
    rw [Glyph.decode_utf8]
    rfl
  have refused : Program.ofSource (.ofInt 1) (Glyph.decode (Text.utf8 refusedText)) =
      .error (.unknownSymbol '@' { offset := 2, line := 2, column := 1 }) := by
    rw [Glyph.decode_utf8]
    rfl
  refine ⟨accepted, ?_, refused, ?_⟩
  · obtain ⟨other, unclosed, blocks, input_eq, diagnosed, warnings, opened, issues⟩ :=
      (diagnostics_stand_on_characters 4 _).2 _ accepted
    obtain rfl : other = text := by
      have decoded := congrArg Glyph.decode input_eq
      rw [Glyph.decode_utf8, Glyph.decode_utf8] at decoded
      exact (Glyph.map_char_inj decoded).symm
    have leftOpen : (Lexer.Reading.of text).unterminated?.toList =
        [(.string, { offset := 8, line := 2, column := 1 })] := rfl
    rw [leftOpen] at opened
    obtain ⟨unclosed, nothing, ⟨-, opened_there⟩, ⟨⟩, rfl⟩ :=
      List.forall₂_cons_right_iff.mp opened
    obtain ⟨block, nothing, ⟨-, block_there⟩, ⟨⟩, rfl⟩ := List.forall₂_cons_right_iff.mp issues
    exact ⟨unclosed, block, diagnosed, warnings _ (by simp), warnings _ (by simp),
      opened_there, block_there⟩
  · obtain ⟨diagnostic, diagnosed, severity_eq, -, there⟩ :=
      (diagnostics_stand_on_characters 1 _).1 _ refused
    exact ⟨diagnostic, diagnosed, severity_eq, there⟩

/-! ## Beyond 32 bits -/

/-- An unknown character behind blanks is an error where it stands. -/
theorem refused_behind_blanks
    (width : Width)
    (count : Nat) :
    Program.ofSource width (Glyph.decode (Text.utf8 (List.replicate count ' ' ++ ['@']))) =
      .error (.unknownSymbol '@' (.after (List.replicate count ' '))) := by
  have blank : ∀ c ∈ List.replicate count ' ', Text.isSpace c = true := by
    intro c found
    rw [List.eq_of_mem_replicate found]
    rfl
  obtain ⟨after, rests, -, passes⟩ := Lexer.State.rests_initial.spaces width blank
  have read : after.read width (.char '@') = .error (.unknownSymbol '@' after.here) := by
    simp only [Lexer.State.read, Lexer.State.readChar, rests.mode_eq]
    rfl
  rw [Glyph.decode_utf8, List.map_append, Program.ofSource_eq_scan, passes]
  rw [List.map_singleton, Lexer.State.scan, read, rests.here_eq, List.nil_append]

theorem lastLine_replicate_blank (count : Nat) :
    Text.lastLine (List.replicate count ' ') = List.replicate count ' ' := by
  refine List.rtakeWhile_eq_self_iff.mpr fun c found => ?_
  rw [List.eq_of_mem_replicate found]
  rfl

/-- An unknown character behind blanks is published on the first line, with as many
characters in front of it as there are blanks, as far as 32 bits can count them. -/
theorem start_behind_blanks
    (width : Width)
    (count : Nat) :
    ∃ diagnostic,
      diagnose width (Glyph.decode (Text.utf8 (List.replicate count ' ' ++ ['@']))) =
        [diagnostic] ∧
      diagnostic.start = { line := 0, character := .ofNat count } := by
  refine ⟨_, diagnose_of_error (refused_behind_blanks width count), ?_⟩
  have oneLine : (List.replicate count ' ').count '\n' = 0 := by
    rw [List.count_eq_zero]
    intro found
    exact absurd (List.eq_of_mem_replicate found) (by decide)
  rw [Diagnostic.atPosition, Lexer.Error.position, Place.ofPosition_after,
    lastLine_replicate_blank, List.length_replicate, oneLine]
  rfl

/-- Behind so many blanks that 32 bits cannot count them, an unknown character is
published at the start of its line, although the blanks are as many units of UTF-16 and
none lies beyond the basic multilingual plane. -/
theorem start_wraps_behind_blanks :
    (∀ c ∈ List.replicate (2 ^ 32) ' ', c.toNat < 0x10000) ∧
    (Text.utf16 (List.replicate (2 ^ 32) ' ')).length = 2 ^ 32 ∧
    ∃ diagnostic,
      diagnose (.ofInt 4) (Glyph.decode (Text.utf8 (List.replicate (2 ^ 32) ' ' ++ ['@']))) =
        [diagnostic] ∧
      diagnostic.start.character.toNat = 0 := by
  have plain : ∀ c ∈ List.replicate (2 ^ 32) ' ', c.toNat < 0x10000 := by
    intro c found
    rw [List.eq_of_mem_replicate found]
    decide
  refine ⟨plain, ?_, ?_⟩
  · rw [Text.length_utf16_eq_iff.mpr plain, List.length_replicate]
  · obtain ⟨diagnostic, diagnosed, start_eq⟩ := start_behind_blanks (.ofInt 4) (2 ^ 32)
    refine ⟨diagnostic, diagnosed, ?_⟩
    rw [start_eq]
    rfl

end Editor
end GlyphStack
