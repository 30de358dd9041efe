import GlyphStack.Proofs.Origins

/-!
# Writing programs as source texts

A program is written by giving each push its decimal digits and a blank, and each
other instruction the symbol of its kind.  Reading what was written gives the
program back, apart from the places of its instructions.  The blank keeps two
numbers apart; nothing else needs to be kept apart, since a symbol is one character
and ends the number before it.
-/

namespace GlyphStack

/-- The source text of an instruction. -/
def Instruction.written (instruction : Instruction) : List Char :=
  if instruction.kind = .push then
    (toString instruction.value.toInt).toList ++ [' ']
  else
    instruction.kind.symbol?.toList

/-- The source text of a program. -/
def Program.written (program : Program) : List Char :=
  program.flatMap Instruction.written

/-- What an instruction says apart from its place: its kind, and the value of a
push. -/
def Instruction.content (instruction : Instruction) : Kind × Int64 :=
  (instruction.kind, if instruction.kind = .push then instruction.value else 0)

/-- An instruction that a source text can say at the given width. -/
structure Instruction.Writable (width : Width) (instruction : Instruction) : Prop where
  /-- Its kind is one of the language. -/
  defined : instruction.kind ∈ Kind.all
  /-- No value that is pushed is negative, since digits have no sign. -/
  nonneg : instruction.kind = .push -> 0 ≤ instruction.value.toInt
  /-- No value that is pushed is beyond the width. -/
  within : instruction.kind = .push -> instruction.value.toInt ≤ width.largest

namespace Lexer

/-! ## Texts without strings and comments -/

/-- The characters of a text outside strings and comments with their roles. -/
def bareRoles (text : List Char) : List (Char × Role) :=
  text.map fun c => (c, .ofBare c)

theorem Reading.roles_of_bare
    {text : List Char}
    (bare : ∀ c ∈ text, c ≠ quoteMark ∧ c ≠ commentMark) :
    (of text).cut = .clean ∧ (of text).roles = bareRoles text := by
  induction text using List.reverseRecOn with
  | nil => exact ⟨rfl, rfl⟩
  | append_singleton text c inductionHypothesis =>
    obtain ⟨notQuote, notComment⟩ := bare c (by simp)
    obtain ⟨clean, roles_eq⟩ :=
      inductionHypothesis fun other found => bare other (List.mem_append_left _ found)
    rw [of_concat]
    constructor
    · simp [extend, clean, notQuote, notComment]
    · rw [roles_extend, roles_eq, clean]
      simp [bareRoles, Cut.role, notQuote, notComment]

/-- A text whose characters all have a role is grammatical. -/
theorem Reading.grammatical_of_roles
    {reading : Reading}
    (known : ∀ pair ∈ reading.roles, pair.2 ≠ .unknown) :
    reading.Grammatical := by
  intro c outside found
  by_contra unknown
  refine known (c, .ofBare c) ?_ (Role.ofBare_eq_unknown_iff.mpr unknown)
  refine List.mem_append_left _ (List.mem_flatMap.mpr ⟨_, found, ?_⟩)
  simp [Piece.roles]

/-! ## Symbols and digits -/

/-- The symbol of a kind is read as that kind. -/
theorem Role.ofBare_symbol
    {kind : Kind}
    {c : Char}
    (symbol : kind.symbol? = some c) :
    ofBare c = .operator kind ∧ c ≠ quoteMark ∧ c ≠ commentMark := by
  have other : Text.isSpace c = false ∧ ¬ ('0' ≤ c ∧ c ≤ '9') ∧
      c ≠ quoteMark ∧ c ≠ commentMark := by
    cases kind <;> simp only [Kind.symbol?, Option.some.injEq, reduceCtorEq] at symbol <;>
      subst symbol <;> decide
  obtain ⟨notSpace, notDigit, marks⟩ := other
  refine ⟨?_, marks⟩
  rw [ofBare, if_neg (by simp [notSpace]), if_neg notDigit,
    Kind.ofSymbol?_of_symbol?_eq_some symbol]

theorem Role.ofBare_digit
    {c : Char}
    (isDigit : c.isDigit = true) :
    ofBare c = .digit (c.toNat - '0'.toNat) ∧ c ≠ quoteMark ∧ c ≠ commentMark := by
  have range : '0' ≤ c ∧ c ≤ '9' := by
    simpa [Char.isDigit, Char.le_def] using isDigit
  have bounds : 48 ≤ c.toNat ∧ c.toNat ≤ 57 := range
  have notSpace : ¬ Text.isSpace c := by
    simp [Text.isSpace]
    omega
  refine ⟨by rw [ofBare, if_neg notSpace, if_pos range], ?_, ?_⟩
  · rintro rfl
    exact absurd bounds (by decide)
  · rintro rfl
    exact absurd bounds (by decide)

/-- The value of a digit. -/
def digitValue (c : Char) : Nat :=
  c.toNat - '0'.toNat

/-- The digits of a number are digits, there is one, and they spell the number. -/
theorem toList_toString_natCast
    (number : Nat) :
    ∃ first rest, (toString (number : Int)).toList = first :: rest ∧
      (∀ c ∈ first :: rest, c.isDigit = true) ∧
      decimal ((first :: rest).map digitValue) = number := by
  have digits_eq : (toString (number : Int)).toList = Nat.toDigits 10 number := by
    rw [Int.toString_eq_repr]
    exact Nat.toList_repr
  have nonempty : Nat.toDigits 10 number ≠ [] := Nat.toDigits_ne_nil
  obtain ⟨first, rest, split⟩ := List.exists_cons_of_ne_nil nonempty
  refine ⟨first, rest, digits_eq.trans split, ?_, ?_⟩
  · rw [← split]
    intro c found
    exact Nat.isDigit_of_mem_toDigits (Nat.succ_pos 9) (Nat.le_refl 10) found
  · rw [← split, decimal, List.foldl_map]
    exact Nat.ofDigitChars_ten_toDigits

/-- The marks of digits are digits. -/
theorem marksFrom_digits
    (before : List Char)
    {digits : List Char}
    (allDigits : ∀ c ∈ digits, c.isDigit = true) :
    (∀ mark ∈ marksFrom before (bareRoles digits), mark.digit?.isSome = true) ∧
      (marksFrom before (bareRoles digits)).filterMap Mark.digit? = digits.map digitValue := by
  induction digits generalizing before with
  | nil => simp [bareRoles, marksFrom]
  | cons c digits inductionHypothesis =>
    obtain ⟨areDigits, values⟩ :=
      inductionHypothesis (before ++ [c]) fun other found => allDigits other (.tail c found)
    have first := (Role.ofBare_digit (allDigits c (.head digits))).1
    simp_all [bareRoles, marksFrom, Mark.digit?, digitValue]

/-- Digits are one number, at the place of the first of them. -/
theorem settle_digits
    (before : List Char)
    {first : Char}
    {rest : List Char}
    (allDigits : ∀ c ∈ first :: rest, c.isDigit = true) :
    settle (marksFrom before (bareRoles (first :: rest))) =
      [{ kind := .push,
         value := decimal ((first :: rest).map digitValue),
         position := .after before }] := by
  obtain ⟨areDigits, values⟩ := marksFrom_digits before allDigits
  have noLetters : (marksFrom before (bareRoles (first :: rest))).filterMap Mark.letter? = [] := by
    rw [List.filterMap_eq_nil_iff]
    intro mark found
    obtain ⟨digit, role_eq⟩ := Mark.role_of_isSome_digit? (areDigits mark found)
    simp [Mark.letter?, role_eq]
  have found : (marksFrom before (bareRoles (first :: rest))).find?
      (fun mark => mark.digit?.isSome) = some ⟨.after before, .ofBare first⟩ :=
    List.find?_cons_of_pos (areDigits _ (.head _))
  rw [settle, noLetters, number?, found, values]
  rfl

/-- A chunk is settled by the character that ends it, whatever follows. -/
theorem entriesFrom_bareRoles_concat
    (before : List Char)
    {chunk : List Char}
    (unflushed : ∀ mark ∈ marksFrom before (bareRoles chunk), mark.isFlush = false)
    {c : Char}
    (flush : Mark.isFlush ⟨.after (before ++ chunk), .ofBare c⟩ = true)
    (rest : List (Char × Role)) :
    entriesFrom [] (marksFrom before (bareRoles (chunk ++ [c]) ++ rest)) =
      settle (marksFrom before (bareRoles chunk)) ++
        (Mark.operator? ⟨.after (before ++ chunk), .ofBare c⟩).toList ++
          entriesFrom [] (marksFrom (before ++ (chunk ++ [c])) rest) := by
  have marks_eq : marksFrom before (bareRoles (chunk ++ [c]) ++ rest) =
      marksFrom before (bareRoles chunk) ++
        ⟨.after (before ++ chunk), .ofBare c⟩ :: marksFrom (before ++ (chunk ++ [c])) rest := by
    simp [bareRoles, marksFrom_append, marksFrom, Function.comp_def]
  rw [marks_eq, entriesFrom_append, settled_of_forall unflushed,
    sinceFlush_of_forall unflushed, entriesFrom, if_pos flush]
  rfl

end Lexer

/-! ## Reading what was written -/

namespace Instruction

open Lexer

variable {width : Width} {instruction : Instruction}

/-- What is written is a number and a blank, or one symbol. -/
theorem Writable.written_cases
    (writable : instruction.Writable width) :
    (∃ number : Nat, instruction.kind = .push ∧ instruction.value.toInt = number ∧
      instruction.written = (toString (number : Int)).toList ++ [' ']) ∨
    (instruction.kind ≠ .push ∧ ∃ c, instruction.kind.symbol? = some c ∧
      instruction.written = [c]) := by
  by_cases isPush : instruction.kind = .push
  · obtain ⟨number, value_eq⟩ := Int.eq_ofNat_of_zero_le (writable.nonneg isPush)
    exact .inl ⟨number, isPush, value_eq, by rw [written, if_pos isPush, value_eq]⟩
  · have symbols : ∀ kind ∈ Kind.all, kind ≠ .push -> kind.symbol?.isSome = true := by decide
    obtain ⟨c, symbol⟩ := Option.isSome_iff_exists.mp (symbols _ writable.defined isPush)
    exact .inr ⟨isPush, c, symbol, by rw [written, if_neg isPush, symbol]; rfl⟩

theorem Writable.content_le
    (writable : instruction.Writable width) :
    instruction.content.2.toInt ≤ width.largest := by
  by_cases isPush : instruction.kind = .push
  · rw [content, if_pos isPush]
    exact writable.within isPush
  · rw [content, if_neg isPush]
    exact width.largest_nonneg

/-- Nothing that is written opens a string or a comment, or is unknown. -/
theorem Writable.bare
    (writable : instruction.Writable width)
    {c : Char}
    (found : c ∈ instruction.written) :
    Role.ofBare c ≠ .unknown ∧ c ≠ quoteMark ∧ c ≠ commentMark := by
  rcases writable.written_cases with ⟨number, -, -, written_eq⟩ | ⟨-, symbol, isSymbol, written_eq⟩
  · obtain ⟨first, rest, digits_eq, allDigits, -⟩ := toList_toString_natCast number
    rw [written_eq, digits_eq, List.mem_append, List.mem_singleton] at found
    rcases found with found | rfl
    · obtain ⟨role_eq, marks⟩ := Role.ofBare_digit (allDigits c found)
      exact ⟨by simp [role_eq], marks⟩
    · decide
  · rw [written_eq, List.mem_singleton] at found
    obtain ⟨role_eq, marks⟩ := Role.ofBare_symbol (found ▸ isSymbol)
    exact ⟨by simp [role_eq], marks⟩

/-- What is written for an instruction is read as that instruction, whatever
follows. -/
theorem Writable.entriesFrom_written
    (writable : instruction.Writable width)
    (before : List Char)
    (rest : List (Char × Role)) :
    ∃ position, entriesFrom [] (marksFrom before (bareRoles instruction.written ++ rest)) =
      { kind := instruction.kind,
        value := instruction.content.2.toInt,
        position := position } ::
          entriesFrom [] (marksFrom (before ++ instruction.written) rest) := by
  rcases writable.written_cases with
    ⟨number, isPush, value_eq, written_eq⟩ | ⟨notPush, c, symbol, written_eq⟩
  · obtain ⟨first, digits, digits_eq, allDigits, spelled_eq⟩ := toList_toString_natCast number
    have unflushed : ∀ mark ∈ marksFrom before (bareRoles (first :: digits)),
        mark.isFlush = false := by
      intro mark found
      obtain ⟨digit, role_eq⟩ :=
        Mark.role_of_isSome_digit? ((marksFrom_digits before allDigits).1 mark found)
      simp [Mark.isFlush, role_eq]
    refine ⟨.after before, ?_⟩
    rw [written_eq, digits_eq, entriesFrom_bareRoles_concat before unflushed rfl rest,
      settle_digits before allDigits, spelled_eq, content, if_pos isPush, value_eq, isPush]
    rfl
  · have role_eq := (Role.ofBare_symbol symbol).1
    refine ⟨.after before, ?_⟩
    rw [written_eq, ← List.nil_append [c],
      entriesFrom_bareRoles_concat before (by simp [bareRoles, marksFrom])
        (by simp [Mark.isFlush, role_eq]) rest, content, if_neg notPush]
    simp [bareRoles, marksFrom, settle, number?, Mark.operator?, role_eq]

end Instruction

namespace Program

open Lexer (Reading bareRoles marksFrom entriesFrom)

variable {width : Width} {program : Program}

/-- The entries of a written program are its instructions. -/
theorem entriesFrom_written
    (writable : ∀ instruction ∈ program, instruction.Writable width)
    (before : List Char) :
    (entriesFrom [] (marksFrom before (bareRoles program.written))).map
        (fun entry => (entry.kind, entry.value)) =
      program.map fun instruction => (instruction.kind, instruction.content.2.toInt) := by
  induction program generalizing before with
  | nil => rfl
  | cons instruction program inductionHypothesis =>
    have split : bareRoles (written (instruction :: program)) =
        bareRoles instruction.written ++ bareRoles (written program) := by
      simp [written, bareRoles]
    obtain ⟨position, entries_eq⟩ := (writable instruction (.head program)).entriesFrom_written
      before (bareRoles (written program))
    rw [split, entries_eq, List.map_cons, List.map_cons,
      inductionHypothesis fun other found => writable other (.tail instruction found)]

/-- A grammatical text whose entries have values within the width is accepted, and read
as its entries. -/
theorem ofSource_of_entries
    {text : List Char}
    {contents : List (Kind × Int64)}
    (grammatical : (Reading.of text).Grammatical)
    (entries_eq : (Reading.of text).entries.map (fun entry => (entry.kind, entry.value)) =
      contents.map fun content => (content.1, content.2.toInt))
    (within : ∀ content ∈ contents, content.2.toInt ≤ width.largest) :
    ∃ program, ofSource width (Glyph.decode (Text.utf8 text)) = .ok program ∧
      program.map (fun instruction => (instruction.kind, instruction.value)) = contents := by
  have entriesWithin : (Reading.of text).Within width := by
    intro entry found
    have listed : (entry.kind, entry.value) ∈
        contents.map fun content => (content.1, content.2.toInt) := by
      rw [← entries_eq]
      exact List.mem_map_of_mem found
    obtain ⟨content, inContents, equal⟩ := List.mem_map.mp listed
    have value_eq : content.2.toInt = entry.value := congrArg Prod.snd equal
    rw [← value_eq]
    exact within content inContents
  obtain ⟨program, accepted, program_eq⟩ :=
    ofSource_of_clear (Reading.clear_iff.mpr ⟨grammatical, entriesWithin⟩)
  refine ⟨program, by rw [Glyph.decode_utf8, accepted], ?_⟩
  have toInt_injective : Function.Injective
      fun content : Kind × Int64 => (content.1, content.2.toInt) := by
    rintro ⟨kind, value⟩ ⟨kind', value'⟩ equal
    simpa [Int64.toInt_inj] using equal
  apply List.map_injective_iff.mpr toInt_injective
  rw [← program_eq, List.map_map] at entries_eq
  rw [List.map_map]
  exact entries_eq

/-- A written program is a text of the language, and is read as the program. -/
theorem ofSource_written
    (writable : ∀ instruction ∈ program, instruction.Writable width) :
    ∃ again, ofSource width (Glyph.decode (Text.utf8 program.written)) = .ok again ∧
      again.map (fun instruction => (instruction.kind, instruction.value)) =
        program.map Instruction.content := by
  have bare : ∀ c ∈ program.written,
      Lexer.Role.ofBare c ≠ .unknown ∧ c ≠ Lexer.quoteMark ∧ c ≠ Lexer.commentMark := by
    intro c found
    obtain ⟨instruction, inProgram, found⟩ := List.mem_flatMap.mp found
    exact (writable instruction inProgram).bare found
  obtain ⟨-, roles_eq⟩ := Reading.roles_of_bare fun c found => (bare c found).2
  apply ofSource_of_entries
  · refine Reading.grammatical_of_roles fun pair found => ?_
    rw [roles_eq] at found
    obtain ⟨c, inText, rfl⟩ := List.mem_map.mp found
    exact (bare c inText).1
  · have entries_eq := entriesFrom_written writable []
    rw [← roles_eq] at entries_eq
    rw [List.map_map]
    exact entries_eq
  · intro content listed
    obtain ⟨instruction, inProgram, rfl⟩ := List.mem_map.mp listed
    exact (writable instruction inProgram).content_le

/-- The instructions of a program that was read can be written, and their content
is all that they say. -/
theorem writable_of_ofSource
    {source : List Glyph}
    (accepted : ofSource width source = .ok program) :
    (∀ instruction ∈ program, instruction.Writable width) ∧
      program.map Instruction.content =
        program.map fun instruction => (instruction.kind, instruction.value) := by
  obtain ⟨text, -, origins⟩ := origins_of_ofSource accepted
  constructor
  · intro instruction inProgram
    obtain ⟨value_le, before, c, later, -, -, origin⟩ := origins instruction inProgram
    exact ⟨origin.kind_mem_all, fun _ => origin.value_nonneg, fun _ => value_le⟩
  · refine List.map_congr_left fun instruction inProgram => ?_
    obtain ⟨-, before, c, later, -, -, origin⟩ := origins instruction inProgram
    by_cases isPush : instruction.kind = .push
    · rw [Instruction.content, if_pos isPush]
    · rw [Instruction.content, if_neg isPush, origin.value_eq_zero isPush]

/-- Reading inverts writing.  The table by which symbols are read agrees with the
symbols that are written.  Every program of defined instructions whose values
are neither negative nor beyond the width is accepted as it is written, and read
with the same kinds and values in the same order.  What was read from any bytes is
such a program, so writing it and reading it again changes no kind and no value. -/
theorem reading_inverts_writing
    (bytes : Int) :
    (∀ (symbol : Char) (kind : Kind),
      Kind.operators.lookup symbol = some kind ↔ kind.symbol? = some symbol) ∧
    (∀ program : Program, (∀ instruction ∈ program, instruction.Writable (.ofInt bytes)) ->
      ∃ again, ofSource (.ofInt bytes) (Glyph.decode (Text.utf8 program.written)) = .ok again ∧
        again.map (fun instruction => (instruction.kind, instruction.value)) =
          program.map Instruction.content) ∧
    (∀ input program, ofSource (.ofInt bytes) (Glyph.decode input) = .ok program ->
      ∃ again, ofSource (.ofInt bytes) (Glyph.decode (Text.utf8 program.written)) = .ok again ∧
        again.map (fun instruction => (instruction.kind, instruction.value)) =
          program.map fun instruction => (instruction.kind, instruction.value)) := by
  refine ⟨fun symbol kind => Kind.ofSymbol?_eq_some_iff, ?_, ?_⟩
  · intro program writable
    exact ofSource_written writable
  · intro input program accepted
    obtain ⟨writable, content_eq⟩ := writable_of_ofSource accepted
    obtain ⟨again, accepted', again_eq⟩ := ofSource_written writable
    exact ⟨again, accepted', again_eq.trans content_eq⟩

/-- The blank keeps two numbers apart, and a value that an operator carries is not
written. -/
theorem reading_inverts_writing_adjacent_numbers :
    written [
        { kind := .push, value := 256, position := .start },
        { kind := .push, value := 7, position := .start },
        { kind := .add, value := 5, position := .start }] = "256 7 +".toList ∧
    ∃ again, ofSource (.ofInt 1) (Glyph.decode (Text.utf8 "256 7 +".toList)) = .ok again ∧
      again.map (fun instruction => (instruction.kind, instruction.value)) =
        [(.push, 256), (.push, 7), (.add, 0)] := by
  have written_eq : written [
      { kind := .push, value := 256, position := .start },
      { kind := .push, value := 7, position := .start },
      { kind := .add, value := 5, position := .start }] = "256 7 +".toList := by
    decide +kernel
  refine ⟨written_eq, ?_⟩
  rw [← written_eq]
  apply (reading_inverts_writing 1).2.1
  simp only [List.mem_cons, List.not_mem_nil, or_false, forall_eq_or_imp, forall_eq]
  exact ⟨⟨by decide, by decide, by decide⟩, ⟨by decide, by decide, by decide⟩,
    ⟨by decide, by decide, by decide⟩⟩

end Program
end GlyphStack
