import GlyphStack.Editor.Hover
import GlyphStack.Proofs.Lines
import GlyphStack.Proofs.Listings
import GlyphStack.Proofs.Order
import GlyphStack.Proofs.Printing

/-!
# What a hover shows

An editor asks what stands at a place, and the answer describes the first instruction that
was read there.  No other was: a number is pushed later than it is written, but still at
its own first digit.  An instruction is read at an operator, at a letter of a string and
at the first digit of a number, and at no other character.
-/

namespace GlyphStack

open Text (IsWord)

namespace Lexer

/-! ## Characters that give an instruction -/

/-- A character is one at which an instruction is read. -/
inductive IsRead (before : List Char) (c : Char) : Prop
  /-- It is an operator, outside strings and comments. -/
  | operator
      (outside : (Reading.of before).cut = .clean)
      (known : (Kind.ofSymbol? c).isSome)
  /-- It stands in a string, and is neither the quote that ends it nor a backslash. -/
  | letter
      (inside : ∃ body, (Reading.of before).cut = .string body)
      (unmarked : c ≠ quoteMark ∧ c ≠ escapeMark)
  /-- It stands in a string, behind a backslash. -/
  | escaped
      (inside : ∃ body, (Reading.of before).cut = .escape body)
  /-- It is the first digit of a number. -/
  | number
      (begins : BeginsNumber before c)

/-- The characters that a string pushes are those behind a backslash, and all others but
the quote and the backslash. -/
theorem Cut.role_eq_letter_iff
    {cut : Cut}
    {c : Char} :
    cut.role c = .letter c ↔
      (∃ body, cut = .string body) ∧ (c ≠ quoteMark ∧ c ≠ escapeMark) ∨
        ∃ body, cut = .escape body := by
  cases cut with
  | clean =>
    refine iff_of_false (fun isLetter => ?_) (by simp)
    cases isLetter ▸ gives_role .clean c with
    | letter inside => exact inside rfl
  | string body =>
    by_cases marks : c = escapeMark ∨ c = quoteMark
    · simp only [role, if_pos marks]
      rcases marks with rfl | rfl <;> simp
    · simp only [role, if_neg marks]
      simpa [and_comm] using marks
  | escape body => simp [role]
  | comment body unmarked => simp [role]

/-- Outside strings and comments an operator has its own role. -/
theorem Cut.role_clean_operator
    {c : Char}
    {kind : Kind}
    (found : Kind.ofSymbol? c = some kind) :
    Cut.clean.role c = .operator kind := by
  obtain ⟨role_eq, noQuote, noComment⟩ :=
    Role.ofBare_symbol (Kind.symbol?_of_ofSymbol?_eq_some found)
  rw [role, if_neg (by simp [noQuote, noComment]), role_eq]

/-- Outside strings and comments a digit has its own role. -/
theorem Cut.role_clean_digit
    {c : Char}
    (isDigit : '0' ≤ c ∧ c ≤ '9') :
    Cut.clean.role c = .digit (c.toNat - '0'.toNat) := by
  obtain ⟨role_eq, noQuote, noComment⟩ :=
    Role.ofBare_digit (show c.isDigit = true by simpa [Char.isDigit, Char.le_def] using isDigit)
  rw [role, if_neg (by simp [noQuote, noComment]), role_eq]

theorem Origin.isRead
    {before later : List Char}
    {c : Char}
    {instruction : Instruction}
    (origin : Origin before c later instruction) :
    IsRead before c := by
  cases origin with
  | operator outside symbol value_eq =>
    exact .operator outside (by simp [Kind.ofSymbol?_of_symbol?_eq_some symbol])
  | letter inside isPush value_eq =>
    rcases Cut.role_eq_letter_iff.mp inside with ⟨inString, unmarked⟩ | behind
    · exact .letter inString unmarked
    · exact .escaped behind
  | number begins isPush value_eq => exact .number begins

/-! ## Marks that give an entry -/

/-- An operator gives an entry at its place. -/
theorem exists_entry_of_operator
    {mark : Mark}
    {kind : Kind}
    (role_eq : mark.role = .operator kind)
    (front back : List Mark) :
    ∃ entry ∈ entriesFrom [] (front ++ mark :: back), entry.position = mark.position := by
  have flushes : mark.isFlush = true := by simp [Mark.isFlush, role_eq]
  have given : mark.operator? =
      some { kind := kind, value := 0, position := mark.position } := by
    simp [Mark.operator?, role_eq]
  refine ⟨{ kind := kind, value := 0, position := mark.position }, ?_, rfl⟩
  rw [entriesFrom_append, entriesFrom, if_pos flushes, given]
  simp

/-- What the open chunk gives together with what follows is part of the program. -/
theorem mem_entriesFrom_of_mem_settle
    {front : List Mark}
    {mark : Mark}
    {back : List Mark}
    {entry : Entry}
    (noFlush : mark.isFlush = false)
    (found : entry ∈ settle (sinceFlush front ++ mark :: untilFlush back)) :
    entry ∈ entriesFrom [] (front ++ mark :: back) := by
  rw [← untilFlush_cons noFlush] at found
  rw [entriesFrom_append]
  exact List.mem_append_right _ ((settle_prefix_entriesFrom _ _).subset found)

/-- A letter gives an entry at its place. -/
theorem exists_entry_of_letter
    {mark : Mark}
    {c : Char}
    (role_eq : mark.role = .letter c)
    (front back : List Mark) :
    ∃ entry ∈ entriesFrom [] (front ++ mark :: back), entry.position = mark.position := by
  have given : mark.letter? =
      some { kind := .push, value := c.toNat, position := mark.position } := by
    simp [Mark.letter?, role_eq]
  refine ⟨{ kind := .push, value := c.toNat, position := mark.position }, ?_, rfl⟩
  refine mem_entriesFrom_of_mem_settle (by simp [Mark.isFlush, role_eq]) ?_
  refine List.mem_append_left _ (List.mem_filterMap.mpr ⟨mark, by simp, given⟩)

/-- A digit gives an entry at its place, unless one stands before it in the same number. -/
theorem exists_entry_of_digit
    {mark : Mark}
    {digit : Nat}
    (role_eq : mark.role = .digit digit)
    {front : List Mark}
    (first : number? (sinceFlush front) = none)
    (back : List Mark) :
    ∃ entry ∈ entriesFrom [] (front ++ mark :: back), entry.position = mark.position := by
  have isDigit : mark.digit?.isSome := by simp [Mark.digit?, role_eq]
  obtain ⟨entry, number, -, position_eq⟩ := number?_append_cons first isDigit (untilFlush back)
  refine ⟨entry, mem_entriesFrom_of_mem_settle (by simp [Mark.isFlush, role_eq]) ?_, position_eq⟩
  exact List.mem_append_right _ (by simp [number])

/-- Such a character gives an entry at its place. -/
theorem IsRead.exists_entry
    {before : List Char}
    {c : Char}
    (isRead : IsRead before c)
    (later : List Char) :
    ∃ entry ∈ (Reading.of (before ++ c :: later)).entries, entry.position = .after before := by
  obtain ⟨more, marks_eq⟩ := Reading.marks_of_append_cons before c later
  rw [Reading.entries, marks_eq]
  cases isRead with
  | operator outside known =>
    obtain ⟨kind, found⟩ := Option.isSome_iff_exists.mp known
    rw [outside, Cut.role_clean_operator found]
    exact exists_entry_of_operator rfl _ more
  | letter inside unmarked =>
    rw [Cut.role_eq_letter_iff.mpr (.inl ⟨inside, unmarked⟩)]
    exact exists_entry_of_letter rfl _ more
  | escaped inside =>
    rw [Cut.role_eq_letter_iff.mpr (.inr inside)]
    exact exists_entry_of_letter rfl _ more
  | number begins =>
    rw [begins.outside, Cut.role_clean_digit begins.isDigit]
    exact exists_entry_of_digit rfl begins.first more

/-- No two entries have the same place. -/
theorem pairwise_position_ne (reading : Reading) :
    reading.entries.Pairwise fun first second => first.position ≠ second.position := by
  have sorted := sorted_marks reading
  have unflushed : ∀ mark ∈ ([] : List Mark), mark.isFlush = false := by simp
  have inOrder := pairwise_entriesFrom unflushed sorted
  refine inOrder.imp fun {first second} ordered equal => ?_
  rcases ordered with before | overtakes
  · rw [equal] at before
    exact Int.lt_irrefl _ before
  · have behind := overtakes.offset_lt sorted
    rw [equal] at behind
    exact Int.lt_irrefl _ behind

end Lexer

namespace Editor

/-! ## Instructions at a cursor -/

/-- An instruction was read at a cursor. -/
def IsAt (instruction : Instruction) (cursor : Cursor) : Prop :=
  instruction.position.line = cursor.line + 1 ∧
    instruction.position.column = cursor.character + 1

theorem isAt_iff
    {instruction : Instruction}
    {before : List Char}
    (position_eq : instruction.position = .after before)
    {cursor : Cursor} :
    IsAt instruction cursor ↔ cursor = .after before := by
  obtain ⟨line, character⟩ := cursor
  rw [IsAt, position_eq, Cursor.after, Cursor.mk.injEq]
  simp only [Position.after, Text.lastLine]
  omega

theorem instructionAt?_eq_some
    {program : Program}
    {cursor : Cursor}
    {instruction : Instruction}
    (found : instructionAt? program cursor = some instruction) :
    instruction ∈ program ∧ IsAt instruction cursor := by
  refine ⟨List.mem_of_find?_eq_some found, ?_⟩
  simpa [IsAt] using List.find?_some found

theorem isSome_instructionAt?_iff
    {program : Program}
    {cursor : Cursor} :
    (instructionAt? program cursor).isSome ↔ ∃ instruction ∈ program, IsAt instruction cursor := by
  simp [instructionAt?, IsAt]

section Accepted

variable {width : Width} {source : List Glyph} {program : Program}

/-- No two instructions of a text were read at the same cursor. -/
theorem index_eq_of_isAt
    (accepted : Program.ofSource width source = .ok program)
    {cursor : Cursor}
    {index index' : Nat}
    {first second : Instruction}
    (first_eq : program[index]? = some first)
    (second_eq : program[index']? = some second)
    (first_at : IsAt first cursor)
    (second_at : IsAt second cursor) :
    index = index' := by
  obtain ⟨text, -, -, entries_eq⟩ := Program.ofSource_eq_ok_iff.mp accepted
  have origin : ∀ instruction ∈ program, ∃ before, before <+: text ∧
      instruction.position = .after before := by
    intro instruction found
    obtain ⟨before, c, later, rfl, position_eq, -⟩ :=
      Lexer.exists_origin (entries_eq ▸ List.mem_map_of_mem found)
    exact ⟨before, List.prefix_append _ _, position_eq⟩
  obtain ⟨before, initial, position_eq⟩ := origin first (List.mem_of_getElem? first_eq)
  obtain ⟨before', initial', position_eq'⟩ := origin second (List.mem_of_getElem? second_eq)
  -- Both stand behind beginnings of the text, of which one begins the other.
  have same : first.position = second.position := by
    rw [IsAt, position_eq] at first_at
    rw [IsAt, position_eq'] at second_at
    have line_eq := first_at.1.trans second_at.1.symm
    have column_eq := first_at.2.trans second_at.2.symm
    rw [position_eq, position_eq']
    rcases List.prefix_or_prefix_of_prefix initial initial' with shorter | longer
    · rw [Position.eq_of_line_column shorter line_eq column_eq]
    · rw [Position.eq_of_line_column longer line_eq.symm column_eq.symm]
  have distinct : program.Pairwise fun first second => first.position ≠ second.position := by
    have entries_ne := Lexer.pairwise_position_ne (Lexer.Reading.of text)
    rw [← entries_eq, List.pairwise_map] at entries_ne
    exact entries_ne
  have apart : ∀ {index index' : Nat} {first second : Instruction},
      program[index]? = some first -> program[index']? = some second -> index < index' ->
        first.position ≠ second.position := by
    intro index index' first second first_eq second_eq earlier
    obtain ⟨inside, rfl⟩ := List.getElem?_eq_some_iff.mp first_eq
    obtain ⟨inside', rfl⟩ := List.getElem?_eq_some_iff.mp second_eq
    exact List.pairwise_iff_getElem.mp distinct index index' inside inside' earlier
  rcases Nat.lt_trichotomy index index' with earlier | equal | later
  · exact absurd same (apart first_eq second_eq earlier)
  · exact equal
  · exact absurd same.symm (apart second_eq first_eq later)

/-- Where an instruction stands. -/
theorem exists_origin_of_isAt
    {input : List UInt8}
    (accepted : Program.ofSource width (Glyph.decode input) = .ok program)
    {cursor : Cursor}
    {instruction : Instruction}
    (found : instruction ∈ program)
    (there : IsAt instruction cursor) :
    ∃ before c later, input = Text.utf8 (before ++ c :: later) ∧ cursor = .after before ∧
      Lexer.Origin before c later instruction := by
  obtain ⟨text, decoded, origins⟩ := Program.origins_of_ofSource accepted
  obtain ⟨-, before, c, later, rfl, position_eq, origin⟩ := origins instruction found
  exact ⟨before, c, later, Glyph.decode_eq_map_iff.mp decoded, (isAt_iff position_eq).mp there,
    origin⟩

/-- An instruction stands where one is read. -/
theorem exists_isAt
    {before : List Char}
    {c : Char}
    {later : List Char}
    (accepted : Program.ofSource width (Glyph.decode (Text.utf8 (before ++ c :: later))) =
      .ok program)
    (isRead : Lexer.IsRead before c) :
    ∃ instruction ∈ program, IsAt instruction (.after before) := by
  obtain ⟨text, decoded, -, entries_eq⟩ := Program.ofSource_eq_ok_iff.mp accepted
  rw [Glyph.decode_utf8] at decoded
  obtain rfl := Glyph.map_char_inj decoded
  obtain ⟨entry, found, position_eq⟩ := isRead.exists_entry later
  rw [← entries_eq, List.mem_map] at found
  obtain ⟨instruction, inProgram, rfl⟩ := found
  exact ⟨instruction, inProgram, (isAt_iff position_eq).mpr rfl⟩

end Accepted

/-- A hover shows the instruction that was read at the cursor. -/
theorem hover?_eq_some_iff
    {width : Width}
    {source : List Glyph}
    {cursor : Cursor}
    {shown : String} :
    hover? width source cursor = some shown ↔
      ∃ program, Program.ofSource width source = .ok program ∧
        ∃ instruction ∈ program, IsAt instruction cursor ∧ shown = describe instruction := by
  cases outcome : Program.ofSource width source with
  | error error => simp [hover?, outcome]
  | ok program =>
    have hover_eq : hover? width source cursor = (instructionAt? program cursor).map describe := by
      rw [hover?, outcome]
    rw [hover_eq, Option.map_eq_some_iff]
    constructor
    · rintro ⟨instruction, found, rfl⟩
      obtain ⟨inProgram, there⟩ := instructionAt?_eq_some found
      exact ⟨program, rfl, instruction, inProgram, there, rfl⟩
    · rintro ⟨other, accepted, instruction, inProgram, there, rfl⟩
      obtain rfl := Except.ok.inj accepted
      obtain ⟨first, found⟩ := Option.isSome_iff_exists.mp
        (isSome_instructionAt?_iff.mpr ⟨instruction, inProgram, there⟩)
      -- The first instruction at the cursor is the only one.
      obtain ⟨inProgram', there'⟩ := instructionAt?_eq_some found
      obtain ⟨index, at_index⟩ := List.getElem?_of_mem inProgram
      obtain ⟨index', at_index'⟩ := List.getElem?_of_mem inProgram'
      obtain rfl := index_eq_of_isAt outcome at_index at_index' there there'
      rw [at_index, Option.some.injEq] at at_index'
      exact ⟨first, found, by rw [at_index']⟩

/-! ## Descriptions -/

/-- The name of a kind and the two stars behind it have no blanks. -/
theorem isWord_starred (kind : Kind) : IsWord (kind.name ++ "**") where
  nonempty := by simp
  unbroken c found := by
    rw [String.toList_append, List.mem_append] at found
    rcases found with inName | star
    · exact kind.isWord_name.unbroken c inName
    · exact Text.unbroken_of_all (by decide) c star

/-- A number and the tick behind it have no blanks. -/
theorem isWord_ticked (number : Int) : IsWord (toString number ++ "`") where
  nonempty := by simp
  unbroken c found := by
    rw [String.toList_append, List.mem_append] at found
    rcases found with digit | tick
    · constructor <;> rintro rfl <;> exact not_mem_toString rfl (by decide) _ digit
    · exact Text.unbroken_of_all (by decide) c tick

/-- A heading has the name of the kind, and behind it the value of a push. -/
theorem exists_heading_eq (instruction : Instruction) :
    ∃ shown, heading instruction =
        "**" ++ (instruction.kind.name ++ "**") ++ " `" ++ (shown ++ "`") ∧
      (instruction.kind = .push -> shown = toString instruction.value.toInt) := by
  unfold heading
  split
  · next isPush =>
    refine ⟨toString instruction.value.toInt, ?_, fun _ => rfl⟩
    simp [isPush, Kind.name, ← String.append_assoc]
  · next notPush =>
    refine ⟨String.singleton (instruction.kind.symbol?.getD (Char.ofNat 0)), ?_,
      fun isPush => absurd isPush notPush⟩
    have stars : "** `" = "**" ++ " `" := by decide
    rw [stars]
    simp only [String.append_assoc]

/-- The words of a description: the name of the kind, and then the value of a push. -/
theorem exists_toList_describe (instruction : Instruction) :
    ∃ shown more, (describe instruction).toList =
        "**".toList ++ ((instruction.kind.name ++ "**").toList ++
          ' ' :: ("`".toList ++ ((shown ++ "`").toList ++ ' ' :: more))) ∧
      (instruction.kind = .push -> shown = toString instruction.value.toInt) := by
  obtain ⟨shown, heading_eq, value_eq⟩ := exists_heading_eq instruction
  refine ⟨shown, "(".toList ++ (instruction.kind.classOf.name ++ ")\n\n" ++
    instruction.kind.doc ++ "\n\n" ++ stackEffect instruction.kind).toList, ?_, value_eq⟩
  simp [describe, heading_eq]

/-- A description tells the kind of an instruction, and for a push its value. -/
theorem kind_value_of_describe_eq
    {first second : Instruction}
    (equal : describe first = describe second) :
    first.kind = second.kind ∧ (first.kind = .push -> first.value = second.value) := by
  obtain ⟨shown, more, described, value_eq⟩ := exists_toList_describe first
  obtain ⟨shown', more', described', value_eq'⟩ := exists_toList_describe second
  rw [equal, described'] at described
  obtain ⟨name_eq, rest_eq⟩ := (isWord_starred second.kind).append_inj (isWord_starred first.kind)
    (by simp) (by simp) (List.append_cancel_left described)
  have kind_eq : second.kind = first.kind :=
    Kind.name_injective ((String.append_left_inj "**").mp name_eq)
  refine ⟨kind_eq.symm, fun isPush => ?_⟩
  rw [value_eq isPush, value_eq' (kind_eq.trans isPush)] at rest_eq
  obtain ⟨number_eq, -⟩ := (isWord_ticked _).append_inj (isWord_ticked _) (by simp) (by simp)
    (List.append_cancel_left (List.cons.inj rest_eq).2)
  have digits_eq := toString_injective ((String.append_left_inj "`").mp number_eq)
  exact (Int64.toInt_inj.mp digits_eq).symm

/-! ## Hovers -/

/-- At most one instruction of a text was read at a cursor.  A hover shows it and nothing
else, and it does so exactly if the text is a program and the character at the cursor is
one at which an instruction is read.  What it shows tells the kind of the instruction, and
for a push the value. -/
theorem hover_describes_instruction
    (bytes : Int)
    (input : List UInt8)
    (cursor : Cursor) :
    (∀ program, Program.ofSource (.ofInt bytes) (Glyph.decode input) = .ok program ->
      ∀ (index index' : Nat) (first second : Instruction),
        program[index]? = some first -> program[index']? = some second ->
          IsAt first cursor -> IsAt second cursor -> index = index') ∧
    (∀ shown, hover? (.ofInt bytes) (Glyph.decode input) cursor = some shown ↔
      ∃ program, Program.ofSource (.ofInt bytes) (Glyph.decode input) = .ok program ∧
        ∃ instruction ∈ program, IsAt instruction cursor ∧ shown = describe instruction) ∧
    ((hover? (.ofInt bytes) (Glyph.decode input) cursor).isSome ↔
      (∃ program, Program.ofSource (.ofInt bytes) (Glyph.decode input) = .ok program) ∧
        ∃ before c later, input = Text.utf8 (before ++ c :: later) ∧
          cursor = .after before ∧ Lexer.IsRead before c) ∧
    (∀ program, Program.ofSource (.ofInt bytes) (Glyph.decode input) = .ok program ->
      ∀ instruction ∈ program, IsAt instruction cursor ->
        ∃ before c later, input = Text.utf8 (before ++ c :: later) ∧
          cursor = .after before ∧ Lexer.Origin before c later instruction) ∧
    ∀ first second, describe first = describe second ->
      first.kind = second.kind ∧ (first.kind = .push -> first.value = second.value) := by
  have shows_iff : ∀ shown, hover? (.ofInt bytes) (Glyph.decode input) cursor = some shown ↔
      ∃ program, Program.ofSource (.ofInt bytes) (Glyph.decode input) = .ok program ∧
        ∃ instruction ∈ program, IsAt instruction cursor ∧ shown = describe instruction :=
    fun _ => hover?_eq_some_iff
  refine ⟨?_, shows_iff, ?_, ?_, ?_⟩
  · intro program accepted index index' first second first_eq second_eq first_at second_at
    exact index_eq_of_isAt accepted first_eq second_eq first_at second_at
  · rw [Option.isSome_iff_exists]
    constructor
    · rintro ⟨shown, shows⟩
      obtain ⟨program, accepted, instruction, found, there, -⟩ := (shows_iff shown).mp shows
      obtain ⟨before, c, later, input_eq, cursor_eq, origin⟩ :=
        exists_origin_of_isAt accepted found there
      exact ⟨⟨program, accepted⟩, before, c, later, input_eq, cursor_eq, origin.isRead⟩
    · rintro ⟨⟨program, accepted⟩, before, c, later, rfl, rfl, isRead⟩
      obtain ⟨instruction, found, there⟩ := exists_isAt accepted isRead
      exact ⟨_, (shows_iff _).mpr ⟨program, accepted, instruction, found, there, rfl⟩⟩
  · intro program accepted instruction found there
    exact exists_origin_of_isAt accepted found there
  · intro first second equal
    exact kind_value_of_describe_eq equal

/-- A number with a string inside, of which the only letter is an escaped quote.  The
number is pushed behind the letter, and still shown at its first digit. -/
theorem hover_describes_instruction_aroundString :
    let input := Text.utf8 ['1', '"', '\\', '"', '"', '2', '+']
    let letter : Instruction :=
      { kind := .push, value := 34, position := { offset := 3, line := 1, column := 4 } }
    let number : Instruction :=
      { kind := .push, value := 12, position := { offset := 0, line := 1, column := 1 } }
    let sum : Instruction :=
      { kind := .add, value := 0, position := { offset := 6, line := 1, column := 7 } }
    Program.ofSource (.ofInt 1) (Glyph.decode input) = .ok [letter, number, sum] ∧
    IsAt number { line := 0, character := 0 } ∧
    hover? (.ofInt 1) (Glyph.decode input) { line := 0, character := 0 } =
      some (describe number) ∧
    (∀ (index : Nat) (other : Instruction), [letter, number, sum][index]? = some other ->
      IsAt other { line := 0, character := 0 } -> 1 = index) ∧
    (∃ before c later, input = Text.utf8 (before ++ c :: later) ∧
      { line := 0, character := 0 } = Cursor.after before ∧
      Lexer.Origin before c later number) ∧
    describe number = describe { number with position := .start } ∧
    number.kind = .push ∧
    number.value = 12 := by
  intro input letter number sum
  have accepted : Program.ofSource (.ofInt 1) (Glyph.decode input) =
      .ok [letter, number, sum] := by
    rw [Glyph.decode_utf8]
    rfl
  have there : IsAt number { line := 0, character := 0 } := ⟨rfl, rfl⟩
  have found : number ∈ [letter, number, sum] := .tail _ (.head _)
  obtain ⟨unique, shows, -, origin, described⟩ :=
    hover_describes_instruction 1 input { line := 0, character := 0 }
  refine ⟨accepted, there, (shows _).mpr ⟨_, accepted, number, found, there, rfl⟩, ?_,
    origin _ accepted number found there, rfl, rfl, ?_⟩
  · intro index other at_index other_there
    exact unique _ accepted 1 index number other rfl at_index there other_there
  · exact (described number { number with position := .start } rfl).2 rfl

end Editor
end GlyphStack
