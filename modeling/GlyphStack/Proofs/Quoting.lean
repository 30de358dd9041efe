import GlyphStack.Proofs.Faults

/-!
# Texts that print themselves

A text can be put into a program as a string: between quotes, with a backslash before
every quote and every backslash.  Followed by the operator that prints the stack as
text, the string is a program that prints the text.

Reading such a source gives one push for each character, and running the pushes leaves
the code points of the text on the stack.  Printing these gives the text again, but for
a byte-order mark at its start, which counts as a sign of the byte order and not as a
part of the text.
-/

namespace GlyphStack

namespace Lexer

/-- A character as it is spelled in a string. -/
def spelling (c : Char) : List Char :=
  if c = quoteMark ∨ c = escapeMark then [escapeMark, c] else [c]

/-- A text as a string of a source text. -/
def quoted (text : List Char) : List Char :=
  quoteMark :: text.flatMap spelling ++ [quoteMark]

/-- The letter of a string that stands for a character. -/
def Letter.of (c : Char) : Letter :=
  if special : c = quoteMark ∨ c = escapeMark then
    .escaped c
  else
    .plain c (not_or.mp special)

/-- The letter that a role stands for. -/
def Role.letter? : Role -> Option Char
  | .letter c => some c
  | _ => none

theorem Letter.text_of (c : Char) : (of c).roles.map Prod.fst = spelling c := by
  by_cases special : c = quoteMark ∨ c = escapeMark
  · rw [of, dif_pos special, spelling, if_pos special]
    rfl
  · rw [of, dif_neg special, spelling, if_neg special]
    rfl

theorem Letter.letters_of (c : Char) :
    (of c).roles.filterMap (fun pair => pair.2.letter?) = [c] := by
  by_cases special : c = quoteMark ∨ c = escapeMark
  · rw [of, dif_pos special]
    rfl
  · rw [of, dif_neg special]
    rfl

/-- The reading of a quoted text with the operator that prints it. -/
def Reading.printing (text : List Char) : Reading where
  pieces := [.string (text.map .of), .bare 's' (by decide)]
  cut := .clean

theorem Reading.text_printing (text : List Char) :
    (printing text).text = quoted text ++ ['s'] := by
  have letters : ((text.map Letter.of).flatMap Letter.roles).map Prod.fst =
      text.flatMap spelling := by
    simp only [List.flatMap_map, List.map_flatMap, Letter.text_of]
  simp [Reading.text, roles, printing, Piece.roles, Cut.roles, quoted, letters]

/-! ## Chunks of strings -/

theorem exists_role_of_mem_marksFrom
    {before : List Char}
    {roles : List (Char × Role)}
    {mark : Mark}
    (listed : mark ∈ marksFrom before roles) :
    ∃ pair ∈ roles, mark.role = pair.2 := by
  induction roles generalizing before with
  | nil => simp [marksFrom] at listed
  | cons pair roles inductionHypothesis =>
    rcases List.mem_cons.mp listed with rfl | later
    · exact ⟨pair, .head roles, rfl⟩
    · obtain ⟨other, found, role_eq⟩ := inductionHypothesis later
      exact ⟨other, .tail pair found, role_eq⟩

theorem Mark.letter?_eq (mark : Mark) :
    mark.letter? = mark.role.letter?.map fun c =>
      { kind := .push, value := c.toNat, position := mark.position } := by
  unfold letter? Role.letter?
  cases mark.role <;> rfl

/-- The letters among some roles are pushed in their order. -/
theorem filterMap_letter?_marksFrom
    (before : List Char)
    (roles : List (Char × Role)) :
    ((marksFrom before roles).filterMap Mark.letter?).map (fun entry => (entry.kind, entry.value)) =
      (roles.filterMap fun pair => pair.2.letter?).map fun c => (.push, (c.toNat : Int)) := by
  induction roles generalizing before with
  | nil => rfl
  | cons pair roles inductionHypothesis =>
    obtain ⟨c, role⟩ := pair
    rw [marksFrom, List.filterMap_cons, List.filterMap_cons, Mark.letter?_eq]
    cases role.letter? <;> simp [inductionHypothesis]

/-- A string followed by an operator gives its letters and the operator. -/
theorem entriesFrom_letters_operator
    (before : List Char)
    {roles : List (Char × Role)}
    (unflushed : ∀ pair ∈ roles, pair.2 = .silent ∨ ∃ c, pair.2 = .letter c)
    (c : Char)
    (kind : Kind) :
    (entriesFrom [] (marksFrom before (roles ++ [(c, .operator kind)]))).map
        (fun entry => (entry.kind, entry.value)) =
      ((roles.filterMap fun pair => pair.2.letter?).map fun c => (.push, (c.toNat : Int))) ++
        [(kind, 0)] := by
  have inString : ∀ mark ∈ marksFrom before roles,
      mark.isFlush = false ∧ mark.digit? = none := by
    intro mark listed
    obtain ⟨pair, found, role_eq⟩ := exists_role_of_mem_marksFrom listed
    rcases unflushed pair found with silent | ⟨letter, isLetter⟩
    · simp [Mark.isFlush, Mark.digit?, role_eq, silent]
    · simp [Mark.isFlush, Mark.digit?, role_eq, isLetter]
  have noFlush : ∀ mark ∈ marksFrom before roles, mark.isFlush = false :=
    fun mark listed => (inString mark listed).1
  have noDigit : ∀ mark ∈ marksFrom before roles, mark.digit? = none :=
    fun mark listed => (inString mark listed).2
  rw [marksFrom_append, entriesFrom_append, settled_of_forall noFlush,
    sinceFlush_of_forall noFlush, List.nil_append, ← filterMap_letter?_marksFrom before roles]
  simpa [marksFrom, entriesFrom, Mark.isFlush, Mark.operator?, settle, number?] using noDigit

/-! ## Quoted texts -/

theorem Letter.roles_cases
    {letter : Letter}
    {pair : Char × Role}
    (found : pair ∈ letter.roles) :
    pair.2 = .silent ∨ ∃ c, pair.2 = .letter c := by
  cases letter with
  | plain c ordinary =>
    rw [roles, List.mem_singleton] at found
    exact .inr ⟨c, by rw [found]⟩
  | escaped c =>
    rw [roles, List.mem_pair] at found
    rcases found with rfl | rfl
    · exact .inl rfl
    · exact .inr ⟨c, rfl⟩

theorem Piece.roles_string_cases
    {body : List Letter}
    {pair : Char × Role}
    (found : pair ∈ (Piece.string body).roles) :
    pair.2 = .silent ∨ ∃ c, pair.2 = .letter c := by
  simp only [roles, List.cons_append, List.mem_cons, List.mem_append, List.mem_flatMap,
    List.not_mem_nil, or_false] at found
  rcases found with rfl | ⟨letter, -, found⟩ | rfl
  · exact .inl rfl
  · exact letter.roles_cases found
  · exact .inl rfl

/-- The letters of a quoted text are its characters. -/
theorem Piece.letters_string_of
    (text : List Char) :
    (Piece.string (text.map .of)).roles.filterMap (fun pair => pair.2.letter?) = text := by
  have letters : ((text.map Letter.of).flatMap Letter.roles).filterMap
      (fun pair => pair.2.letter?) = text := by
    simp [List.flatMap_map, List.filterMap_flatMap, Letter.letters_of]
  rw [roles, List.cons_append, List.filterMap_cons, List.filterMap_append, letters]
  simp [Role.letter?]

theorem Reading.roles_printing
    (text : List Char) :
    (printing text).roles =
      (Piece.string (text.map .of)).roles ++ [('s', .operator .toText)] := by
  have role_eq : Role.ofBare 's' = .operator .toText := by decide
  simp [printing, roles, Cut.roles, Piece.roles, role_eq]

end Lexer

/-- The standard width has room for every character. -/
theorem Width.codePoint_le_largest (c : Char) :
    (Int64.ofNat c.toNat).toInt ≤ standard.largest := by
  have small := Utf32.toNat_lt c
  have largest_eq : standard.largest = 0x100000000 := by decide
  rw [Lexer.toInt_codePoint, largest_eq]
  omega

theorem Width.check_codePoint (c : Char) : standard.check (.ofNat c.toNat) = .ok () := by
  refine check_of_le ?_ (codePoint_le_largest c)
  rw [Lexer.toInt_codePoint]
  exact Int.natCast_nonneg c.toNat

/-! ## Programs that print a text -/

/-- The code points of a text. -/
def Text.codePoints (text : List Char) : List Int64 :=
  text.map fun c => .ofNat c.toNat

namespace Program

open Lexer (Reading quoted)

/-- A quoted text with the operator that prints it is accepted: it pushes the code
points of the text and prints them. -/
theorem ofSource_quoted
    (text : List Char) :
    ∃ program,
      ofSource .standard (Glyph.decode (Text.utf8 (quoted text ++ ['s']))) = .ok program ∧
      program.map (fun instruction => (instruction.kind, instruction.value)) =
        (Text.codePoints text).map (.push, ·) ++ [(.toText, 0)] := by
  have reading_eq : Reading.of (quoted text ++ ['s']) = .printing text := by
    rw [← Reading.text_printing, Reading.of_text]
  apply ofSource_of_entries
  · rw [reading_eq]
    refine Reading.grammatical_of_roles fun pair found => ?_
    rw [Reading.roles_printing, List.mem_append, List.mem_singleton] at found
    rcases found with found | rfl
    · rcases Lexer.Piece.roles_string_cases found with silent | ⟨c, isLetter⟩
      · simp [silent]
      · simp [isLetter]
    · simp
  · rw [reading_eq, Reading.entries, Reading.marks, Reading.roles_printing,
      Lexer.entriesFrom_letters_operator [] fun _ => Lexer.Piece.roles_string_cases,
      Lexer.Piece.letters_string_of]
    simp only [Text.codePoints, List.map_append, List.map_map, Function.comp_def,
      Lexer.toInt_codePoint]
    rfl
  · intro content listed
    rw [Text.codePoints, List.map_map, List.mem_append, List.mem_map, List.mem_singleton]
      at listed
    rcases listed with ⟨c, -, rfl⟩ | rfl
    · exact Width.codePoint_le_largest c
    · decide

end Program

namespace Utf32

/-- The code point of a character stands for it. -/
theorem character?_codePoint (c : Char) : Effect.character? (.ofNat c.toNat) = some c := by
  have value_eq := Lexer.toInt_codePoint c
  have nonneg : ¬ Int64.ofNat c.toNat < 0 := by
    rw [Int64.lt_iff_toInt_lt, value_eq]
    simp
  have valid : (Int64.ofNat c.toNat).toInt.toNat.isValidChar := by
    rw [value_eq]
    exact c.valid
  rw [Effect.character?, if_neg nonneg, dif_pos valid, Option.some.injEq, ← Char.toNat_inj]
  change (Int64.ofNat c.toNat).toInt.toNat = c.toNat
  rw [value_eq, Int.toNat_natCast]

/-- The code points of a text stand for it. -/
theorem characters_codePoints (text : List Char) :
    Effect.characters (Text.codePoints text) = .ok text := by
  induction text with
  | nil => rfl
  | cons c text inductionHypothesis =>
    rw [Text.codePoints] at inductionHypothesis ⊢
    rw [List.map_cons, Effect.characters, character?_codePoint]
    simp [inductionHypothesis, bind, Except.bind, pure, Except.pure]

end Utf32

/-- A text without a byte-order mark at its start. -/
def Text.unmarked (text : List Char) : List Char :=
  if text.head? = some Effect.byteOrderMark then text.tail else text

theorem Effect.textOf_eq (text : List Char) :
    textOf text = String.ofList (Text.unmarked text) := by
  cases text with
  | nil => rfl
  | cons c rest =>
    by_cases isMark : c = byteOrderMark
    · rw [textOf, Text.unmarked, if_pos isMark, if_pos (by simp [isMark])]
      rfl
    · rw [textOf, Text.unmarked, if_neg isMark, if_neg (by simpa using isMark)]

namespace Engine

/-- The state after values were pushed and nothing else was done. -/
def State.holding
    (width : Width)
    (values : List Int64) : State where
  machine := { Machine.new width with stack := { topDown := values.reverse } }
  frames := []
  index := values.length
  steps := values.length
  output := ""
  offered := []

theorem Memory.perform_push
    {instruction : Instruction}
    {memory : Memory}
    (isPush : instruction.kind = .push)
    (checked : memory.width.check instruction.value = .ok ())
    (sink : Sink) :
    memory.perform sink instruction =
      ({ memory with stack := memory.stack.push instruction.value }, none) := by
  rw [perform, plainAction_effect (by simp [isPush]) (by simp [isPush]),
    Effect.apply_push _ isPush]
  simp [machine, checked, ofMachine]

theorem Memory.perform_toText
    {instruction : Instruction}
    {memory : Memory}
    {text : List Char}
    {sink : Sink}
    (isToText : instruction.kind = .toText)
    (read : Effect.characters memory.stack.toList = .ok text)
    (accepted : sink.accepts memory.offered (Effect.textOf text) = true) :
    memory.perform sink instruction =
      ({ memory with
          output := memory.output ++ Effect.textOf text,
          offered := Effect.textOf text :: memory.offered }, none) := by
  rw [perform, plainAction_effect (by simp [isToText]) (by simp [isToText]),
    Effect.apply_toText _ isToText]
  simp [machine, read, accepted, ofMachine]

/-- Pushes at the start of a program pile up their values. -/
theorem run_pushes
    (sink : Sink)
    {width : Width}
    {pushes : List Instruction}
    (pushing : ∀ instruction ∈ pushes,
      instruction.kind = .push ∧ width.check instruction.value = .ok ())
    (rest : Program)
    (limit : Nat) :
    (State.initial width).run sink (pushes ++ rest) (pushes.length + limit) =
      (State.holding width (pushes.map (·.value))).run sink (pushes ++ rest) limit := by
  -- From the end, because the last push finds what the others left behind.
  induction pushes using List.reverseRecOn generalizing rest limit with
  | nil => simp [State.holding, State.initial, Machine.new, Stack.empty]
  | append_singleton pushes last inductionHypothesis =>
    obtain ⟨isPush, checked⟩ := pushing last (by simp)
    have earlier := inductionHypothesis
      (fun other found => pushing other (List.mem_append_left _ found)) (last :: rest) (limit + 1)
    rw [List.append_assoc, List.singleton_append, List.length_append, List.length_singleton,
      Nat.add_assoc, Nat.add_comm 1 limit, earlier]
    rw [run_plain (by simp [State.holding]) rfl (by simp [isPush, Kind.isPlain])
      (Memory.perform_push isPush checked sink)]
    simp [State.holding, State.advance, State.withMemory, Memory.machine, State.memory,
      Memory.ofMachine, Stack.push, Machine.new]

/-- The state after code points were printed as a text. -/
def State.printed
    (width : Width)
    (values : List Int64)
    (output : String) : State :=
  { (holding width values).advance with output := output, offered := [output] }

/-- A program whose last instruction prints the stack as text ends with it. -/
theorem run_holding_toText
    {sink : Sink}
    {program : Program}
    {width : Width}
    {values : List Int64}
    {text : List Char}
    {last : Instruction}
    (found : program[values.length]? = some last)
    (isToText : last.kind = .toText)
    (past : program[values.length + 1]? = none)
    (read : Effect.characters values = .ok text)
    (accepted : sink.accepts [] (Effect.textOf text) = true)
    (limit : Nat) :
    (State.holding width values).run sink program (limit + 1) =
      (.printed width values (Effect.textOf text), .finished) := by
  have readStack : Effect.characters (State.holding width values).memory.stack.toList =
      .ok text := by
    rw [← read]
    exact congrArg _ values.reverse_reverse
  have performed := Memory.perform_toText isToText readStack accepted
  rw [run_plain found rfl (by simp [isToText, Kind.isPlain]) performed, run_past past]
  simp [State.printed, State.holding, State.advance, State.withMemory, Memory.machine,
    State.memory, Memory.ofMachine]

/-- Code points are pushed, and then printed as a text. -/
theorem run_pushes_toText
    {sink : Sink}
    {program : Program}
    {text : List Char}
    (program_eq : program.map (fun instruction => (instruction.kind, instruction.value)) =
      (Text.codePoints text).map (.push, ·) ++ [(.toText, 0)])
    (accepted : sink.accepts [] (Effect.textOf text) = true)
    (limit : Nat) :
    (State.initial .standard).run sink program (text.length + (limit + 1)) =
      (.printed .standard (Text.codePoints text) (Effect.textOf text), .finished) := by
  obtain ⟨pushes, others, rfl, pushes_eq, others_eq⟩ := List.map_eq_append_iff.mp program_eq
  obtain ⟨last, rfl, last_eq⟩ := List.map_eq_singleton_iff.mp others_eq
  have values_eq : pushes.map (·.value) = Text.codePoints text := by
    simpa [Function.comp_def] using congrArg (List.map Prod.snd) pushes_eq
  have length_eq : pushes.length = text.length := by
    simpa [Text.codePoints] using congrArg List.length pushes_eq
  have pushing : ∀ instruction ∈ pushes, instruction.kind = .push ∧
      Width.standard.check instruction.value = .ok () := by
    intro instruction inPushes
    have listed : (instruction.kind, instruction.value) ∈
        (Text.codePoints text).map (Kind.push, ·) := by
      rw [← pushes_eq]
      exact List.mem_map_of_mem inPushes
    rw [Text.codePoints, List.map_map, List.mem_map] at listed
    obtain ⟨c, -, equal⟩ := listed
    obtain ⟨isPush, value_eq⟩ := Prod.mk.inj equal
    refine ⟨isPush.symm, ?_⟩
    rw [← value_eq]
    exact Width.check_codePoint c
  have isToText : last.kind = .toText := congrArg Prod.fst last_eq
  rw [← length_eq, run_pushes sink pushing, values_eq]
  exact run_holding_toText (by simp [← values_eq]) isToText (by simp [← values_eq])
    (Utf32.characters_codePoints text) accepted limit

/-- Any text can be quoted and printed back.  The text between quotes, with a backslash
before every quote and every backslash, followed by the operator that prints the stack
as text, is accepted at the standard width.  The program finishes, as soon as it may run
one instruction more than the text has characters, and leaves the code points of the
text on the stack.  It prints the text, but for a byte-order mark at its start, and this
is what every decoder that honors such marks makes of the packed stack. -/
theorem quoted_text_prints_itself
    (text : List Char) :
    ∃ program,
      Program.ofSource .standard
        (Glyph.decode (Text.utf8 (Lexer.quoted text ++ ['s']))) = .ok program ∧
      ∀ (sink : Sink) (id : String),
        sink.accepts [] (.ofList (Text.unmarked text)) = true ->
        ∃ final : State,
          (∀ limit, text.length < limit ->
            (Engine.new .standard).run sink limit id program =
              ((Engine.new .standard).afterRun sink program
                  { id := id, state := final, failure := none },
                .finished)) ∧
          Text.toBytes final.output = Text.utf8 (Text.unmarked text) ∧
          final.machine.stack.toList.map Int64.toInt = text.map (fun c => (c.toNat : Int)) ∧
          ∀ decode?, Utf32.Honors decode? ->
            decode? (Utf32.pack final.machine.stack.toList) = some (Text.unmarked text) := by
  obtain ⟨program, accepted, program_eq⟩ := Program.ofSource_quoted text
  refine ⟨program, accepted, fun sink id taken => ?_⟩
  rw [← Effect.textOf_eq] at taken
  have stack_eq : (State.printed .standard (Text.codePoints text)
      (Effect.textOf text)).machine.stack.toList = Text.codePoints text :=
    List.reverse_reverse _
  refine ⟨.printed .standard (Text.codePoints text) (Effect.textOf text), ?_, ?_, ?_, ?_⟩
  · intro limit enough
    obtain ⟨spare, rfl⟩ := Nat.exists_eq_add_of_lt enough
    have ran : (State.initial .standard).run sink program (text.length + spare + 1) =
        (_, .ofFailure none) := run_pushes_toText program_eq taken spare
    exact run_of_ofFailure ran id
  · rw [State.printed, Effect.textOf_eq, Text.toBytes, String.toList_ofList]
    rfl
  · rw [stack_eq, Text.codePoints, List.map_map]
    exact List.map_congr_left fun c _ => Lexer.toInt_codePoint c
  · intro decode? honors
    rw [stack_eq, honors.decode?_pack (Utf32.characters_codePoints text), Effect.textOf_eq,
      String.toList_ofList]

/-- A mark, a quote, a backslash, a newline and the character that opens comments. -/
theorem quoted_text_prints_itself_marked :
    Lexer.quoted ['\ufeff', '\x22', '\x5c', '\n', '#'] ++ ['s'] =
      ['\x22', '\ufeff', '\x5c', '\x22', '\x5c', '\x5c', '\n', '#', '\x22', 's'] ∧
    ∃ program final,
      Program.ofSource .standard (Glyph.decode (Text.utf8
        ['\x22', '\ufeff', '\x5c', '\x22', '\x5c', '\x5c', '\n', '#', '\x22', 's'])) =
          .ok program ∧
      (Engine.new .standard).run (.limited 4) 6 "hard" program =
        ((Engine.new .standard).afterRun (.limited 4) program
            { id := "hard", state := final, failure := none }, .finished) ∧
      Text.toBytes final.output = [0x22, 0x5C, 0x0A, 0x23] ∧
      final.machine.stack.toList.map Int64.toInt = [0xFEFF, 0x22, 0x5C, 0x0A, 0x23] ∧
      Utf32.strict? (Utf32.pack final.machine.stack.toList) =
        some ['\x22', '\x5c', '\n', '#'] := by
  have quoted_eq : Lexer.quoted ['\ufeff', '\x22', '\x5c', '\n', '#'] ++ ['s'] =
      ['\x22', '\ufeff', '\x5c', '\x22', '\x5c', '\x5c', '\n', '#', '\x22', 's'] := by
    decide
  obtain ⟨program, accepted, runs⟩ :=
    quoted_text_prints_itself ['\ufeff', '\x22', '\x5c', '\n', '#']
  obtain ⟨final, finished, output_eq, stack_eq, decoded⟩ := runs (.limited 4) "hard" (by decide)
  refine ⟨quoted_eq, program, final, quoted_eq ▸ accepted, finished 6 (by decide), ?_, ?_, ?_⟩
  · rw [output_eq]
    decide
  · rw [stack_eq]
    decide
  · rw [decoded Utf32.strict? Utf32.honors_strict?]
    decide

end Engine

end GlyphStack
