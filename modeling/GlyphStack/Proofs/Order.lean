import GlyphStack.Proofs.Origins

/-!
# The order of a text and of its program

Instructions follow each other in the order in which they are written, with one
exception.  A string does not end the number in front of it, so a number is
pushed after all letters that stand between its first digit and the character
that ends it.  The main result says that this is the only exception: offsets
increase along a program exactly if no letter stands inside a number.
-/

namespace GlyphStack

@[simp] theorem Position.offset_advance
    (position : Position)
    (bytes : Nat)
    (newline : Bool) :
    (position.advance bytes newline).offset = position.offset + bytes := by
  unfold advance
  split <;> rfl

namespace Lexer

/-! ## Marks in order -/

theorem offset_le_of_mem_marksFrom
    {before : List Char}
    {roles : List (Char × Role)}
    {mark : Mark}
    (found : mark ∈ marksFrom before roles) :
    (Position.after before).offset ≤ mark.position.offset := by
  induction roles generalizing before with
  | nil => cases found
  | cons pair roles inductionHypothesis =>
    rcases List.mem_cons.mp found with rfl | later
    · exact Int.le_refl _
    · have rest := inductionHypothesis later
      rw [Position.after_concat, Position.offset_advance] at rest
      omega

/-- Marks stand in the order of their offsets. -/
theorem marksFrom_sorted
    (before : List Char)
    (roles : List (Char × Role)) :
    (marksFrom before roles).Pairwise fun first second =>
      first.position.offset < second.position.offset := by
  induction roles generalizing before with
  | nil => exact .nil
  | cons pair roles inductionHypothesis =>
    refine .cons (fun mark later => ?_) (inductionHypothesis _)
    have behind := offset_le_of_mem_marksFrom later
    have advanced := pair.1.utf8Size_pos
    rw [Position.after_concat, Position.offset_advance] at behind
    dsimp only
    omega

/-! ## Entries in order -/

/-- The first entry is a letter that stands inside the number which the second
entry pushes. -/
def Overtakes (marks : List Mark) (first second : Entry) : Prop :=
  ∃ front letter back pending, marks = front ++ letter :: back ∧
    letter.letter? = some first ∧ number? (sinceFlush front) = some pending ∧
    second.kind = .push ∧ second.position = pending.position

/-- Two entries stand in the order of their offsets, unless a letter overtakes a
number. -/
def InOrder (marks : List Mark) (first second : Entry) : Prop :=
  first.position.offset < second.position.offset ∨ Overtakes marks first second

/-- More marks in front, with an end of a number between, change nothing. -/
theorem InOrder.append_front
    {marks : List Mark}
    {first second : Entry}
    {flush : Mark}
    (inOrder : InOrder marks first second)
    (flushes : flush.isFlush = true)
    (earlier : List Mark) :
    InOrder (earlier ++ flush :: marks) first second := by
  rcases inOrder with before | ⟨front, letter, back, pending, rfl, isLetter, number, overtaken⟩
  · exact .inl before
  · refine .inr ⟨earlier ++ flush :: front, letter, back, pending, by simp, isLetter, ?_, overtaken⟩
    rw [sinceFlush_append_cons flushes, number]

theorem InOrder.append_back
    {marks : List Mark}
    {first second : Entry}
    (inOrder : InOrder marks first second)
    (later : List Mark) :
    InOrder (marks ++ later) first second := by
  rcases inOrder with before | ⟨front, letter, back, pending, rfl, overtaking⟩
  · exact .inl before
  · exact .inr ⟨front, letter, back ++ later, pending, by simp, overtaking⟩

theorem number?_append_cons
    {front : List Mark}
    {mark : Mark}
    (none : number? front = none)
    (isDigit : mark.digit?.isSome)
    (back : List Mark) :
    ∃ entry, number? (front ++ mark :: back) = some entry ∧ entry.kind = .push ∧
      entry.position = mark.position := by
  have silent : front.find? (fun mark => mark.digit?.isSome) = .none := by
    rwa [number?, Option.map_eq_none_iff] at none
  simp [number?, List.find?_append, silent, isDigit]

/-- Within a chunk letters are in order, and the number comes behind them all. -/
theorem pairwise_settle
    {chunk : List Mark}
    (unflushed : ∀ mark ∈ chunk, mark.isFlush = false)
    (sorted : chunk.Pairwise fun first second =>
      first.position.offset < second.position.offset) :
    (settle chunk).Pairwise (InOrder chunk) := by
  refine List.pairwise_append.mpr ⟨?_, ?_, ?_⟩
  · refine List.Pairwise.filterMap _ (fun first second before entry found other found' => ?_) sorted
    obtain ⟨letter, -, rfl⟩ := Mark.letter?_eq_some found
    obtain ⟨letter', -, rfl⟩ := Mark.letter?_eq_some found'
    exact .inl before
  · cases number? chunk <;> simp
  · intro letterEntry given numberEntry isNumber
    obtain ⟨letter, inChunk, isLetter⟩ := List.mem_filterMap.mp given
    obtain ⟨front, digit, back, rfl, isDigit, first, rfl⟩ :=
      exists_of_number?_eq_some (by simpa using isNumber)
    obtain ⟨c, role_eq, rfl⟩ := Mark.letter?_eq_some isLetter
    rcases List.mem_append.mp inChunk with inFront | inBack
    · exact .inl ((List.pairwise_append.mp sorted).2.2 _ inFront _ (List.mem_cons_self ..))
    · rcases List.mem_cons.mp inBack with rfl | inBack
      · simp [Mark.digit?, role_eq] at isDigit
      · -- The letter stands behind the first digit, so the number is pending there.
        obtain ⟨inside, later, rfl⟩ := List.append_of_mem inBack
        obtain ⟨pending, number, -, position_eq⟩ := number?_append_cons first isDigit inside
        refine .inr ⟨front ++ digit :: inside, letter, later, pending, by simp, isLetter, ?_, rfl,
          position_eq.symm⟩
        rw [sinceFlush_of_forall, number]
        intro mark found
        refine unflushed mark ?_
        rw [← List.cons_append, ← List.append_assoc]
        exact List.mem_append_left _ found

/-- What a chunk gives has its place in the chunk. -/
theorem exists_mark_of_mem_settle
    {chunk : List Mark}
    (unflushed : ∀ mark ∈ chunk, mark.isFlush = false)
    {entry : Entry}
    (found : entry ∈ settle chunk) :
    ∃ mark ∈ chunk, entry.position = mark.position := by
  obtain ⟨front, mark, back, rfl, gives⟩ :=
    exists_gives_of_mem_settle unflushed (show untilFlush [] = [] from rfl) found
  exact ⟨mark, by simp, gives.position_eq⟩

/-- What some marks give has its place at one of them. -/
theorem exists_mark_of_mem_entriesFrom
    {marks : List Mark}
    {entry : Entry}
    (found : entry ∈ entriesFrom [] marks) :
    ∃ mark ∈ marks, entry.position = mark.position := by
  obtain ⟨front, mark, back, split, gives⟩ := exists_gives_of_mem_entriesFrom (by simp) found
  rw [List.nil_append] at split
  exact ⟨mark, by simp [split], gives.position_eq⟩

/-- The program of a chunk and what follows it is in order. -/
theorem pairwise_entriesFrom
    {chunk rest : List Mark}
    (unflushed : ∀ mark ∈ chunk, mark.isFlush = false)
    (sorted : (chunk ++ rest).Pairwise fun first second =>
      first.position.offset < second.position.offset) :
    (entriesFrom chunk rest).Pairwise (InOrder (chunk ++ rest)) := by
  induction rest generalizing chunk with
  | nil =>
    rw [List.append_nil] at sorted ⊢
    exact pairwise_settle unflushed sorted
  | cons next rest inductionHypothesis =>
    cases flushes : next.isFlush with
    | false =>
      have extended : ∀ mark ∈ chunk ++ [next], mark.isFlush = false := by
        simpa [or_imp, forall_and] using ⟨unflushed, flushes⟩
      have split : chunk ++ next :: rest = (chunk ++ [next]) ++ rest := by simp
      rw [split] at sorted ⊢
      simpa [entriesFrom, flushes] using inductionHypothesis extended sorted
    | true =>
      obtain ⟨sorted_chunk, sorted_rest, across⟩ := List.pairwise_append.mp sorted
      obtain ⟨behind, sorted_rest⟩ := List.pairwise_cons.mp sorted_rest
      have operator_at : ∀ entry ∈ next.operator?.toList, entry.position = next.position := by
        intro entry found
        obtain ⟨kind, -, rfl⟩ := Mark.operator?_eq_some (by simpa using found)
        rfl
      rw [entriesFrom, if_pos flushes]
      refine List.pairwise_append.mpr ⟨List.pairwise_append.mpr ⟨?_, ?_, ?_⟩, ?_, ?_⟩
      · exact (pairwise_settle unflushed sorted_chunk).imp fun inOrder =>
          inOrder.append_back (next :: rest)
      · cases next.operator? <;> simp
      · intro first isSettled second isOperator
        obtain ⟨mark, inChunk, position_eq⟩ := exists_mark_of_mem_settle unflushed isSettled
        refine .inl ?_
        rw [position_eq, operator_at second isOperator]
        exact across mark inChunk next (List.mem_cons_self ..)
      · have unflushed_nil : ∀ mark ∈ ([] : List Mark), mark.isFlush = false := by simp
        have later := inductionHypothesis unflushed_nil sorted_rest
        exact later.imp fun inOrder => inOrder.append_front flushes chunk
      · intro first isEarlier second isLater
        obtain ⟨mark, inRest, position_eq⟩ := exists_mark_of_mem_entriesFrom isLater
        refine .inl ?_
        rw [position_eq]
        rcases List.mem_append.mp isEarlier with isSettled | isOperator
        · obtain ⟨earlier, inChunk, position_eq⟩ := exists_mark_of_mem_settle unflushed isSettled
          rw [position_eq]
          exact across earlier inChunk mark (List.mem_cons_of_mem _ inRest)
        · rw [operator_at first isOperator]
          exact behind mark inRest

/-- A letter inside a number does overtake it in the program. -/
theorem exists_overtaken
    {front : List Mark}
    {letter : Mark}
    {entry pending : Entry}
    (isLetter : letter.letter? = some entry)
    (number : number? (sinceFlush front) = some pending)
    (back : List Mark) :
    ∃ overtaken, Overtakes (front ++ letter :: back) entry overtaken ∧
      [entry, overtaken].Sublist (entriesFrom [] (front ++ letter :: back)) := by
  have noFlush : letter.isFlush = false := by
    obtain ⟨c, role_eq, -⟩ := Mark.letter?_eq_some isLetter
    simp [Mark.isFlush, role_eq]
  obtain ⟨before, digit, inside, split, isDigit, first, pending_eq⟩ :=
    exists_of_number?_eq_some number
  obtain ⟨overtaken, isNumber, isPush, position_eq⟩ :=
    number?_append_cons first isDigit (inside ++ untilFlush (letter :: back))
  refine ⟨overtaken, ⟨front, letter, back, pending, rfl, isLetter, number, isPush, ?_⟩, ?_⟩
  · rw [position_eq, pending_eq]
  -- Both are in the chunk that is open at the letter: first the letters, then the number.
  rw [← List.cons_append, ← List.append_assoc, ← split] at isNumber
  have settled : [entry, overtaken].Sublist
      (settle (sinceFlush front ++ untilFlush (letter :: back))) := by
    rw [settle, isNumber]
    refine List.Sublist.append (List.singleton_sublist.mpr ?_) (List.Sublist.refl [overtaken])
    refine List.mem_filterMap.mpr ⟨letter, ?_, isLetter⟩
    rw [untilFlush_cons noFlush]
    simp
  rw [entriesFrom_append]
  exact (settled.trans (settle_prefix_entriesFrom _ _).sublist).trans
    (List.sublist_append_right _ _)

/-- The number begins before the letter that stands inside it. -/
theorem Overtakes.offset_lt
    {marks : List Mark}
    {first second : Entry}
    (overtakes : Overtakes marks first second)
    (sorted : marks.Pairwise fun first second =>
      first.position.offset < second.position.offset) :
    second.position.offset < first.position.offset := by
  obtain ⟨front, letter, back, pending, rfl, isLetter, number, -, position_eq⟩ := overtakes
  obtain ⟨before, digit, inside, split, -, -, rfl⟩ := exists_of_number?_eq_some number
  obtain ⟨c, -, rfl⟩ := Mark.letter?_eq_some isLetter
  have inChunk : digit ∈ sinceFlush front := by simp [split]
  have inFront : digit ∈ front := (List.rtakeWhile_suffix _ front).subset inChunk
  rw [position_eq]
  exact (List.pairwise_append.mp sorted).2.2 digit inFront letter (List.mem_cons_self ..)

/-! ## Instructions in order -/

/-- No letter of a string stands inside a number: wherever a letter stands, no
number is being read. -/
def Uninterrupted (text : List Char) : Prop :=
  ∀ before c later, text = before ++ c :: later ->
    (Reading.of before).cut.role c = .letter c -> (Reading.of before).pending? = none

/-- One instruction is a letter that stands inside the number which the other
pushes. -/
def Interrupts (text : List Char) (letter number : Instruction) : Prop :=
  ∃ before c later pending, text = before ++ c :: later ∧
    (Reading.of before).cut.role c = .letter c ∧
    letter.kind = .push ∧ letter.value.toInt = c.toNat ∧ letter.position = .after before ∧
    (Reading.of before).pending? = some pending ∧
    number.kind = .push ∧ number.position = pending.position

theorem interrupts_of_overtakes
    {text : List Char}
    {first second : Instruction}
    (overtakes : Overtakes (Reading.of text).marks first.entry second.entry) :
    Interrupts text first second := by
  obtain ⟨front, letter, back, pending, split, isLetter, number, overtaken⟩ := overtakes
  obtain ⟨before, c, later, rfl, rfl, rfl⟩ := Reading.exists_of_marks_eq split
  obtain ⟨letter, role_eq, entry_eq⟩ := Mark.letter?_eq_some isLetter
  obtain rfl := Cut.role_eq_letter role_eq
  exact ⟨before, letter, later, pending, rfl, role_eq, congrArg Entry.kind entry_eq,
    congrArg Entry.value entry_eq, congrArg Entry.position entry_eq, number, overtaken⟩

theorem sorted_marks (reading : Reading) :
    reading.marks.Pairwise fun first second =>
      first.position.offset < second.position.offset :=
  marksFrom_sorted [] reading.roles

/-- Where a letter interrupts a number the order of the program is not that of the
text. -/
theorem uninterrupted_of_pairwise
    {text : List Char}
    (increasing : (Reading.of text).entries.Pairwise fun first second =>
      first.position.offset < second.position.offset) :
    Uninterrupted text := by
  rintro before c later rfl isLetter
  by_contra interrupted
  obtain ⟨pending, number⟩ := Option.ne_none_iff_exists'.mp interrupted
  obtain ⟨more, marks_eq⟩ := Reading.marks_of_append_cons before c later
  rw [isLetter] at marks_eq
  have sorted := sorted_marks (Reading.of (before ++ c :: later))
  rw [marks_eq] at sorted
  rw [Reading.entries, marks_eq] at increasing
  have given : Mark.letter? { position := .after before, role := .letter c } = some _ := rfl
  obtain ⟨overtaken, overtakes, sublist⟩ := exists_overtaken given number more
  have behind := overtakes.offset_lt sorted
  have ahead := List.rel_of_pairwise_cons (increasing.sublist sublist) (List.mem_singleton_self _)
  exact absurd (Int.lt_trans ahead behind) (Int.lt_irrefl _)

end Lexer

open Lexer (Uninterrupted Interrupts)

/-- Along a program offsets increase exactly if no letter stands inside a number.
Otherwise every two instructions are still in the order of the text, but for a
letter and the number that it interrupts. -/
theorem Program.offsets_increase_iff_uninterrupted
    (bytes : Int)
    (input : List UInt8)
    {program : Program}
    (accepted : ofSource (.ofInt bytes) (Glyph.decode input) = .ok program) :
    ∃ text, input = Text.utf8 text ∧
      ((program.map fun instruction => instruction.position.offset).Pairwise (· < ·) ↔
        Uninterrupted text) ∧
      program.Pairwise fun first second =>
        first.position.offset < second.position.offset ∨
          (second.position.offset < first.position.offset ∧ Interrupts text first second) := by
  obtain ⟨text, decoded, -, entries_eq⟩ := ofSource_eq_ok_iff.mp accepted
  have sorted := Lexer.sorted_marks (Lexer.Reading.of text)
  have inOrder : program.Pairwise fun first second =>
      Lexer.InOrder (Lexer.Reading.of text).marks first.entry second.entry := by
    have unflushed : ∀ mark ∈ ([] : List Lexer.Mark), mark.isFlush = false := by simp
    rw [← List.pairwise_map, entries_eq]
    exact Lexer.pairwise_entriesFrom unflushed sorted
  have ordered : program.Pairwise fun first second =>
      first.position.offset < second.position.offset ∨
        (second.position.offset < first.position.offset ∧ Interrupts text first second) := by
    refine inOrder.imp ?_
    rintro first second (ahead | overtakes)
    · exact .inl ahead
    · exact .inr ⟨overtakes.offset_lt sorted, Lexer.interrupts_of_overtakes overtakes⟩
  refine ⟨text, Glyph.decode_eq_map_iff.mp decoded, ⟨fun increasing => ?_, fun smooth => ?_⟩, ordered⟩
  · refine Lexer.uninterrupted_of_pairwise ?_
    rw [← entries_eq, List.pairwise_map]
    exact List.pairwise_map.mp increasing
  · refine List.pairwise_map.mpr (ordered.imp ?_)
    rintro first second (ahead | ⟨-, before, c, later, pending, split, isLetter, -, -, -, number, -⟩)
    · exact ahead
    · rw [smooth before c later split isLetter] at number
      cases number

/-- Twelve and then a string of two letters: the letters are pushed first. -/
theorem Program.offsets_increase_iff_uninterrupted_twelve_ab :
    ofSource (.ofInt 4) (Glyph.decode [0x31, 0x32, 0x22, 0x61, 0x62, 0x22]) =
      .ok [
        { kind := .push, value := 97, position := { offset := 3, line := 1, column := 4 } },
        { kind := .push, value := 98, position := { offset := 4, line := 1, column := 5 } },
        { kind := .push, value := 12, position := { offset := 0, line := 1, column := 1 } }] ∧
    ∃ text, [0x31, 0x32, 0x22, 0x61, 0x62, 0x22] = Text.utf8 text ∧ ¬ Uninterrupted text := by
  have accepted : ofSource (.ofInt 4) (Glyph.decode [0x31, 0x32, 0x22, 0x61, 0x62, 0x22]) =
      .ok [
        { kind := .push, value := 97, position := { offset := 3, line := 1, column := 4 } },
        { kind := .push, value := 98, position := { offset := 4, line := 1, column := 5 } },
        { kind := .push, value := 12, position := { offset := 0, line := 1, column := 1 } }] := by
    have encoded : [0x31, 0x32, 0x22, 0x61, 0x62, 0x22] =
        Text.utf8 ['1', '2', '"', 'a', 'b', '"'] := by
      decide
    rw [encoded, Glyph.decode_utf8]
    rfl
  obtain ⟨text, encoded, increasing_iff, -⟩ := offsets_increase_iff_uninterrupted _ _ accepted
  refine ⟨accepted, text, encoded, fun uninterrupted => ?_⟩
  have increasing := increasing_iff.mpr uninterrupted
  simp at increasing

end GlyphStack
