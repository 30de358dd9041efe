import GlyphStack.Proofs.Language

/-!
# Where instructions come from

Every instruction of a program was read at one character of the text.  An operator
and a letter of a string give one instruction each, at their own place.  A number
is given by its first digit; its value is spelled by the digits from there up to
the next character that ends a number.  Nothing else gives an instruction.
-/

namespace GlyphStack

namespace Kind

theorem mem_all_of_symbol?_eq_some
    {kind : Kind}
    {symbol : Char}
    (written : kind.symbol? = some symbol) :
    kind ∈ all := by
  have defined : ∀ operator ∈ operators, operator.2 ∈ all := by decide
  have found := ofSymbol?_of_symbol?_eq_some written
  exact defined _ (mem_operators_of_ofSymbol?_eq_some found)

end Kind

namespace Lexer

/-! ## Marks and characters -/

namespace Reading

/-- The marks of a text begin with those of any text in front, and then comes the
mark of the next character. -/
theorem marks_of_append_cons
    (before : List Char)
    (c : Char)
    (later : List Char) :
    ∃ more, (of (before ++ c :: later)).marks =
      (of before).marks ++
        { position := .after before, role := (of before).cut.role c } :: more := by
  -- From the end, because a further character adds a mark behind the others.
  induction later using List.reverseRecOn with
  | nil =>
    refine ⟨[], ?_⟩
    rw [of_concat, marks_extend, text_of]
  | append_singleton later last inductionHypothesis =>
    obtain ⟨more, marks_eq⟩ := inductionHypothesis
    have extended := (of (before ++ c :: later)).marks_extend last
    rw [marks_eq, List.append_assoc, List.cons_append, ← of_concat, List.append_assoc,
      List.cons_append] at extended
    exact ⟨_, extended⟩

/-- Every mark belongs to a character, and the marks before it to the characters
before. -/
theorem exists_of_marks_eq
    {text : List Char}
    {front back : List Mark}
    {mark : Mark}
    (marks_eq : (of text).marks = front ++ mark :: back) :
    ∃ before c later, text = before ++ c :: later ∧ (of before).marks = front ∧
      mark = { position := .after before, role := (of before).cut.role c } := by
  induction text using List.reverseRecOn generalizing back with
  | nil => simp [of, empty, marks, roles, Cut.roles, marksFrom] at marks_eq
  | append_singleton text last inductionHypothesis =>
    rw [of_concat, marks_extend, text_of] at marks_eq
    rcases List.eq_nil_or_concat' back with rfl | ⟨back, added, rfl⟩
    · obtain ⟨front_eq, mark_eq⟩ := List.append_inj' marks_eq rfl
      refine ⟨text, last, [], rfl, front_eq, ?_⟩
      exact (List.cons.inj mark_eq).1.symm
    · rw [← List.cons_append, ← List.append_assoc] at marks_eq
      obtain ⟨earlier_eq, -⟩ := List.append_inj' marks_eq rfl
      obtain ⟨before, c, later, rfl, front_eq, mark_eq⟩ := inductionHypothesis earlier_eq
      exact ⟨before, c, later ++ [last], by simp, front_eq, mark_eq⟩

@[simp] theorem length_marks_of (text : List Char) : (of text).marks.length = text.length := by
  induction text using List.reverseRecOn with
  | nil => rfl
  | append_singleton text last inductionHypothesis =>
    rw [of_concat, marks_extend, List.length_append, inductionHypothesis, List.length_append]
    rfl

/-- The number that is being read where a text ends. -/
def pending? (reading : Reading) : Option Entry :=
  number? (sinceFlush reading.marks)

end Reading

/-! ## Marks and entries -/

/-- What lies in front of a character that ends a number does not matter behind
it. -/
theorem sinceFlush_append_cons
    {mark : Mark}
    (flush : mark.isFlush = true)
    (front back : List Mark) :
    sinceFlush (front ++ mark :: back) = sinceFlush back := by
  induction back using List.reverseRecOn with
  | nil => exact sinceFlush_concat_of_flush flush front
  | append_singleton back last inductionHypothesis =>
    rw [← List.cons_append, ← List.append_assoc]
    cases flushes : last.isFlush with
    | true => rw [sinceFlush_concat_of_flush flushes, sinceFlush_concat_of_flush flushes]
    | false => rw [sinceFlush_concat flushes, sinceFlush_concat flushes, inductionHypothesis]

/-- A chunk that nothing ends is all there is since the last end of a number. -/
theorem sinceFlush_of_forall
    {chunk : List Mark}
    (unflushed : ∀ mark ∈ chunk, mark.isFlush = false) :
    sinceFlush chunk = chunk := by
  refine List.rtakeWhile_eq_self_iff.mpr fun mark found => ?_
  rw [unflushed mark found]
  rfl

theorem settled_of_forall
    {chunk : List Mark}
    (unflushed : ∀ mark ∈ chunk, mark.isFlush = false) :
    settled chunk = [] := by
  rw [settled, List.rdropWhile_eq_nil_iff.mpr (by simpa using unflushed)]
  rfl

/-- A chunk that is still open was already open in the middle. -/
theorem exists_of_sinceFlush_eq_append
    {marks front back : List Mark}
    (split : sinceFlush marks = front ++ back) :
    ∃ earlier, marks = (earlier ++ front) ++ back ∧ sinceFlush (earlier ++ front) = front := by
  induction back using List.reverseRecOn generalizing marks with
  | nil =>
    rw [List.append_nil] at split
    refine ⟨marks.rdropWhile fun mark => !mark.isFlush, ?_, ?_⟩
    · rw [List.append_nil, ← split]
      exact List.rdropWhile_append_rtakeWhile.symm
    · rw [← split]
      exact congrArg sinceFlush List.rdropWhile_append_rtakeWhile
  | append_singleton back last inductionHypothesis =>
    rcases List.eq_nil_or_concat' marks with rfl | ⟨marks, added, rfl⟩
    · simp [sinceFlush] at split
    cases flushes : added.isFlush with
    | true =>
      rw [sinceFlush_concat_of_flush flushes] at split
      simp at split
    | false =>
      rw [sinceFlush_concat flushes, ← List.append_assoc] at split
      obtain ⟨split, last_eq⟩ := List.append_inj' split rfl
      obtain ⟨earlier, rfl, open_eq⟩ := inductionHypothesis split
      exact ⟨earlier, by rw [last_eq, List.append_assoc], open_eq⟩

/-- The marks up to the next character that ends a number. -/
def untilFlush (marks : List Mark) : List Mark :=
  marks.takeWhile fun mark => !mark.isFlush

theorem untilFlush_cons_of_flush
    {mark : Mark}
    (flush : mark.isFlush = true)
    (marks : List Mark) :
    untilFlush (mark :: marks) = [] := by
  simp [untilFlush, flush]

theorem untilFlush_cons
    {mark : Mark}
    (noFlush : mark.isFlush = false)
    (marks : List Mark) :
    untilFlush (mark :: marks) = mark :: untilFlush marks := by
  simp [untilFlush, noFlush]

theorem untilFlush_append
    {chunk : List Mark}
    (unflushed : ∀ mark ∈ chunk, mark.isFlush = false)
    (rest : List Mark) :
    untilFlush (chunk ++ rest) = chunk ++ untilFlush rest :=
  List.takeWhile_append_of_pos fun mark found => by simp [unflushed mark found]

namespace Mark

theorem operator?_eq_some
    {mark : Mark}
    {entry : Entry}
    (found : mark.operator? = some entry) :
    ∃ kind, mark.role = .operator kind ∧
      entry = { kind := kind, value := 0, position := mark.position } := by
  unfold operator? at found
  split at found
  · next kind role_eq => exact ⟨kind, role_eq, (Option.some.inj found).symm⟩
  · cases found

theorem letter?_eq_some
    {mark : Mark}
    {entry : Entry}
    (found : mark.letter? = some entry) :
    ∃ letter, mark.role = .letter letter ∧
      entry = { kind := .push, value := letter.toNat, position := mark.position } := by
  unfold letter? at found
  split at found
  · next letter role_eq => exact ⟨letter, role_eq, (Option.some.inj found).symm⟩
  · cases found

theorem role_of_isSome_digit?
    {mark : Mark}
    (isDigit : mark.digit?.isSome) :
    ∃ digit, mark.role = .digit digit := by
  unfold digit? at isDigit
  split at isDigit
  · next digit role_eq => exact ⟨digit, role_eq⟩
  · cases isDigit

end Mark

/-- How a mark between others gives an entry of the program. -/
inductive Mark.Gives (front : List Mark) (mark : Mark) (back : List Mark) (entry : Entry) : Prop
  /-- An operator gives its instruction. -/
  | operator (found : mark.operator? = some entry)
  /-- A letter gives the push of its code point. -/
  | letter (found : mark.letter? = some entry)
  /-- The first digit of a number gives the push of the number. -/
  | number
      (isDigit : mark.digit?.isSome)
      (first : number? (sinceFlush front) = none)
      (entry_eq : entry =
        { kind := .push, value := spelled (untilFlush (mark :: back)), position := mark.position })

theorem Mark.Gives.position_eq
    {front back : List Mark}
    {mark : Mark}
    {entry : Entry}
    (gives : mark.Gives front back entry) :
    entry.position = mark.position := by
  cases gives with
  | operator found =>
    obtain ⟨kind, -, rfl⟩ := operator?_eq_some found
    rfl
  | letter found =>
    obtain ⟨letter, -, rfl⟩ := letter?_eq_some found
    rfl
  | number isDigit first entry_eq => rw [entry_eq]

/-- The number of a chunk begins at its first digit. -/
theorem exists_of_number?_eq_some
    {chunk : List Mark}
    {entry : Entry}
    (found : number? chunk = some entry) :
    ∃ front mark back, chunk = front ++ mark :: back ∧ mark.digit?.isSome ∧
      number? front = none ∧
      entry =
        { kind := .push, value := spelled (mark :: back), position := mark.position } := by
  rw [number?, Option.map_eq_some_iff] at found
  obtain ⟨first, found, rfl⟩ := found
  obtain ⟨isDigit, front, back, rfl, silent⟩ := List.find?_eq_some_iff_append.mp found
  have no_digits : front.filterMap Mark.digit? = [] :=
    List.filterMap_eq_nil_iff.mpr fun mark inFront => by simpa using silent mark inFront
  refine ⟨front, first, back, rfl, isDigit, ?_, ?_⟩
  · simpa [number?] using silent
  · rw [spelled, List.filterMap_append, no_digits, List.nil_append]

/-- A chunk is settled from its own marks, once the next character ends it. -/
theorem exists_gives_of_mem_settle
    {chunk rest : List Mark}
    {entry : Entry}
    (unflushed : ∀ mark ∈ chunk, mark.isFlush = false)
    (ended : untilFlush rest = [])
    (found : entry ∈ settle chunk) :
    ∃ front mark back, chunk = front ++ mark :: back ∧
      mark.Gives front (back ++ rest) entry := by
  rcases List.mem_append.mp found with letter | number
  · obtain ⟨mark, inChunk, given⟩ := List.mem_filterMap.mp letter
    obtain ⟨front, back, rfl⟩ := List.append_of_mem inChunk
    exact ⟨front, mark, back, rfl, .letter given⟩
  · obtain ⟨front, mark, back, rfl, isDigit, first, entry_eq⟩ :=
      exists_of_number?_eq_some (by simpa using number)
    have unflushed_front : ∀ other ∈ front, other.isFlush = false :=
      fun other inFront => unflushed other (List.mem_append_left _ inFront)
    have unflushed_back : ∀ other ∈ mark :: back, other.isFlush = false :=
      fun other inBack => unflushed other (List.mem_append_right _ inBack)
    refine ⟨front, mark, back, rfl, .number isDigit ?_ ?_⟩
    · rw [sinceFlush_of_forall unflushed_front, first]
    · rw [← List.cons_append, untilFlush_append unflushed_back, ended, List.append_nil, entry_eq]

/-- More marks in front, with an end of a number between, change nothing. -/
theorem Mark.Gives.append_front
    {front back : List Mark}
    {mark flush : Mark}
    {entry : Entry}
    (gives : mark.Gives front back entry)
    (flushes : flush.isFlush = true)
    (earlier : List Mark) :
    mark.Gives (earlier ++ flush :: front) back entry := by
  cases gives with
  | operator found => exact .operator found
  | letter found => exact .letter found
  | number isDigit first entry_eq =>
    refine .number isDigit ?_ entry_eq
    rw [sinceFlush_append_cons flushes, first]

/-- Every entry is given by one of the marks. -/
theorem exists_gives_of_mem_entriesFrom
    {chunk rest : List Mark}
    {entry : Entry}
    (unflushed : ∀ mark ∈ chunk, mark.isFlush = false)
    (found : entry ∈ entriesFrom chunk rest) :
    ∃ front mark back, chunk ++ rest = front ++ mark :: back ∧ mark.Gives front back entry := by
  induction rest generalizing chunk with
  | nil =>
    obtain ⟨front, mark, back, rfl, gives⟩ :=
      exists_gives_of_mem_settle unflushed (show untilFlush [] = [] from rfl) found
    exact ⟨front, mark, back, List.append_nil _, by simpa using gives⟩
  | cons next rest inductionHypothesis =>
    cases flushes : next.isFlush with
    | false =>
      have extended : ∀ mark ∈ chunk ++ [next], mark.isFlush = false := by
        simpa [or_imp, forall_and] using ⟨unflushed, flushes⟩
      simp only [entriesFrom, flushes, Bool.false_eq_true, if_false] at found
      obtain ⟨front, mark, back, split, gives⟩ := inductionHypothesis extended found
      exact ⟨front, mark, back, by rw [← split]; simp, gives⟩
    | true =>
      simp only [entriesFrom, flushes, if_true, List.mem_append] at found
      rcases found with (settled | operator) | later
      · obtain ⟨front, mark, back, rfl, gives⟩ :=
          exists_gives_of_mem_settle unflushed (untilFlush_cons_of_flush flushes rest) settled
        exact ⟨front, mark, back ++ next :: rest, by simp, gives⟩
      · exact ⟨chunk, next, rest, rfl, .operator (by simpa using operator)⟩
      · obtain ⟨front, mark, back, rfl, gives⟩ := inductionHypothesis (by simp) later
        exact ⟨chunk ++ next :: front, mark, back, by simp, gives.append_front flushes chunk⟩

/-- The chunk that is open at some place is settled as a whole, before all that
follows. -/
theorem settle_prefix_entriesFrom
    (chunk rest : List Mark) :
    settle (chunk ++ untilFlush rest) <+: entriesFrom chunk rest := by
  induction rest generalizing chunk with
  | nil => simp [untilFlush, entriesFrom]
  | cons next rest inductionHypothesis =>
    cases flushes : next.isFlush with
    | false =>
      have settled := inductionHypothesis (chunk ++ [next])
      rw [List.append_assoc, List.singleton_append, ← untilFlush_cons flushes] at settled
      simpa [entriesFrom, flushes] using settled
    | true =>
      rw [untilFlush_cons_of_flush flushes, List.append_nil, entriesFrom, if_pos flushes,
        List.append_assoc]
      exact List.prefix_append _ _

/-! ## Characters and instructions -/

/-- What a character may be behind a cut.  Only outside strings and comments has it a
role of its own. -/
inductive Cut.Gives (cut : Cut) (c : Char) : Role -> Prop
  | silent : Gives cut c .silent
  | letter (inside : cut ≠ .clean) : Gives cut c (.letter c)
  | space (outside : cut = .clean) : Gives cut c .space
  | digit {digit : Nat} (outside : cut = .clean) (isDigit : '0' ≤ c ∧ c ≤ '9') :
      Gives cut c (.digit digit)
  | operator {kind : Kind} (outside : cut = .clean) (symbol : Kind.ofSymbol? c = some kind) :
      Gives cut c (.operator kind)
  | unknown (outside : cut = .clean) : Gives cut c .unknown

theorem Cut.gives_ofBare (c : Char) : Gives .clean c (.ofBare c) := by
  unfold Role.ofBare
  split
  · exact .space rfl
  split
  · next isDigit => exact .digit rfl isDigit
  split
  · next kind symbol => exact .operator rfl symbol
  · exact .unknown rfl

theorem Cut.gives_role
    (cut : Cut)
    (c : Char) :
    cut.Gives c (cut.role c) := by
  cases cut with
  | clean =>
    rw [role]
    split
    · exact .silent
    · exact gives_ofBare c
  | string body =>
    rw [role]
    split
    · exact .silent
    · exact .letter (by simp)
  | escape body => exact .letter (by simp)
  | comment body unmarked => exact .silent

theorem Cut.role_eq_operator
    {cut : Cut}
    {c : Char}
    {kind : Kind}
    (role_eq : cut.role c = .operator kind) :
    cut = .clean ∧ Kind.ofSymbol? c = some kind := by
  cases role_eq ▸ cut.gives_role c with
  | operator outside symbol => exact ⟨outside, symbol⟩

theorem Cut.role_eq_digit
    {cut : Cut}
    {c : Char}
    {digit : Nat}
    (role_eq : cut.role c = .digit digit) :
    cut = .clean ∧ '0' ≤ c ∧ c ≤ '9' := by
  cases role_eq ▸ cut.gives_role c with
  | digit outside isDigit => exact ⟨outside, isDigit⟩

theorem Cut.role_eq_letter
    {cut : Cut}
    {c letter : Char}
    (role_eq : cut.role c = .letter letter) :
    letter = c := by
  cases role_eq ▸ cut.gives_role c with
  | letter inside => rfl

/-- A character is the first digit of a number. -/
structure BeginsNumber (before : List Char) (c : Char) : Prop where
  /-- It stands outside strings and comments. -/
  outside : (Reading.of before).cut = .clean
  /-- It is a digit. -/
  isDigit : '0' ≤ c ∧ c ≤ '9'
  /-- No digit of the same number stands before it. -/
  first : (Reading.of before).pending? = none

/-- A number that is being read where a text ends began at its first digit, and
nothing has ended it since. -/
theorem exists_beginsNumber
    {text : List Char}
    {entry : Entry}
    (number : (Reading.of text).pending? = some entry) :
    ∃ before c later, text = before ++ c :: later ∧ BeginsNumber before c ∧
      entry =
        { kind := .push,
          value := spelled ((Reading.of text).marks.drop before.length),
          position := .after before } ∧
      ∀ mark ∈ (Reading.of text).marks.drop before.length, mark.isFlush = false := by
  obtain ⟨front, mark, back, split, isDigit, first, entry_eq⟩ := exists_of_number?_eq_some number
  obtain ⟨earlier, marks_eq, open_eq⟩ := exists_of_sinceFlush_eq_append split
  obtain ⟨before, c, later, rfl, before_eq, mark_eq⟩ := Reading.exists_of_marks_eq marks_eq
  obtain ⟨digit, isDigit⟩ := Mark.role_of_isSome_digit? isDigit
  have role_eq : (Reading.of before).cut.role c = .digit digit := by rw [← isDigit, mark_eq]
  obtain ⟨outside, range⟩ := Cut.role_eq_digit role_eq
  have dropped : (Reading.of (before ++ c :: later)).marks.drop before.length = mark :: back := by
    rw [marks_eq, ← before_eq, ← Reading.length_marks_of before, List.drop_left]
  refine ⟨before, c, later, rfl, ⟨outside, range, ?_⟩, ?_, ?_⟩
  · rw [Reading.pending?, before_eq, open_eq, first]
  · rw [dropped, entry_eq, mark_eq]
  · rw [dropped]
    intro other found
    have inChunk : other ∈ sinceFlush (Reading.of (before ++ c :: later)).marks := by
      rw [split]
      exact List.mem_append_right front found
    simpa using List.mem_rtakeWhile_imp inChunk

/-- What a character is to the instruction that is read at its place, with the text
before and after it. -/
inductive Origin
    (before : List Char)
    (c : Char)
    (later : List Char)
    (instruction : Instruction) : Prop
  /-- The character is the operator's own symbol. -/
  | operator
      (outside : (Reading.of before).cut = .clean)
      (symbol : instruction.kind.symbol? = some c)
      (value_eq : instruction.value = 0)
  /-- The character is a letter of a string, and its code point is pushed. -/
  | letter
      (inside : (Reading.of before).cut.role c = .letter c)
      (isPush : instruction.kind = .push)
      (value_eq : instruction.value.toInt = c.toNat)
  /-- The character is the first digit of the number that is pushed. -/
  | number
      (begins : BeginsNumber before c)
      (isPush : instruction.kind = .push)
      (value_eq : instruction.value.toInt =
        spelled (untilFlush ((Reading.of (before ++ c :: later)).marks.drop before.length)))

/-- Every instruction of a text comes from one of its characters. -/
theorem exists_origin
    {text : List Char}
    {instruction : Instruction}
    (found : instruction.entry ∈ (Reading.of text).entries) :
    ∃ before c later, text = before ++ c :: later ∧ instruction.position = .after before ∧
      Origin before c later instruction := by
  obtain ⟨front, mark, back, split, gives⟩ := exists_gives_of_mem_entriesFrom (by simp) found
  rw [List.nil_append] at split
  change (Reading.of text).marks = _ at split
  obtain ⟨before, c, later, rfl, rfl, mark_eq⟩ := Reading.exists_of_marks_eq split
  have role_eq : mark.role = (Reading.of before).cut.role c := by rw [mark_eq]
  refine ⟨before, c, later, rfl, ?_, ?_⟩
  · have position_eq := gives.position_eq
    rwa [mark_eq] at position_eq
  cases gives with
  | operator found =>
    obtain ⟨kind, operator, entry_eq⟩ := Mark.operator?_eq_some found
    obtain ⟨outside, symbol⟩ := Cut.role_eq_operator (role_eq.symm.trans operator)
    have kind_eq : instruction.kind = kind := congrArg Entry.kind entry_eq
    have value_eq : instruction.value.toInt = 0 := congrArg Entry.value entry_eq
    refine .operator outside ?_ (Int64.toInt_inj.mp value_eq)
    rw [kind_eq, Kind.symbol?_of_ofSymbol?_eq_some symbol]
  | letter found =>
    obtain ⟨letter, isLetter, entry_eq⟩ := Mark.letter?_eq_some found
    obtain rfl := Cut.role_eq_letter (role_eq.symm.trans isLetter)
    exact .letter (role_eq.symm.trans isLetter) (congrArg Entry.kind entry_eq)
      (congrArg Entry.value entry_eq)
  | number isDigit first entry_eq =>
    obtain ⟨digit, isDigit⟩ := Mark.role_of_isSome_digit? isDigit
    obtain ⟨outside, range⟩ := Cut.role_eq_digit (role_eq.symm.trans isDigit)
    refine .number ⟨outside, range, first⟩ (congrArg Entry.kind entry_eq) ?_
    rw [split, ← Reading.length_marks_of before, List.drop_left]
    exact congrArg Entry.value entry_eq

namespace Origin

variable {before later : List Char} {c : Char} {instruction : Instruction}

theorem kind_mem_all
    (origin : Origin before c later instruction) :
    instruction.kind ∈ Kind.all := by
  cases origin with
  | operator outside symbol value_eq => exact Kind.mem_all_of_symbol?_eq_some symbol
  | letter inside isPush value_eq => simp [isPush, Kind.all]
  | number begins isPush value_eq => simp [isPush, Kind.all]

theorem value_nonneg
    (origin : Origin before c later instruction) :
    0 ≤ instruction.value.toInt := by
  cases origin with
  | operator outside symbol value_eq => simp [value_eq]
  | letter inside isPush value_eq => omega
  | number begins isPush value_eq => omega

theorem value_eq_zero
    (origin : Origin before c later instruction)
    (notPush : instruction.kind ≠ .push) :
    instruction.value = 0 := by
  cases origin with
  | operator outside symbol value_eq => exact value_eq
  | letter inside isPush value_eq => exact absurd isPush notPush
  | number begins isPush value_eq => exact absurd isPush notPush

end Origin

end Lexer

/-- The instructions of a program that was read come from the characters of its
text, and their values are within the width. -/
theorem Program.origins_of_ofSource
    {width : Width}
    {source : List Glyph}
    {program : Program}
    (accepted : ofSource width source = .ok program) :
    ∃ text, source = text.map .char ∧ ∀ instruction ∈ program,
      instruction.value.toInt ≤ width.largest ∧
      ∃ before c later, text = before ++ c :: later ∧ instruction.position = .after before ∧
        Lexer.Origin before c later instruction := by
  obtain ⟨text, rfl, clear, entries_eq⟩ := ofSource_eq_ok_iff.mp accepted
  refine ⟨text, rfl, fun instruction inProgram => ?_⟩
  have found : instruction.entry ∈ (Lexer.Reading.of text).entries := by
    rw [← entries_eq]
    exact List.mem_map_of_mem inProgram
  exact ⟨(Lexer.Reading.clear_iff.mp clear).2 _ found, Lexer.exists_origin found⟩

end GlyphStack
