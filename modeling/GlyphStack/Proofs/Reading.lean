import GlyphStack.Lexer
import GlyphStack.Proofs.Glyphs
import Mathlib.Data.List.DropRight

/-!
# What a source text says

A text is cut into pieces: characters that stand alone, strings and comments, of
which the last may be cut off by the end of the text.  Every text has exactly one
such reading.

A reading gives every character of the text a role.  The program of a reading is
found from the roles alone.  The characters that end a number cut the text into
chunks; a chunk gives the letters of its strings, then the number that its digits
spell, if it has any, and then the operator that ends it.  Nothing here goes
through the text with a state, as a lexer does.
-/

namespace GlyphStack

/-- The place behind some characters: their bytes, the newlines among them, and
the characters since the last newline. -/
def Position.after (before : List Char) : Position where
  offset := (Text.utf8 before).length
  line := 1 + before.count '\n'
  column := 1 + (before.rtakeWhile (· != '\n')).length

theorem Position.after_concat
    (before : List Char)
    (c : Char) :
    Position.after (before ++ [c]) =
      (Position.after before).advance c.utf8Size (c == '\n') := by
  have bytes_eq : (Text.utf8 (before ++ [c])).length =
      (Text.utf8 before).length + c.utf8Size := by
    simp [Text.utf8]
  by_cases newline : c = '\n'
  · subst newline
    simp [after, advance, bytes_eq]
    omega
  · have counted : (before ++ [c]).count '\n' = before.count '\n' := by
      rw [List.count_append, List.count_singleton]
      simp [newline]
    simp [after, advance, bytes_eq, counted, newline]
    omega

namespace Lexer

/-! ## Pieces of a text -/

/-- A character of a string as it is written: alone, or behind a backslash. -/
inductive Letter where
  /-- A character that neither ends the string nor escapes another one. -/
  | plain (c : Char) (ordinary : c ≠ quoteMark ∧ c ≠ escapeMark)
  /-- Any character behind a backslash. -/
  | escaped (c : Char)

/-- A complete piece of a text. -/
inductive Piece where
  /-- A character outside strings and comments. -/
  | bare (c : Char) (outside : c ≠ quoteMark ∧ c ≠ commentMark)
  /-- A string between its quotes. -/
  | string (body : List Letter)
  /-- A comment between its marks. -/
  | comment (body : List Char) (unmarked : commentMark ∉ body)

/-- What the end of a text cuts off. -/
inductive Cut where
  /-- Nothing. -/
  | clean
  /-- A string. -/
  | string (body : List Letter)
  /-- A string right after a backslash. -/
  | escape (body : List Letter)
  /-- A comment. -/
  | comment (body : List Char) (unmarked : commentMark ∉ body)

/-- A text cut into pieces. -/
structure Reading where
  /-- The complete pieces. -/
  pieces : List Piece
  /-- What is cut off at the end. -/
  cut : Cut

/-! ## Roles of characters -/

/-- What a character is for. -/
inductive Role where
  /-- White space between numbers. -/
  | space
  /-- A digit of a number. -/
  | digit (value : Nat)
  /-- An operator. -/
  | operator (kind : Kind)
  /-- A character that a string pushes. -/
  | letter (c : Char)
  /-- A quote, an escaping backslash, or a part of a comment. -/
  | silent
  /-- Nothing that the language knows. -/
  | unknown
  deriving DecidableEq, Repr

/-- The role of a character outside strings and comments. -/
def Role.ofBare (c : Char) : Role :=
  if Text.isSpace c then
    .space
  else if '0' ≤ c ∧ c ≤ '9' then
    .digit (c.toNat - '0'.toNat)
  else
    match Kind.ofSymbol? c with
    | some kind => .operator kind
    | none => .unknown

/-- The characters of a letter with their roles. -/
def Letter.roles : Letter -> List (Char × Role)
  | .plain c _ => [(c, .letter c)]
  | .escaped c => [(escapeMark, .silent), (c, .letter c)]

/-- The characters of a comment, which have no role. -/
def silently (body : List Char) : List (Char × Role) :=
  body.map fun c => (c, .silent)

/-- The characters of a piece with their roles. -/
def Piece.roles : Piece -> List (Char × Role)
  | .bare c _ => [(c, .ofBare c)]
  | .string body =>
    (quoteMark, .silent) :: body.flatMap Letter.roles ++ [(quoteMark, .silent)]
  | .comment body _ => (commentMark, .silent) :: silently body ++ [(commentMark, .silent)]

/-- The characters of what is cut off, with their roles. -/
def Cut.roles : Cut -> List (Char × Role)
  | .clean => []
  | .string body => (quoteMark, .silent) :: body.flatMap Letter.roles
  | .escape body =>
    (quoteMark, .silent) :: body.flatMap Letter.roles ++ [(escapeMark, .silent)]
  | .comment body _ => (commentMark, .silent) :: silently body

namespace Reading

/-- The characters of a reading with their roles. -/
def roles (reading : Reading) : List (Char × Role) :=
  reading.pieces.flatMap Piece.roles ++ reading.cut.roles

/-- The text that a reading is a reading of. -/
def text (reading : Reading) : List Char :=
  reading.roles.map Prod.fst

end Reading

/-- The role of a character that follows a reading with the given end. -/
def Cut.role (cut : Cut) (c : Char) : Role :=
  match cut with
  | .clean => if c = quoteMark ∨ c = commentMark then .silent else .ofBare c
  | .string _ => if c = escapeMark ∨ c = quoteMark then .silent else .letter c
  | .escape _ => .letter c
  | .comment _ _ => .silent

namespace Reading

/-- The reading of nothing. -/
def empty : Reading where
  pieces := []
  cut := .clean

/-- A reading with one character more. -/
def extend (reading : Reading) (c : Char) : Reading :=
  match reading.cut with
  | .clean =>
    if isQuote : c = quoteMark then
      { reading with cut := .string [] }
    else if isComment : c = commentMark then
      { reading with cut := .comment [] List.not_mem_nil }
    else
      { reading with pieces := reading.pieces ++ [.bare c ⟨isQuote, isComment⟩] }
  | .string body =>
    if isEscape : c = escapeMark then
      { reading with cut := .escape body }
    else if isQuote : c = quoteMark then
      { pieces := reading.pieces ++ [.string body], cut := .clean }
    else
      { reading with cut := .string (body ++ [.plain c ⟨isQuote, isEscape⟩]) }
  | .escape body => { reading with cut := .string (body ++ [.escaped c]) }
  | .comment body unmarked =>
    if isComment : c = commentMark then
      { pieces := reading.pieces ++ [.comment body unmarked], cut := .clean }
    else
      { reading with
        cut := .comment (body ++ [c]) (by simp [unmarked, Ne.symm isComment]) }

/-- The reading of a text. -/
def of (text : List Char) : Reading :=
  text.foldl extend empty

theorem of_concat
    (text : List Char)
    (c : Char) :
    of (text ++ [c]) = (of text).extend c := by
  simp [of]

/-- A character more is a role more, which the end of the reading decides. -/
theorem roles_extend
    (reading : Reading)
    (c : Char) :
    (reading.extend c).roles = reading.roles ++ [(c, reading.cut.role c)] := by
  obtain ⟨pieces, cut⟩ := reading
  cases cut with
  | clean =>
    by_cases isQuote : c = quoteMark
    · simp [extend, roles, Cut.roles, Cut.role, isQuote]
    by_cases isComment : c = commentMark
    · simp [extend, roles, Cut.roles, Cut.role, silently, isComment, commentMark, quoteMark]
    simp [extend, roles, Cut.roles, Cut.role, Piece.roles, isQuote, isComment]
  | string body =>
    by_cases isEscape : c = escapeMark
    · simp [extend, roles, Cut.roles, Cut.role, isEscape]
    by_cases isQuote : c = quoteMark
    · simp [extend, roles, Cut.roles, Cut.role, Piece.roles, isQuote, quoteMark, escapeMark]
    simp [extend, roles, Cut.roles, Cut.role, Letter.roles, isQuote, isEscape]
  | escape body => simp [extend, roles, Cut.roles, Cut.role, Letter.roles]
  | comment body unmarked =>
    by_cases isComment : c = commentMark
    · simp [extend, roles, Cut.roles, Cut.role, Piece.roles, silently, isComment]
    · simp [extend, roles, Cut.roles, Cut.role, silently, isComment]

theorem text_extend
    (reading : Reading)
    (c : Char) :
    (reading.extend c).text = reading.text ++ [c] := by
  simp [text, roles_extend]

/-- The reading of a text is a reading of it. -/
theorem text_of (text : List Char) : (of text).text = text := by
  induction text using List.reverseRecOn with
  | nil => rfl
  | append_singleton before c inductionHypothesis =>
    rw [of_concat, text_extend, inductionHypothesis]

/-! The other way round, going through the text of a piece adds that piece. -/

theorem foldl_letters
    (pieces : List Piece)
    (body letters : List Letter) :
    ((letters.flatMap Letter.roles).map Prod.fst).foldl extend
        { pieces := pieces, cut := .string body } =
      { pieces := pieces, cut := .string (body ++ letters) } := by
  induction letters generalizing body with
  | nil => simp
  | cons letter letters inductionHypothesis =>
    rw [List.flatMap_cons, List.map_append, List.foldl_append]
    have first : (letter.roles.map Prod.fst).foldl extend
        { pieces := pieces, cut := .string body } =
          { pieces := pieces, cut := .string (body ++ [letter]) } := by
      cases letter with
      | plain c ordinary => simp [Letter.roles, extend, ordinary.1, ordinary.2]
      | escaped c => simp [Letter.roles, extend]
    rw [first, inductionHypothesis, List.append_assoc, List.singleton_append]

theorem foldl_silently
    (pieces : List Piece)
    (body more : List Char)
    (unmarked : commentMark ∉ body ++ more) :
    ((silently more).map Prod.fst).foldl extend
        { pieces := pieces,
          cut := .comment body fun found => unmarked (List.mem_append_left more found) } =
      { pieces := pieces, cut := .comment (body ++ more) unmarked } := by
  induction more generalizing body with
  | nil => simp [silently]
  | cons c more inductionHypothesis =>
    have other : c ≠ commentMark := by
      rintro rfl
      simp at unmarked
    have unmarked' : commentMark ∉ (body ++ [c]) ++ more := by simpa using unmarked
    have rest := inductionHypothesis (body ++ [c]) unmarked'
    simp only [silently, List.map_cons, List.foldl_cons, List.append_assoc,
      List.singleton_append] at rest ⊢
    rw [← rest]
    simp [extend, other]

theorem foldl_piece
    (pieces : List Piece)
    (piece : Piece) :
    (piece.roles.map Prod.fst).foldl extend { pieces := pieces, cut := .clean } =
      { pieces := pieces ++ [piece], cut := .clean } := by
  cases piece with
  | bare c outside => simp [Piece.roles, extend, outside.1, outside.2]
  | string body =>
    have letters := foldl_letters pieces [] body
    simp only [Piece.roles, List.cons_append, List.map_cons, List.map_append, List.foldl_cons,
      List.foldl_append, List.map_nil, List.foldl_nil]
    rw [show extend { pieces := pieces, cut := .clean } quoteMark =
      { pieces := pieces, cut := .string [] } from rfl, letters]
    simp [extend, quoteMark, escapeMark]
  | comment body unmarked =>
    have passed := foldl_silently pieces [] body unmarked
    simp only [Piece.roles, List.cons_append, List.map_cons, List.map_append, List.foldl_cons,
      List.foldl_append, List.map_nil, List.foldl_nil]
    rw [show extend { pieces := pieces, cut := .clean } commentMark =
      { pieces := pieces, cut := .comment [] List.not_mem_nil } from rfl, passed]
    simp [extend]

theorem foldl_pieces
    (pieces more : List Piece) :
    ((more.flatMap Piece.roles).map Prod.fst).foldl extend { pieces := pieces, cut := .clean } =
      { pieces := pieces ++ more, cut := .clean } := by
  induction more generalizing pieces with
  | nil => simp
  | cons piece more inductionHypothesis =>
    rw [List.flatMap_cons, List.map_append, List.foldl_append, foldl_piece,
      inductionHypothesis, List.append_assoc, List.singleton_append]

theorem foldl_cut
    (pieces : List Piece)
    (cut : Cut) :
    (cut.roles.map Prod.fst).foldl extend { pieces := pieces, cut := .clean } =
      { pieces := pieces, cut := cut } := by
  cases cut with
  | clean => rfl
  | string body => exact foldl_letters pieces [] body
  | escape body =>
    have letters := foldl_letters pieces [] body
    simp only [Cut.roles, List.cons_append, List.map_cons, List.map_append, List.foldl_cons,
      List.foldl_append, List.map_nil, List.foldl_nil]
    rw [show extend { pieces := pieces, cut := .clean } quoteMark =
      { pieces := pieces, cut := .string [] } from rfl, letters]
    simp [extend]
  | comment body unmarked => exact foldl_silently pieces [] body unmarked

/-- Every reading is the reading of its text. -/
theorem of_text (reading : Reading) : of reading.text = reading := by
  rw [of, text, roles, List.map_append, List.foldl_append]
  rw [show empty = { pieces := [], cut := .clean } from rfl, foldl_pieces, List.nil_append,
    foldl_cut]

/-- A text has exactly one reading. -/
theorem text_eq_iff
    {reading : Reading}
    {text : List Char} :
    reading.text = text ↔ reading = of text := by
  constructor
  · rintro rfl
    exact (of_text reading).symm
  · rintro rfl
    exact text_of text

end Reading

/-! ## Programs of readings -/

/-- A character with its role, at its place. -/
structure Mark where
  /-- Where the character stands. -/
  position : Position
  /-- What the character is for. -/
  role : Role
  deriving DecidableEq, Repr

/-- Give characters that follow a text their places. -/
def marksFrom (before : List Char) : List (Char × Role) -> List Mark
  | [] => []
  | (c, role) :: rest =>
    { position := .after before, role := role } :: marksFrom (before ++ [c]) rest

/-- An instruction with its value as a number without bounds. -/
structure Entry where
  /-- What the instruction does. -/
  kind : Kind
  /-- The value of a push, and zero for others. -/
  value : Int
  /-- Where the instruction was read. -/
  position : Position
  deriving DecidableEq, Repr

namespace Mark

/-- Whether a character ends the number before it. -/
def isFlush (mark : Mark) : Bool :=
  match mark.role with
  | .space | .operator _ => true
  | _ => false

/-- The push of a letter. -/
def letter? (mark : Mark) : Option Entry :=
  match mark.role with
  | .letter c => some { kind := .push, value := c.toNat, position := mark.position }
  | _ => none

/-- The instruction of an operator. -/
def operator? (mark : Mark) : Option Entry :=
  match mark.role with
  | .operator kind => some { kind := kind, value := 0, position := mark.position }
  | _ => none

/-- The value of a digit. -/
def digit? (mark : Mark) : Option Nat :=
  match mark.role with
  | .digit value => some value
  | _ => none

end Mark

/-- The number that decimal digits spell. -/
def decimal (digits : List Nat) : Nat :=
  digits.foldl (fun value digit => 10 * value + digit) 0

/-- The push of the number that the digits of a chunk spell, at the place of the
first of them. -/
def number? (chunk : List Mark) : Option Entry :=
  (chunk.find? fun mark => mark.digit?.isSome).map fun first =>
    { kind := .push, value := decimal (chunk.filterMap Mark.digit?), position := first.position }

/-- The program of a chunk without characters that end a number: its letters, then
its number. -/
def settle (chunk : List Mark) : List Entry :=
  chunk.filterMap Mark.letter? ++ (number? chunk).toList

/-- The program of a chunk and what follows it. -/
def entriesFrom (chunk : List Mark) : List Mark -> List Entry
  | [] => settle chunk
  | mark :: rest =>
    if mark.isFlush then
      settle chunk ++ mark.operator?.toList ++ entriesFrom [] rest
    else
      entriesFrom (chunk ++ [mark]) rest

namespace Reading

/-- The characters of a reading with their roles and places. -/
def marks (reading : Reading) : List Mark :=
  marksFrom [] reading.roles

/-- The program of a reading. -/
def entries (reading : Reading) : List Entry :=
  entriesFrom [] reading.marks

end Reading

theorem marksFrom_append
    (before : List Char)
    (first second : List (Char × Role)) :
    marksFrom before (first ++ second) =
      marksFrom before first ++ marksFrom (before ++ first.map Prod.fst) second := by
  induction first generalizing before with
  | nil => simp [marksFrom]
  | cons pair first inductionHypothesis =>
    simp [marksFrom, inductionHypothesis]

/-- The chunk at the end, which no character has ended yet. -/
def sinceFlush (marks : List Mark) : List Mark :=
  marks.rtakeWhile fun mark => !mark.isFlush

/-- The program of everything before the last chunk. -/
def settled (marks : List Mark) : List Entry :=
  entriesFrom [] (marks.rdropWhile fun mark => !mark.isFlush)

theorem sinceFlush_concat_of_flush
    {mark : Mark}
    (flush : mark.isFlush = true)
    (marks : List Mark) :
    sinceFlush (marks ++ [mark]) = [] :=
  List.rtakeWhile_concat_neg _ _ _ (by simp [flush])

theorem sinceFlush_concat
    {mark : Mark}
    (noFlush : mark.isFlush = false)
    (marks : List Mark) :
    sinceFlush (marks ++ [mark]) = sinceFlush marks ++ [mark] :=
  List.rtakeWhile_concat_pos _ _ _ (by simp [noFlush])

theorem settled_concat
    {mark : Mark}
    (noFlush : mark.isFlush = false)
    (marks : List Mark) :
    settled (marks ++ [mark]) = settled marks := by
  rw [settled, List.rdropWhile_concat_pos _ _ _ (by simp [noFlush])]
  rfl

/-- Behind a character that ends a number everything is settled. -/
theorem settled_eq_entriesFrom
    {mark : Mark}
    (flush : mark.isFlush = true)
    (marks : List Mark) :
    settled (marks ++ [mark]) = entriesFrom [] (marks ++ [mark]) := by
  rw [settled, List.rdropWhile_concat_neg _ _ _ (by simp [flush])]

/-- What follows some marks is read together with their last chunk. -/
theorem entriesFrom_append
    (marks later : List Mark) :
    entriesFrom [] (marks ++ later) =
      settled marks ++ entriesFrom (sinceFlush marks) later := by
  -- From the end, because a further mark belongs to the last chunk.
  induction marks using List.reverseRecOn generalizing later with
  | nil => rfl
  | append_singleton marks mark inductionHypothesis =>
    rw [List.append_assoc, List.singleton_append, inductionHypothesis]
    cases flush : mark.isFlush with
    | false =>
      rw [settled_concat flush, sinceFlush_concat flush, entriesFrom, flush]
      rfl
    | true =>
      rw [sinceFlush_concat_of_flush flush, settled_eq_entriesFrom flush, inductionHypothesis]
      simp [entriesFrom, flush, settle, number?]

theorem entriesFrom_nil
    (marks : List Mark) :
    entriesFrom [] marks = settled marks ++ settle (sinceFlush marks) := by
  have split := entriesFrom_append marks []
  rwa [List.append_nil] at split

theorem settled_concat_of_flush
    {mark : Mark}
    (flush : mark.isFlush = true)
    (marks : List Mark) :
    settled (marks ++ [mark]) =
      settled marks ++ settle (sinceFlush marks) ++ mark.operator?.toList := by
  rw [settled_eq_entriesFrom flush, entriesFrom_append]
  simp [entriesFrom, flush, settle, number?]

/-- The number that the digits of a chunk spell. -/
def spelled (chunk : List Mark) : Nat :=
  decimal (chunk.filterMap Mark.digit?)

/-- Where the number of a chunk begins, if not at the given place. -/
def numberStart (here : Position) (chunk : List Mark) : Position :=
  ((chunk.find? fun mark => mark.digit?.isSome).map Mark.position).getD here

theorem number?_concat
    {mark : Mark}
    (noDigit : mark.digit? = none)
    (chunk : List Mark) :
    number? (chunk ++ [mark]) = number? chunk := by
  simp [number?, List.find?_append, noDigit]

/-- A digit more makes ten times the number, and the digit. -/
theorem number?_concat_digit
    {mark : Mark}
    {digit : Nat}
    (isDigit : mark.digit? = some digit)
    (chunk : List Mark) :
    number? (chunk ++ [mark]) =
      some
        { kind := .push,
          value := 10 * spelled chunk + digit,
          position := numberStart mark.position chunk } := by
  cases found : chunk.find? fun mark => mark.digit?.isSome <;>
    simp [number?, numberStart, spelled, decimal, List.find?_append, isDigit, found]

theorem spelled_of_number?_eq_none
    {chunk : List Mark}
    (none : number? chunk = none) :
    spelled chunk = 0 := by
  have silent : ∀ mark ∈ chunk, mark.digit? = Option.none := by
    simpa [number?] using none
  rw [spelled, List.filterMap_eq_nil_iff.mpr silent]
  rfl

theorem numberStart_of_number?_eq_none
    {chunk : List Mark}
    (none : number? chunk = none)
    (here : Position) :
    numberStart here chunk = here := by
  rw [number?, Option.map_eq_none_iff] at none
  simp only [numberStart, none, Option.map_none, Option.getD_none]

theorem number?_eq_some
    {chunk : List Mark}
    {entry : Entry}
    (found : number? chunk = some entry)
    (here : Position) :
    entry = { kind := .push, value := spelled chunk, position := numberStart here chunk } := by
  rw [number?, Option.map_eq_some_iff] at found
  obtain ⟨first, found, rfl⟩ := found
  simp only [spelled, numberStart, found, Option.map_some, Option.getD_some]

/-- A character more is a mark more. -/
theorem Reading.marks_extend
    (reading : Reading)
    (c : Char) :
    (reading.extend c).marks =
      reading.marks ++ [{ position := .after reading.text, role := reading.cut.role c }] := by
  rw [marks, roles_extend, marksFrom_append, List.nil_append]
  rfl

end Lexer
end GlyphStack
