import GlyphStack.Editor.Diagnostic
import GlyphStack.Proofs.Places

/-!
# Lines and columns

A text is cut into lines at its newlines.  The line and the column of a position lead back
to the glyph that stands there, and no two glyphs of a text share both.  An editor counts
both from zero, and the columns in units of UTF-16; these are as many as the characters as
long as none of them lies beyond the basic multilingual plane.
-/

namespace GlyphStack

namespace Text

/-- The lines of a text, without their newlines. -/
def lines (source : List Glyph) : List (List Glyph) :=
  source.splitOn (.char '\n')

/-- The characters since the last newline. -/
def lastLine (before : List Char) : List Char :=
  before.rtakeWhile (· != '\n')

theorem newline_not_mem_lastLine (before : List Char) : '\n' ∉ lastLine before := by
  intro found
  simpa using List.mem_rtakeWhile_imp found

/-- Without a newline the last line goes on. -/
theorem lastLine_append
    (before : List Char)
    {more : List Char}
    (sameLine : '\n' ∉ more) :
    lastLine (before ++ more) = lastLine before ++ more := by
  induction more using List.reverseRecOn with
  | nil => rw [List.append_nil, List.append_nil]
  | append_singleton more c inductionHypothesis =>
    rw [List.mem_append, List.mem_singleton, not_or] at sameLine
    have continues : (c != '\n') = true := by simpa using Ne.symm sameLine.2
    rw [lastLine, ← List.append_assoc, List.rtakeWhile_concat_pos (· != '\n') _ c continues,
      ← List.append_assoc]
    exact congrArg (· ++ [c]) (inductionHypothesis sameLine.1)

/-- In front of the last line there is nothing, or a newline. -/
theorem eq_lastLine_or_append (before : List Char) :
    before = lastLine before ∨ ∃ earlier, before = earlier ++ '\n' :: lastLine before := by
  have split : before.rdropWhile (· != '\n') ++ lastLine before = before :=
    List.rdropWhile_append_rtakeWhile
  rcases List.eq_nil_or_concat' (before.rdropWhile (· != '\n')) with nothing | ⟨earlier, c, cut⟩
  · rw [nothing, List.nil_append] at split
    exact .inl split.symm
  · have nonempty : before.rdropWhile (· != '\n') ≠ [] := by simp [cut]
    have stops := List.rdropWhile_last_not (· != '\n') before nonempty
    have isNewline : c = '\n' := by simpa [cut] using stops
    refine .inr ⟨earlier, ?_⟩
    rw [cut, isNewline, List.append_assoc, List.singleton_append] at split
    exact split.symm

theorem count_newline_of_eq_lastLine
    {before : List Char}
    (single : before = lastLine before) :
    before.count '\n' = 0 := by
  rw [List.count_eq_zero, single]
  exact newline_not_mem_lastLine before

theorem count_newline_of_append
    {before earlier : List Char}
    (split : before = earlier ++ '\n' :: lastLine before) :
    before.count '\n' = earlier.count '\n' + 1 := by
  have last : (lastLine before).count '\n' = 0 :=
    List.count_eq_zero.mpr (newline_not_mem_lastLine before)
  rw [split, List.count_append, List.count_cons_self, last]

/-! ## Lines of a text -/

theorem lines_append_newline (front rest : List Glyph) :
    lines (front ++ .char '\n' :: rest) = lines front ++ lines rest :=
  List.splitOn_append_cons_self front rest

theorem length_lines_map (text : List Char) :
    (lines (text.map .char)).length = text.count '\n' + 1 := by
  induction text with
  | nil => rfl
  | cons c text inductionHypothesis =>
    rw [lines, List.map_cons, List.splitOn_cons_eq_if_modifyHead]
    by_cases newline : c = '\n'
    · rw [newline, if_pos (beq_self_eq_true _), List.length_cons, List.count_cons_self]
      exact congrArg (· + 1) inductionHypothesis
    · have other : (Glyph.char c == .char '\n') = false := by simpa using newline
      rw [other, if_neg Bool.false_ne_true, List.length_modifyHead,
        List.count_cons_of_ne newline]
      exact inductionHypothesis

/-- What has no newline stands at the start of the first line. -/
theorem exists_first_line
    {front : List Glyph}
    (unbroken : .char '\n' ∉ front)
    (rest : List Glyph) :
    ∃ more others, lines (front ++ rest) = (front ++ more) :: others := by
  induction front with
  | nil => exact List.exists_cons_of_ne_nil (List.splitOn_ne_nil _ _)
  | cons glyph front inductionHypothesis =>
    have other : (glyph == .char '\n') = false := by
      rw [beq_eq_false_iff_ne]
      rintro rfl
      exact unbroken (.head front)
    obtain ⟨more, others, lines_eq⟩ :=
      inductionHypothesis fun found => unbroken (.tail glyph found)
    refine ⟨more, others, ?_⟩
    rw [lines] at lines_eq ⊢
    rw [List.cons_append, List.splitOn_cons_eq_if_modifyHead, other,
      if_neg Bool.false_ne_true, lines_eq]
    rfl

/-- A glyph stands on the line that the newlines before it count, behind the characters
since the last of them. -/
theorem exists_line
    (before : List Char)
    {glyph : Glyph}
    (inLine : glyph ≠ .char '\n')
    (later : List Glyph) :
    ∃ rest, (lines (before.map .char ++ glyph :: later))[before.count '\n']? =
      some ((lastLine before).map .char ++ glyph :: rest) := by
  have unbroken : .char '\n' ∉ (lastLine before).map Glyph.char ++ [glyph] := by
    simpa [inLine.symm] using newline_not_mem_lastLine before
  obtain ⟨rest, others, first⟩ := exists_first_line unbroken later
  rw [List.append_assoc, List.append_assoc, List.singleton_append, List.singleton_append] at first
  refine ⟨rest, ?_⟩
  rcases eq_lastLine_or_append before with single | ⟨earlier, split⟩
  · rw [count_newline_of_eq_lastLine single]
    rw [← single] at first ⊢
    rw [first, List.getElem?_cons_zero]
  · have source_eq : before.map Glyph.char ++ glyph :: later =
        earlier.map .char ++
          .char '\n' :: ((lastLine before).map .char ++ glyph :: later) := by
      conv_lhs => rw [split]
      simp
    have index_eq : before.count '\n' = (lines (earlier.map .char)).length := by
      rw [count_newline_of_append split, length_lines_map]
    rw [source_eq, lines_append_newline, first, index_eq,
      List.getElem?_append_right (Nat.le_refl _), Nat.sub_self, List.getElem?_cons_zero]

/-! ## Units of UTF-16 -/

/-- The units of a character in UTF-16: its code point, or the two surrogates of one beyond
the basic multilingual plane. -/
def units (c : Char) : List Nat :=
  if c.toNat < 0x10000 then
    [c.toNat]
  else
    [0xD800 + (c.toNat - 0x10000) / 0x400, 0xDC00 + (c.toNat - 0x10000) % 0x400]

/-- A text in UTF-16. -/
def utf16 (text : List Char) : List Nat :=
  text.flatMap units

theorem length_units_pos (c : Char) : 0 < (units c).length := by
  unfold units
  split <;> simp

theorem length_units_eq_one_iff
    {c : Char} :
    (units c).length = 1 ↔ c.toNat < 0x10000 := by
  unfold units
  split <;> simp_all

theorem length_le_length_utf16 (text : List Char) : text.length ≤ (utf16 text).length := by
  induction text with
  | nil => exact Nat.zero_le _
  | cons c text inductionHypothesis =>
    have units_pos := length_units_pos c
    rw [utf16, List.flatMap_cons, List.length_append, List.length_cons]
    rw [utf16] at inductionHypothesis
    omega

/-- A text has as many units as characters exactly if all of these lie in the basic
multilingual plane. -/
theorem length_utf16_eq_iff
    {text : List Char} :
    (utf16 text).length = text.length ↔ ∀ c ∈ text, c.toNat < 0x10000 := by
  induction text with
  | nil => simp [utf16]
  | cons c text inductionHypothesis =>
    have units_pos := length_units_pos c
    have text_le := length_le_length_utf16 text
    have split : (utf16 (c :: text)).length = (units c).length + (utf16 text).length := by
      rw [utf16, List.flatMap_cons, List.length_append]
      rfl
    rw [List.forall_mem_cons, ← inductionHypothesis, ← length_units_eq_one_iff, split,
      List.length_cons]
    omega

end Text

/-! ## Places and cursors -/

/-- No two places of a text have the same line and the same column. -/
theorem Position.eq_of_line_column
    {before before' : List Char}
    (initial : before <+: before')
    (line_eq : (after before).line = (after before').line)
    (column_eq : (after before).column = (after before').column) :
    before = before' := by
  obtain ⟨more, rfl⟩ := initial
  simp only [after, List.count_append] at line_eq
  have sameLine : '\n' ∉ more := List.count_eq_zero.mp (by omega)
  have lengths_eq : (Text.lastLine before).length = (Text.lastLine (before ++ more)).length := by
    simp only [after] at column_eq
    simp only [Text.lastLine]
    omega
  rw [Text.lastLine_append before sameLine, List.length_append] at lengths_eq
  have nothing : more = [] := List.eq_nil_of_length_eq_zero (by omega)
  rw [nothing, List.append_nil]

namespace Editor

/-- The cursor behind some characters. -/
def Cursor.after (before : List Char) : Cursor where
  line := before.count '\n'
  character := (Text.lastLine before).length

theorem ofInt_natCast (number : Nat) : UInt32.ofInt number = .ofNat number := by
  have wrapped : ((number : Int) % 2 ^ 32).toNat = number % 2 ^ 32 := by omega
  rw [UInt32.ofInt, wrapped, UInt32.ofNat_mod_size]

/-- What is published of the place behind some characters. -/
theorem Place.ofPosition_after (before : List Char) :
    ofPosition (.after before) =
      { line := .ofNat (before.count '\n')
        character := .ofNat (Text.lastLine before).length } := by
  have line_eq : (Position.after before).line - 1 = (before.count '\n' : Nat) := by
    simp only [Position.after]
    omega
  have column_eq : (Position.after before).column - 1 = ((Text.lastLine before).length : Nat) := by
    simp only [Position.after, Text.lastLine]
    omega
  rw [ofPosition, line_eq, column_eq, ofInt_natCast, ofInt_natCast]

end Editor
end GlyphStack
