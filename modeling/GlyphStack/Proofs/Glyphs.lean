import GlyphStack.Text.Utf8

/-!
# Bytes, characters and glyphs

Reading bytes as glyphs is tied to the encoding of characters alone.  A glyph is
a character where the bytes begin with the encoding of one, and a stray byte
where they begin with the encoding of none.  So the glyphs of an encoded text
are its characters, and whatever the bytes are, nothing of them is lost.
-/

namespace GlyphStack

/-- The bytes of a sequence of characters in UTF-8. -/
def Text.utf8 (text : List Char) : List UInt8 :=
  text.flatMap String.utf8EncodeChar

@[simp] theorem Text.utf8_nil : Text.utf8 [] = [] := rfl

@[simp] theorem Text.utf8_cons
    (c : Char)
    (text : List Char) :
    Text.utf8 (c :: text) = String.utf8EncodeChar c ++ Text.utf8 text := rfl

namespace Glyph

/-- Whether a glyph is the one that stands at the start of some bytes. -/
def Begins (input : List UInt8) : Glyph -> Prop
  | .char c => String.utf8EncodeChar c <+: input
  | .stray byte =>
    input.head? = some byte ∧ ∀ c, ¬ String.utf8EncodeChar c <+: input

/-- A character is read from exactly the bytes that begin with its encoding. -/
theorem firstChar?_eq_some_iff
    {input : List UInt8}
    {c : Char} :
    firstChar? input = some c ↔ String.utf8EncodeChar c <+: input := by
  have short : (String.utf8EncodeChar c).length ≤ 4 := by
    rw [String.length_utf8EncodeChar]
    exact c.utf8Size_le_four
  constructor
  · intro found
    obtain ⟨rest, split⟩ := ByteArray.exists_of_utf8DecodeChar?_eq_some found
    have taken : input.take 4 = String.utf8EncodeChar c ++ rest.data.toList := by
      have data := congrArg (fun bytes : ByteArray => bytes.data.toList) split
      simpa [ByteArray.data_append] using data
    exact (List.prefix_append _ _).trans (taken ▸ List.take_prefix 4 input)
  · rintro ⟨rest, rfl⟩
    rw [firstChar?, List.take_append, List.take_of_length_le short, List.toByteArray_append]
    exact ByteArray.utf8DecodeChar?_utf8EncodeChar_append

theorem firstChar?_eq_none_iff
    {input : List UInt8} :
    firstChar? input = none ↔ ∀ c, ¬ String.utf8EncodeChar c <+: input := by
  rw [Option.eq_none_iff_forall_ne_some]
  exact forall_congr' fun c => not_congr firstChar?_eq_some_iff

theorem utf8EncodeChar_ne_nil (c : Char) : String.utf8EncodeChar c ≠ [] := by
  intro empty
  have size : c.utf8Size = 0 := by
    rw [← String.length_utf8EncodeChar, empty, List.length_nil]
  exact absurd c.utf8Size_pos (by omega)

/-- The encoding of a character is read as that character. -/
theorem decode_utf8EncodeChar_append
    (c : Char)
    (rest : List UInt8) :
    decode (String.utf8EncodeChar c ++ rest) = .char c :: decode rest := by
  obtain ⟨byte, tail, encoded⟩ := List.exists_cons_of_ne_nil (utf8EncodeChar_ne_nil c)
  have found : firstChar? (byte :: (tail ++ rest)) = some c := by
    rw [firstChar?_eq_some_iff, encoded]
    exact List.prefix_append (byte :: tail) rest
  have length_tail : c.utf8Size - 1 = tail.length := by
    rw [← String.length_utf8EncodeChar, encoded]
    simp
  rw [encoded, List.cons_append, decode, found]
  simp [length_tail]

/-- A byte at which no character begins is passed alone. -/
theorem decode_stray
    {byte : UInt8}
    {rest : List UInt8}
    (stray : ∀ c, ¬ String.utf8EncodeChar c <+: byte :: rest) :
    decode (byte :: rest) = .stray byte :: decode rest := by
  rw [decode, firstChar?_eq_none_iff.mpr stray]

/-- The bytes after the glyph at their start are read on their own. -/
theorem Begins.decode_eq
    {input : List UInt8}
    {glyph : Glyph}
    (begins : glyph.Begins input) :
    ∃ rest, input = glyph.bytes ++ rest ∧ decode input = glyph :: decode rest := by
  cases glyph with
  | char c =>
    obtain ⟨rest, rfl⟩ := begins
    exact ⟨rest, rfl, decode_utf8EncodeChar_append c rest⟩
  | stray byte =>
    obtain ⟨first, stray⟩ := begins
    cases input with
    | nil => simp at first
    | cons other rest =>
      obtain rfl : other = byte := by simpa using first
      exact ⟨rest, rfl, decode_stray stray⟩

/-- Wherever there are bytes, a glyph stands at their start. -/
theorem exists_begins
    {input : List UInt8}
    (nonempty : input ≠ []) :
    ∃ glyph : Glyph, glyph.Begins input := by
  obtain ⟨byte, rest, rfl⟩ := List.exists_cons_of_ne_nil nonempty
  by_cases encoded : ∃ c, String.utf8EncodeChar c <+: byte :: rest
  · obtain ⟨c, encoded⟩ := encoded
    exact ⟨.char c, encoded⟩
  · exact ⟨.stray byte, rfl, fun c begins => encoded ⟨c, begins⟩⟩

/-- The first glyph is the one that stands at the start. -/
theorem begins_of_decode_eq_cons
    {input : List UInt8}
    {glyph : Glyph}
    {later : List Glyph}
    (decoded : decode input = glyph :: later) :
    glyph.Begins input ∧ ∃ rest, input = glyph.bytes ++ rest ∧ decode rest = later := by
  have nonempty : input ≠ [] := by
    rintro rfl
    simp [decode] at decoded
  obtain ⟨other, begins⟩ := exists_begins nonempty
  obtain ⟨rest, split, decode_eq⟩ := begins.decode_eq
  rw [decode_eq, List.cons.injEq] at decoded
  obtain ⟨rfl, rfl⟩ := decoded
  exact ⟨begins, rest, split, rfl⟩

/-- Characters that the bytes begin with are read first. -/
theorem decode_utf8_append
    (text : List Char)
    (rest : List UInt8) :
    decode (Text.utf8 text ++ rest) = text.map .char ++ decode rest := by
  induction text with
  | nil => rfl
  | cons c text inductionHypothesis =>
    rw [Text.utf8_cons, List.append_assoc, decode_utf8EncodeChar_append, inductionHypothesis]
    rfl

/-- An encoded text is read as its characters. -/
theorem decode_utf8 (text : List Char) : decode (Text.utf8 text) = text.map .char := by
  have read := decode_utf8_append text []
  rwa [List.append_nil, decode, List.append_nil] at read

/-- Bytes whose first glyphs are characters begin with the encoding of these. -/
theorem decode_eq_append_iff
    {input : List UInt8}
    {text : List Char}
    {later : List Glyph} :
    decode input = text.map .char ++ later ↔
      ∃ rest, input = Text.utf8 text ++ rest ∧ decode rest = later := by
  constructor
  · intro decoded
    induction text generalizing input with
    | nil => exact ⟨input, rfl, decoded⟩
    | cons c text inductionHypothesis =>
      obtain ⟨-, tail, split, decoded_tail⟩ := begins_of_decode_eq_cons decoded
      obtain ⟨rest, rfl, decoded_rest⟩ := inductionHypothesis decoded_tail
      exact ⟨rest, by simp [split, bytes], decoded_rest⟩
  · rintro ⟨rest, rfl, rfl⟩
    exact decode_utf8_append text rest

theorem decode_eq_nil_iff
    {input : List UInt8} :
    decode input = [] ↔ input = [] := by
  constructor
  · intro decoded
    cases input with
    | nil => rfl
    | cons byte rest =>
      obtain ⟨glyph, begins⟩ := exists_begins (List.cons_ne_nil byte rest)
      obtain ⟨later, -, decode_eq⟩ := begins.decode_eq
      simp [decode_eq] at decoded
  · rintro rfl
    rw [decode]

/-- Bytes are read as characters exactly if they are the encoding of these. -/
theorem decode_eq_map_iff
    {input : List UInt8}
    {text : List Char} :
    decode input = text.map .char ↔ input = Text.utf8 text := by
  have split := @decode_eq_append_iff input text []
  rw [List.append_nil] at split
  simp [split, decode_eq_nil_iff]

/-- Different texts have different glyphs. -/
theorem map_char_inj
    {text other : List Char}
    (equal : text.map Glyph.char = other.map .char) :
    text = other :=
  (List.map_inj_right fun _ _ => Glyph.char.inj).mp equal

end Glyph
end GlyphStack
