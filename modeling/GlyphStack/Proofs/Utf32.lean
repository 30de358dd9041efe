import GlyphStack.Proofs.Effects

/-!
# Texts in UTF-32

A stack is a text if its values are code points.  The text can be found value by
value, or by packing the values into bytes, four for each of them and the least
significant first, and decoding the bytes as UTF-32.  Both give the same text: a
byte-order mark at the bottom of the stack shows the order that the bytes have
anyway, and no code point is packed into the mark of the other order.

Of the decoder only this is assumed: it honors a byte-order mark at the start, takes
the least significant byte first if there is none, and reads whole units.
-/

namespace GlyphStack
namespace Utf32

/-- The order of the bytes of a unit. -/
inductive ByteOrder where
  /-- The least significant byte comes first. -/
  | little
  /-- The most significant byte comes first. -/
  | big
  deriving DecidableEq, Repr

/-- The number that four bytes stand for. -/
def ByteOrder.unit : ByteOrder -> UInt8 -> UInt8 -> UInt8 -> UInt8 -> Nat
  | .little, a, b, c, d =>
    a.toNat + 0x100 * b.toNat + 0x10000 * c.toNat + 0x1000000 * d.toNat
  | .big, a, b, c, d =>
    d.toNat + 0x100 * c.toNat + 0x10000 * b.toNat + 0x1000000 * a.toNat

/-- The character of a unit.  A unit that is no code point is replaced. -/
def character (unit : Nat) : Char :=
  if unit.isValidChar then Char.ofNat unit else '\ufffd'

/-- The characters of some units.  Bytes that are left over cannot be decoded. -/
def characters? (order : ByteOrder) : List UInt8 -> Option (List Char)
  | [] => some []
  | a :: b :: c :: d :: rest =>
    (characters? order rest).map (character (order.unit a b c d) :: ·)
  | _ => none

/-- The byte-order mark with its bytes in the given order. -/
def mark : ByteOrder -> List UInt8
  | .little => [0xFF, 0xFE, 0x00, 0x00]
  | .big => [0x00, 0x00, 0xFE, 0xFF]

/-- What a decoder does with bytes that make up whole units. -/
structure Honors (decode? : List UInt8 -> Option (List Char)) : Prop where
  /-- A mark at the start decides the order and is not part of the text. -/
  marked : ∀ order rest text, characters? order rest = some text ->
    decode? (mark order ++ rest) = some text
  /-- Without a mark the least significant byte comes first. -/
  unmarked : ∀ bytes text, (∀ order, bytes.take 4 ≠ mark order) ->
    characters? .little bytes = some text -> decode? bytes = some text

/-- A decoder that fails on bytes that are left over. -/
def strict? (bytes : List UInt8) : Option (List Char) :=
  if bytes.take 4 = mark .big then
    characters? .big (bytes.drop 4)
  else if bytes.take 4 = mark .little then
    characters? .little (bytes.drop 4)
  else
    characters? .little bytes

theorem honors_strict? : Honors strict? where
  marked order rest text decoded := by
    cases order <;> exact decoded
  unmarked bytes text unmarked decoded := by
    rw [strict?, if_neg (unmarked .big), if_neg (unmarked .little), decoded]

/-- The four bytes of a number. -/
def packUnit (unit : Nat) : List UInt8 :=
  [.ofNat unit, .ofNat (unit / 0x100), .ofNat (unit / 0x10000), .ofNat (unit / 0x1000000)]

/-- Pack the low 32 bits of some values, lowest value first. -/
def pack (values : List Int64) : List UInt8 :=
  values.flatMap fun value => packUnit (value.toInt % 0x100000000).toNat

/-- Packing a number of 32 bits loses nothing. -/
theorem unit_packUnit
    {unit : Nat}
    (small : unit < 0x100000000) :
    ByteOrder.little.unit (.ofNat unit) (.ofNat (unit / 0x100)) (.ofNat (unit / 0x10000))
      (.ofNat (unit / 0x1000000)) = unit := by
  simp only [ByteOrder.unit, UInt8.toNat_ofNat']
  omega

theorem packUnit_injective
    {first second : Nat}
    (firstSmall : first < 0x100000000)
    (secondSmall : second < 0x100000000)
    (equal : packUnit first = packUnit second) :
    first = second := by
  simp only [packUnit, List.cons.injEq, and_true] at equal
  obtain ⟨equal₀, equal₁, equal₂, equal₃⟩ := equal
  rw [← unit_packUnit firstSmall, ← unit_packUnit secondSmall, equal₀, equal₁, equal₂, equal₃]

/-- A value that is a code point is the code point of its character. -/
theorem toInt_of_character?
    {value : Int64}
    {c : Char}
    (found : Effect.character? value = some c) :
    value.toInt = c.toNat := by
  rw [Effect.character?] at found
  by_cases negative : value < 0
  · rw [if_pos negative] at found
    cases found
  by_cases valid : value.toInt.toNat.isValidChar
  · rw [if_neg negative, dif_pos valid] at found
    obtain rfl := Option.some.inj found
    have nonneg : 0 ≤ value.toInt := by
      simpa [Int64.lt_iff_toInt_lt] using negative
    have code_eq : (Char.ofNatAux value.toInt.toNat valid).toNat = value.toInt.toNat := rfl
    omega
  · rw [if_neg negative, dif_neg valid] at found
    cases found

theorem character_toNat (c : Char) : character c.toNat = c := by
  have valid : c.toNat.isValidChar := c.valid
  rw [character, if_pos valid, Char.ofNat_toNat]

theorem toNat_lt (c : Char) : c.toNat < 0x110000 := by
  rcases c.valid with low | ⟨-, high⟩
  · exact Nat.lt_trans low (by decide)
  · exact high

/-- A code point is packed into the bytes of its character. -/
theorem pack_cons
    {value : Int64}
    {c : Char}
    (found : Effect.character? value = some c)
    (above : List Int64) :
    pack (value :: above) = packUnit c.toNat ++ pack above := by
  have small := toNat_lt c
  have value_eq := toInt_of_character? found
  have low : (value.toInt % 0x100000000).toNat = c.toNat := by omega
  rw [pack, List.flatMap_cons, low]
  rfl

theorem characters?_packUnit_append
    (c : Char)
    (bytes : List UInt8) :
    characters? .little (packUnit c.toNat ++ bytes) =
      (characters? .little bytes).map (c :: ·) := by
  have small := toNat_lt c
  simp only [packUnit, List.cons_append, List.nil_append, characters?]
  rw [unit_packUnit (by omega), character_toNat]

theorem exists_of_characters_cons
    {value : Int64}
    {above : List Int64}
    {text : List Char}
    (read : Effect.characters (value :: above) = .ok text) :
    ∃ c rest, Effect.character? value = some c ∧ Effect.characters above = .ok rest ∧
      text = c :: rest := by
  rw [Effect.characters] at read
  cases found : Effect.character? value with
  | none => simp [found] at read
  | some c =>
    cases rest_eq : Effect.characters above with
    | error fault => simp [found, rest_eq, bind, Except.bind] at read
    | ok rest =>
      simp only [found, rest_eq, bind, Except.bind, pure, Except.pure, Except.ok.injEq] at read
      exact ⟨c, rest, rfl, rfl, read.symm⟩

/-- Values that are no text have one that is no code point. -/
theorem exists_of_characters_eq_error
    {values : List Int64}
    {fault : Fault}
    (failed : Effect.characters values = .error fault) :
    ∃ value depth, fault = .invalidCodePointAt value depth := by
  induction values with
  | nil => cases failed
  | cons value above inductionHypothesis =>
    rw [Effect.characters] at failed
    cases found : Effect.character? value with
    | none =>
      simp only [found, Except.error.injEq] at failed
      exact ⟨value, above.length, failed.symm⟩
    | some c =>
      cases rest : Effect.characters above with
      | error cause =>
        simp only [found, rest, bind, Except.bind, Except.error.injEq] at failed
        exact inductionHypothesis (failed ▸ rest)
      | ok text => simp [found, rest, bind, Except.bind, pure, Except.pure] at failed

/-- The packed values of a text are the units of its characters. -/
theorem characters?_pack
    {values : List Int64}
    {text : List Char}
    (read : Effect.characters values = .ok text) :
    characters? .little (pack values) = some text := by
  induction values generalizing text with
  | nil =>
    cases read
    rfl
  | cons value above inductionHypothesis =>
    obtain ⟨c, rest, found, readAbove, rfl⟩ := exists_of_characters_cons read
    rw [pack_cons found, characters?_packUnit_append, inductionHypothesis readAbove]
    rfl

/-- Values that are code points can be decoded, and decoding them gives their
text. -/
theorem Honors.decode?_pack
    {decode? : List UInt8 -> Option (List Char)}
    (honors : Honors decode?)
    {values : List Int64}
    {text : List Char}
    (read : Effect.characters values = .ok text) :
    decode? (pack values) = some (Effect.textOf text).toList := by
  cases values with
  | nil =>
    cases read
    exact honors.unmarked [] [] (by rintro (_ | _) <;> simp [mark]) rfl
  | cons value above =>
    have units := characters?_pack read
    obtain ⟨c, rest, found, readAbove, rfl⟩ := exists_of_characters_cons read
    have small := toNat_lt c
    rw [pack_cons found above] at units ⊢
    rw [Effect.textOf, String.toList_ofList]
    by_cases isMark : c = Effect.byteOrderMark
    · subst isMark
      rw [if_pos rfl]
      exact honors.marked .little (pack above) rest (characters?_pack readAbove)
    · rw [if_neg isMark]
      refine honors.unmarked _ _ (fun order equal => ?_) units
      have first : (packUnit c.toNat ++ pack above).take 4 = packUnit c.toNat :=
        List.take_left' rfl
      rw [first] at equal
      cases order with
      | little =>
        have code_eq : c.toNat = 0xFEFF := packUnit_injective (by omega) (by decide) equal
        exact isMark (Char.toNat_inj.mp code_eq)
      | big =>
        -- The mark of the other order, read in this order, is far beyond all code points.
        have code_eq : c.toNat = 0xFFFE0000 := packUnit_injective (by omega) (by decide) equal
        omega

/-- A stack as text has a value that is no code point, or is what its packed values
decode to. -/
theorem Honors.toText_cases
    {decode? : List UInt8 -> Option (List Char)}
    (honors : Honors decode?)
    (machine : Machine) :
    (∃ value depth,
      Effect.toText machine = .error (.invalidCodePointAt value depth) machine) ∨
    ∃ text, decode? (pack machine.stack.toList) = some text ∧
      Effect.toText machine = .ok (String.ofList text) machine := by
  rw [Effect.toText_apply]
  cases read : Effect.characters machine.stack.toList with
  | error fault =>
    obtain ⟨value, depth, rfl⟩ := exists_of_characters_eq_error read
    exact .inl ⟨value, depth, rfl⟩
  | ok text => exact .inr ⟨_, honors.decode?_pack read, by rw [String.ofList_toList]⟩

end Utf32
end GlyphStack
