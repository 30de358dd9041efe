import GlyphStack.Proofs.Utf32
import Mathlib.Data.List.Forall2

/-!
# Characters one by one and all at once

One instruction prints the top value as a character, another one prints the whole stack
as text.  Both take exactly the Unicode scalar values, and the text is made up of the
characters that the first instruction prints for the values from the bottom up.  Only a
byte-order mark at the bottom is not part of the text.  If a value is no scalar value,
the second instruction names the lowest such value with the number of values above it.
-/

namespace GlyphStack
namespace Effect

/-- A Unicode scalar value: a code point that is no surrogate. -/
def IsScalar (value : Int64) : Prop :=
  0 ≤ value.toInt ∧ value.toInt ≤ 0x10FFFF ∧
    ¬ (0xD800 ≤ value.toInt ∧ value.toInt ≤ 0xDFFF)

instance (value : Int64) : Decidable (IsScalar value) :=
  inferInstanceAs (Decidable (_ ∧ _ ∧ ¬ _))

/-- A value is printed as the given text wherever it is on top of the stack, and the
machine stays as it is. -/
def PrintsAs (value : Int64) (text : String) : Prop :=
  ∀ (instruction : Instruction) (machine : Machine), instruction.kind = .chr ->
    machine.stack.peek? = some value -> apply instruction machine = .ok (some text) machine

/-- A value is refused wherever it is on top of the stack, and the machine stays as it
is. -/
def IsRefused (value : Int64) : Prop :=
  ∀ (instruction : Instruction) (machine : Machine), instruction.kind = .chr ->
    machine.stack.peek? = some value ->
      apply instruction machine = .error (.invalidCodePoint value) machine

variable {value : Int64} {values : List Int64}

/-! ## One value -/

theorem isScalar_iff :
    IsScalar value ↔ ¬ value < 0 ∧ value.toInt.toNat.isValidChar := by
  have negative_iff : value < 0 ↔ value.toInt < 0 := by
    simp [Int64.lt_iff_toInt_lt]
  have valid_iff : value.toInt.toNat.isValidChar ↔
      value.toInt.toNat < 0xD800 ∨ 0xDFFF < value.toInt.toNat ∧ value.toInt.toNat < 0x110000 :=
    Iff.rfl
  rw [IsScalar, negative_iff, valid_iff]
  omega

/-- A value has a character exactly if it is a scalar value. -/
theorem isSome_character?_iff :
    (character? value).isSome = true ↔ IsScalar value := by
  rw [isScalar_iff, character?]
  by_cases negative : value < 0
  · simp [negative]
  by_cases valid : value.toInt.toNat.isValidChar
  · rw [if_neg negative, dif_pos valid]
    exact iff_of_true rfl ⟨negative, valid⟩
  · rw [if_neg negative, dif_neg valid]
    exact iff_of_false (by simp) fun scalar => valid scalar.2

theorem character?_eq_none_iff :
    character? value = none ↔ ¬ IsScalar value := by
  rw [← isSome_character?_iff]
  simp

theorem printsAs_of_character?
    {c : Char}
    (found : character? value = some c) :
    PrintsAs value (String.singleton c) := by
  intro instruction machine isChr top
  rw [apply_chr machine isChr, top]
  simp only [found]

theorem isRefused_of_character?
    (absent : character? value = none) :
    IsRefused value := by
  intro instruction machine isChr top
  rw [apply_chr machine isChr, top]
  simp only [absent]

/-- A machine with a value on top of its stack, and an instruction to print it. -/
theorem exists_on_top (value : Int64) :
    ∃ (instruction : Instruction) (machine : Machine), instruction.kind = .chr ∧
      machine.stack.peek? = some value :=
  ⟨.plain .chr .start, { Machine.new .standard with stack := Stack.empty.push value }, rfl, rfl⟩

theorem not_isRefused_of_printsAs
    {text : String}
    (printsAs : PrintsAs value text) :
    ¬ IsRefused value := by
  intro isRefused
  obtain ⟨instruction, machine, isChr, top⟩ := exists_on_top value
  have printed := printsAs instruction machine isChr top
  rw [isRefused instruction machine isChr top] at printed
  cases printed

/-- The scalar values are printed, and all others are refused. -/
theorem printsAs_or_isRefused (value : Int64) :
    ((∃ text, PrintsAs value text) ↔ IsScalar value) ∧ (IsRefused value ↔ ¬ IsScalar value) := by
  by_cases scalar : IsScalar value
  · obtain ⟨c, found⟩ := Option.isSome_iff_exists.mp (isSome_character?_iff.mpr scalar)
    have printsAs := printsAs_of_character? found
    exact ⟨iff_of_true ⟨_, printsAs⟩ scalar,
      iff_of_false (not_isRefused_of_printsAs printsAs) (not_not_intro scalar)⟩
  · have isRefused := isRefused_of_character? (character?_eq_none_iff.mpr scalar)
    refine ⟨iff_of_false ?_ scalar, iff_of_true isRefused scalar⟩
    rintro ⟨text, printsAs⟩
    exact not_isRefused_of_printsAs printsAs isRefused

/-- The byte-order mark has one code point. -/
theorem character?_eq_byteOrderMark_iff :
    character? value = some byteOrderMark ↔ value = 0xFEFF := by
  constructor
  · intro found
    rw [← Int64.toInt_inj, Utf32.toInt_of_character? found]
    rfl
  · rintro rfl
    rfl

/-! ## All values -/

/-- Scalar values have a text, one character for each of them. -/
theorem exists_characters
    (scalars : ∀ value ∈ values, IsScalar value) :
    ∃ text, characters values = .ok text ∧
      List.Forall₂ (fun value c => character? value = some c) values text := by
  induction values with
  | nil => exact ⟨[], rfl, .nil⟩
  | cons value above inductionHypothesis =>
    obtain ⟨rest, read, spells⟩ :=
      inductionHypothesis fun other member => scalars other (.tail value member)
    obtain ⟨c, found⟩ := Option.isSome_iff_exists.mp
      (isSome_character?_iff.mpr (scalars value (.head above)))
    refine ⟨c :: rest, ?_, .cons found spells⟩
    simp [characters, found, read, bind, Except.bind, pure, Except.pure]

/-- The lowest value that is no scalar value decides the failure. -/
theorem characters_of_first
    {below above : List Int64}
    (scalars : ∀ lower ∈ below, IsScalar lower)
    (refused : ¬ IsScalar value) :
    characters (below ++ value :: above) = .error (.invalidCodePointAt value above.length) := by
  induction below with
  | nil => simp [characters, character?_eq_none_iff.mpr refused]
  | cons lower below inductionHypothesis =>
    obtain ⟨c, found⟩ := Option.isSome_iff_exists.mp
      (isSome_character?_iff.mpr (scalars lower (.head below)))
    have later := inductionHypothesis fun other member => scalars other (.tail lower member)
    simp [characters, found, later, bind, Except.bind]

theorem exists_first
    (refused : ¬ ∀ value ∈ values, IsScalar value) :
    ∃ below value above, values = below ++ value :: above ∧
      (∀ lower ∈ below, IsScalar lower) ∧ ¬ IsScalar value := by
  cases found : values.find? fun value => ¬ IsScalar value with
  | none =>
    refine absurd (fun value member => ?_) refused
    simpa using List.find?_eq_none.mp found value member
  | some value =>
    obtain ⟨isFirst, below, above, split, scalars⟩ := List.find?_eq_some_iff_append.mp found
    refine ⟨below, value, above, split, fun lower member => ?_, by simpa using isFirst⟩
    simpa using scalars lower member

/-- A mark at the start of the text is a mark at the bottom of the stack. -/
theorem head?_eq_byteOrderMark_iff
    {text : List Char}
    (spells : List.Forall₂ (fun value c => character? value = some c) values text) :
    text.head? = some byteOrderMark ↔ values.head? = some 0xFEFF := by
  cases spells with
  | nil => simp
  | cons found rest =>
    rw [List.head?_cons, List.head?_cons, Option.some_inj, Option.some_inj,
      ← character?_eq_byteOrderMark_iff, found, Option.some_inj]

theorem join_singletons (text : List Char) :
    String.join (text.map String.singleton) = String.ofList text := by
  apply String.toList_inj.mp
  rw [String.toList_join, String.toList_ofList, List.flatMap_map]
  simp [String.toList_singleton]

/-- The text of some characters lacks a byte-order mark at its start, and nothing else. -/
theorem ofList_eq_append_textOf (text : List Char) :
    String.ofList text =
      (if text.head? = some byteOrderMark then "\ufeff" else "") ++ textOf text := by
  cases text with
  | nil => rfl
  | cons c rest =>
    by_cases isMark : c = byteOrderMark
    · have marked : (c :: rest).head? = some byteOrderMark := congrArg some isMark
      rw [textOf, if_pos isMark, if_pos marked, isMark, ← List.singleton_append,
        String.ofList_append]
      rfl
    · rw [textOf, if_neg isMark, if_neg (by simpa using isMark), String.empty_append]

/-- A stack of scalar values is printed as the characters of its values from the bottom
up, without a byte-order mark at the bottom. -/
theorem exists_printed
    {decode? : List UInt8 -> Option (List Char)}
    (honors : Utf32.Honors decode?)
    {instruction : Instruction}
    (isToText : instruction.kind = .toText)
    {machine : Machine}
    (scalars : ∀ value ∈ machine.stack.toList, IsScalar value) :
    ∃ texts text, List.Forall₂ PrintsAs machine.stack.toList texts ∧
      String.join texts =
        (if machine.stack.toList.head? = some 0xFEFF then "\ufeff" else "") ++ text ∧
      apply instruction machine = .ok (some text) machine ∧
      decode? (Utf32.pack machine.stack.toList) = some text.toList := by
  obtain ⟨text, read, spells⟩ := exists_characters scalars
  refine ⟨text.map String.singleton, textOf text, ?_, ?_, ?_, honors.decode?_pack read⟩
  · rw [List.forall₂_map_right_iff]
    exact spells.imp fun value c => printsAs_of_character?
  · rw [join_singletons, ofList_eq_append_textOf]
    simp only [head?_eq_byteOrderMark_iff spells]
  · rw [apply_toText machine isToText, read]

/-- A stack with other values is not printed, because of the lowest of them. -/
theorem exists_failure
    {instruction : Instruction}
    (isToText : instruction.kind = .toText)
    {machine : Machine}
    (refused : ¬ ∀ value ∈ machine.stack.toList, IsScalar value) :
    ∃ below value above, machine.stack.toList = below ++ value :: above ∧
      (∀ lower ∈ below, IsScalar lower) ∧ ¬ IsScalar value ∧
      apply instruction machine = .error (.invalidCodePointAt value above.length) machine := by
  obtain ⟨below, value, above, split, scalars, isFirst⟩ := exists_first refused
  refine ⟨below, value, above, split, scalars, isFirst, ?_⟩
  rw [apply_toText machine isToText, split, characters_of_first scalars isFirst]

/-- Printing the stack as text agrees with printing its values one by one.  The stack is
printed exactly if all its values are scalar values, and then as what is printed for its
values from the bottom up, without a byte-order mark at the bottom; this is also what
every decoder that honors such marks makes of the packed stack.  Otherwise the lowest
value that is no scalar value is named, with the number of values above it.  These are
the values that are refused one by one.  In all cases the machine stays as it is. -/
theorem toText_agrees_with_chr
    {decode? : List UInt8 -> Option (List Char)}
    (honors : Utf32.Honors decode?)
    {instruction : Instruction}
    (isToText : instruction.kind = .toText)
    (machine : Machine) :
    ((∃ text after, apply instruction machine = .ok text after) ↔
      ∀ value ∈ machine.stack.toList, IsScalar value) ∧
    ((∀ value ∈ machine.stack.toList, IsScalar value) ->
      ∃ texts text, List.Forall₂ PrintsAs machine.stack.toList texts ∧
        String.join texts =
          (if machine.stack.toList.head? = some 0xFEFF then "\ufeff" else "") ++ text ∧
        apply instruction machine = .ok (some text) machine ∧
        decode? (Utf32.pack machine.stack.toList) = some text.toList) ∧
    ((¬ ∀ value ∈ machine.stack.toList, IsScalar value) ->
      ∃ below value above, machine.stack.toList = below ++ value :: above ∧
        (∀ lower ∈ below, IsScalar lower) ∧ ¬ IsScalar value ∧
        apply instruction machine = .error (.invalidCodePointAt value above.length) machine ∧
        (Fault.invalidCodePointAt value above.length).message =
          "invalid code point: " ++ toString value.toInt ++ " at depth " ++
            toString above.length) ∧
    ∀ value, ((∃ text, PrintsAs value text) ↔ IsScalar value) ∧
      (IsRefused value ↔ ¬ IsScalar value) := by
  refine ⟨⟨?_, ?_⟩, exists_printed honors isToText, ?_, printsAs_or_isRefused⟩
  · rintro ⟨text, after, printed⟩
    by_contra refused
    obtain ⟨below, value, above, -, -, -, failed⟩ := exists_failure isToText refused
    rw [failed] at printed
    cases printed
  · intro scalars
    obtain ⟨-, text, -, -, printed, -⟩ := exists_printed honors isToText scalars
    exact ⟨some text, machine, printed⟩
  · intro refused
    obtain ⟨below, value, above, split, scalars, isFirst, failed⟩ :=
      exists_failure isToText refused
    exact ⟨below, value, above, split, scalars, isFirst, failed, rfl⟩

/-- A mark at the bottom, a letter, a mark and the largest code point; and a surrogate
between two letters. -/
theorem toText_agrees_with_chr_marked :
    (∀ value ∈ [0xFEFF, 97, 0xFEFF, 0x10FFFF], IsScalar value) ∧
    (∃ texts text, List.Forall₂ PrintsAs [0xFEFF, 97, 0xFEFF, 0x10FFFF] texts ∧
      String.join texts = "\ufeff" ++ text ∧
      apply (.plain .toText .start)
          { Machine.new .standard with stack := { topDown := [0x10FFFF, 0xFEFF, 97, 0xFEFF] } } =
        .ok (some text)
          { Machine.new .standard with stack := { topDown := [0x10FFFF, 0xFEFF, 97, 0xFEFF] } } ∧
      Utf32.strict? (Utf32.pack [0xFEFF, 97, 0xFEFF, 0x10FFFF]) = some text.toList) ∧
    ¬ IsScalar 0xD800 ∧
    ∃ below value above, [97, 0xD800, 98] = below ++ value :: above ∧
      (∀ lower ∈ below, IsScalar lower) ∧ ¬ IsScalar value ∧
      apply (.plain .toText .start)
          { Machine.new .standard with stack := { topDown := [98, 0xD800, 97] } } =
        .error (.invalidCodePointAt value above.length)
          { Machine.new .standard with stack := { topDown := [98, 0xD800, 97] } } ∧
      (Fault.invalidCodePointAt value above.length).message =
        "invalid code point: " ++ toString value.toInt ++ " at depth " ++
          toString above.length := by
  have scalars : ∀ value ∈ [0xFEFF, 97, 0xFEFF, 0x10FFFF], IsScalar value := by
    simp [IsScalar]
  have surrogate : ¬ ∀ value ∈ [97, 0xD800, 98], IsScalar value := by
    simp [IsScalar]
  refine ⟨scalars, ?_, by decide, ?_⟩
  · exact (toText_agrees_with_chr Utf32.honors_strict? rfl
      { Machine.new .standard with
        stack := { topDown := [0x10FFFF, 0xFEFF, 97, 0xFEFF] } }).2.1 scalars
  · exact (toText_agrees_with_chr Utf32.honors_strict? rfl
      { Machine.new .standard with stack := { topDown := [98, 0xD800, 97] } }).2.2.1 surrogate

end Effect
end GlyphStack
