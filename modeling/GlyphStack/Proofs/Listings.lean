import GlyphStack.Listing
import Mathlib.Data.List.Forall2

/-!
# What a listing shows

A listing is made of rows, one for every instruction, and none of them is broken by a
newline.  In a row the fields are words, which have no blanks, and there are only blanks
between them.  So the fields can be found again, however long they are, and with them
what the listing says of an instruction: its kind, its line and column, and the value of
a push.  Two programs have the same listing exactly if they agree in this.
-/

namespace GlyphStack

namespace Text

/-! ## Words between blanks -/

/-- A text of at least one character, without blanks and newlines. -/
structure IsWord (text : String) : Prop where
  /-- There is a character. -/
  nonempty : text.toList ≠ []
  /-- No character is a blank or a newline. -/
  unbroken : ∀ c ∈ text.toList, c ≠ ' ' ∧ c ≠ '\n'

/-- Whether a text has no blanks and newlines can be computed. -/
theorem unbroken_of_all
    {text : List Char}
    (plain : text.all (fun c => c != ' ' && c != '\n') = true) :
    ∀ c ∈ text, c ≠ ' ' ∧ c ≠ '\n' := by
  simpa using plain

theorem toList_pushn
    (text : String)
    (fill : Char)
    (count : Nat) :
    (text.pushn fill count).toList = text.toList ++ List.replicate count fill := by
  rw [String.pushn_eq_repeat_push]
  induction count with
  | zero => simp [Nat.repeat]
  | succ count inductionHypothesis =>
    simp [Nat.repeat, inductionHypothesis, List.replicate_succ']

theorem toList_padRight
    (columns : Nat)
    (text : String) :
    (padRight columns text).toList =
      text.toList ++ List.replicate (columns - text.length) ' ' :=
  toList_pushn text ' ' _

theorem toList_padLeft
    (fill : Char)
    (columns : Nat)
    (text : String) :
    (padLeft fill columns text).toList =
      List.replicate (columns - text.length) fill ++ text.toList := by
  simp [padLeft, toList_pushn]

theorem toList_upperHex
    (columns value : Nat) :
    (upperHex columns value).toList =
      List.replicate (columns - (Nat.toDigits 16 value).length) '0' ++
        (Nat.toDigits 16 value).map Char.toUpper := by
  simp [upperHex, toList_padLeft]

/-- A word is found again in front of blanks. -/
theorem IsWord.append_inj
    {first second : String}
    {rest rest' : List Char}
    (isWord : IsWord first)
    (isWord' : IsWord second)
    (ended : ∀ c ∈ rest.head?, c = ' ')
    (ended' : ∀ c ∈ rest'.head?, c = ' ')
    (equal : first.toList ++ rest = second.toList ++ rest') :
    first = second ∧ rest = rest' := by
  have found : ∀ {word : String} {rest : List Char}, IsWord word ->
      (∀ c ∈ rest.head?, c = ' ') ->
      (word.toList ++ rest).takeWhile (· != ' ') = word.toList := by
    intro word rest isWord ended
    have taken : ∀ c ∈ word.toList, (c != ' ') = true := by
      intro c found
      simpa using (isWord.unbroken c found).1
    rw [List.takeWhile_append_of_pos taken]
    cases rest with
    | nil => simp
    | cons c rest => simp [ended c rfl]
  have words_eq : first.toList = second.toList := by
    rw [← found isWord ended, equal, found isWord' ended']
  rw [words_eq] at equal
  exact ⟨String.toList_inj.mp words_eq, List.append_cancel_left equal⟩

/-- What follows some blanks is found again. -/
theorem blanks_append_inj
    {count count' : Nat}
    {rest rest' : List Char}
    (begun : ∀ c ∈ rest.head?, c ≠ ' ')
    (begun' : ∀ c ∈ rest'.head?, c ≠ ' ')
    (equal : List.replicate count ' ' ++ rest = List.replicate count' ' ' ++ rest') :
    rest = rest' := by
  have found : ∀ {count : Nat} {rest : List Char}, (∀ c ∈ rest.head?, c ≠ ' ') ->
      (List.replicate count ' ' ++ rest).dropWhile (· == ' ') = rest := by
    intro count rest begun
    rw [List.dropWhile_append_of_pos (by simp)]
    cases rest with
    | nil => rfl
    | cons c rest => simp [begun c rfl]
  rw [← found begun, equal, found begun']

/-! ## Lines of a text -/

/-- Texts without newlines that are ended by one each are the lines of the whole. -/
theorem splitOn_join
    {texts : List String}
    (unbroken : ∀ text ∈ texts, '\n' ∉ text.toList) :
    (String.join (texts.map (· ++ "\n"))).toList.splitOn '\n' =
      texts.map String.toList ++ [[]] := by
  rw [String.toList_join]
  induction texts with
  | nil => rfl
  | cons text texts inductionHypothesis =>
    have rest := inductionHypothesis fun other found => unbroken other (.tail text found)
    have newline : (text ++ "\n").toList = text.toList ++ ['\n'] := by simp
    rw [List.map_cons, List.flatMap_cons, newline, List.append_assoc, List.singleton_append,
      List.splitOn_append_cons_self_of_not_mem (unbroken text (.head texts)), rest]
    rfl

end Text

/-! ## Numbers and names -/

open Text (IsWord)

/-- The characters of an integer are digits and perhaps a sign. -/
theorem digit_or_sign_of_mem_toString
    {number : Int}
    {c : Char}
    (found : c ∈ (toString number).toList) :
    c.isDigit = true ∨ c = '-' := by
  have digits : ∀ {number : Nat} {c : Char}, c ∈ number.repr.toList -> c.isDigit = true := by
    intro number c found
    rw [Nat.toList_repr] at found
    exact Nat.isDigit_of_mem_toDigits (by decide) (by decide) found
  rw [Int.toString_eq_repr, Int.repr_eq_if] at found
  split at found
  · exact .inl (digits found)
  · rw [String.toList_append, List.mem_append] at found
    rcases found with sign | digit
    · exact .inr (by simpa using sign)
    · exact .inl (digits digit)

/-- No other character is part of a number. -/
theorem not_mem_toString
    {c : Char}
    (noDigit : c.isDigit = false)
    (noSign : c ≠ '-')
    (number : Int) :
    c ∉ (toString number).toList := by
  intro found
  rcases digit_or_sign_of_mem_toString found with digit | sign
  · simp [noDigit] at digit
  · exact noSign sign

/-- Numbers that are written alike are equal. -/
theorem toString_injective
    {first second : Int}
    (equal : toString first = toString second) :
    first = second := by
  have digits : ∀ {number other : Nat}, number.repr = other.repr -> number = other := by
    intro number other equal
    have lists_eq := congrArg (fun text => Nat.ofDigitChars 10 text.toList 0) equal
    simpa only [Nat.toList_repr, Nat.ofDigitChars_ten_toDigits] using lists_eq
  have unsigned : ∀ number other : Nat, number.repr ≠ "-" ++ other.repr := by
    intro number other equal
    have found : '-' ∈ number.repr.toList := by simp [equal]
    rw [Nat.toList_repr] at found
    exact absurd (Nat.isDigit_of_mem_toDigits (by decide) (by decide) found) (by decide)
  rw [Int.toString_eq_repr, Int.toString_eq_repr, Int.repr_eq_if, Int.repr_eq_if] at equal
  by_cases natural : 0 ≤ first <;> by_cases natural' : 0 ≤ second
  · rw [if_pos natural, if_pos natural'] at equal
    have magnitudes := digits equal
    omega
  · rw [if_pos natural, if_neg natural'] at equal
    exact absurd equal (unsigned _ _)
  · rw [if_neg natural, if_pos natural'] at equal
    exact absurd equal.symm (unsigned _ _)
  · rw [if_neg natural, if_neg natural'] at equal
    have magnitudes := digits (String.append_right_inj "-" |>.mp equal)
    omega

namespace Position

theorem isWord_text (position : Position) : IsWord position.text where
  nonempty := by simp [text]
  unbroken c found := by
    simp only [text, String.toList_append, List.mem_append] at found
    rcases found with (line | colon) | column
    · constructor <;> rintro rfl <;> exact not_mem_toString rfl (by decide) _ line
    · simp only [String.reduceToList, List.mem_singleton] at colon
      simp [colon]
    · constructor <;> rintro rfl <;> exact not_mem_toString rfl (by decide) _ column

/-- The text of a position gives its line and its column. -/
theorem line_column_of_text_eq
    {first second : Position}
    (equal : first.text = second.text) :
    first.line = second.line ∧ first.column = second.column := by
  have noColon : ∀ number : Int, ':' ∉ (toString number).toList :=
    not_mem_toString rfl (by decide)
  have split : (toString first.line).toList ++ ':' :: (toString first.column).toList =
      (toString second.line).toList ++ ':' :: (toString second.column).toList := by
    simpa [text] using congrArg String.toList equal
  obtain ⟨line_eq, -, column_eq⟩ :=
    (List.append_cons_inj_of_notMem (noColon first.line) (noColon first.column)).mp split
  exact ⟨toString_injective (String.toList_inj.mp line_eq),
    toString_injective (String.toList_inj.mp column_eq)⟩

end Position

namespace Kind

/-- A kind belongs to the language or is known by its code only. -/
theorem mem_all_or_undefined (kind : Kind) :
    kind ∈ all ∨ ∃ code, kind = .undefined code := by
  cases kind <;> simp [all]

/-- The number that upper-case hexadecimal digits spell. -/
def ofUpperHex (digits : List Char) : Nat :=
  digits.foldl
    (fun value c => 16 * value + if c ≤ '9' then c.toNat - '0'.toNat else c.toNat - 'A'.toNat + 10)
    0

/-- The two digits of a code spell it, and they are no blanks. -/
theorem upperHex_of_code :
    ∀ code : Fin 256,
      ofUpperHex
          (List.replicate (2 - (Nat.toDigits 16 code).length) '0' ++
            (Nat.toDigits 16 code).map Char.toUpper) = code ∧
        ((Nat.toDigits 16 code).map Char.toUpper).all (fun c => c != ' ' && c != '\n') = true := by
  decide +kernel

theorem ofUpperHex_upperHex (code : UInt8) :
    ofUpperHex (Text.upperHex 2 code.toNat).toList = code.toNat := by
  rw [Text.toList_upperHex]
  exact (upperHex_of_code ⟨code.toNat, code.toNat_lt⟩).1

theorem unbroken_upperHex
    {code : UInt8}
    {c : Char}
    (found : c ∈ (Text.upperHex 2 code.toNat).toList) :
    c ≠ ' ' ∧ c ≠ '\n' := by
  rw [Text.toList_upperHex, List.mem_append, List.mem_replicate] at found
  rcases found with ⟨-, rfl⟩ | digit
  · decide
  · exact Text.unbroken_of_all (upperHex_of_code ⟨code.toNat, code.toNat_lt⟩).2 c digit

theorem toList_name_undefined (code : UInt8) :
    (undefined code).name.toList =
      ['U', 'N', 'K', 'N', 'O', 'W', 'N', '(', '0', 'x'] ++
        ((Text.upperHex 2 code.toNat).toList ++ [')']) := by
  simp [name]

/-- No name of the language is empty or has a blank, a newline or a bracket. -/
theorem plain_names :
    all.all (fun kind => !kind.name.toList.isEmpty &&
      kind.name.toList.all (fun c => c != ' ' && c != '\n') &&
      kind.name.toList.all (· != '(')) = true := by
  decide

theorem isWord_name_of_mem_all
    {kind : Kind}
    (known : kind ∈ all) :
    IsWord kind.name ∧ '(' ∉ kind.name.toList := by
  have plain := List.all_eq_true.mp plain_names kind known
  simp only [Bool.and_eq_true] at plain
  refine ⟨⟨by simpa using plain.1.1, Text.unbroken_of_all plain.1.2⟩, fun found => ?_⟩
  simpa using List.all_eq_true.mp plain.2 '(' found

theorem name_injective_of_mem_all :
    ∀ kind ∈ all, ∀ other ∈ all, kind.name.toList = other.name.toList -> kind = other := by
  decide

theorem isWord_name (kind : Kind) : IsWord kind.name := by
  rcases kind.mem_all_or_undefined with known | ⟨code, rfl⟩
  · exact (isWord_name_of_mem_all known).1
  · refine ⟨by simp [name], fun c found => ?_⟩
    rw [toList_name_undefined, List.mem_append, List.mem_append] at found
    rcases found with opening | digit | closing
    · exact Text.unbroken_of_all (by decide) c opening
    · exact unbroken_upperHex digit
    · simp [List.mem_singleton.mp closing]

theorem name_injective
    {kind other : Kind}
    (equal : kind.name = other.name) :
    kind = other := by
  -- Only the name of an undefined kind has a bracket.
  have bracket : ∀ {kind : Kind} {code : UInt8}, kind ∈ all ->
      kind.name ≠ (undefined code).name := by
    intro kind code known equal
    apply (isWord_name_of_mem_all known).2
    rw [equal, toList_name_undefined]
    simp
  rcases kind.mem_all_or_undefined with known | ⟨code, rfl⟩ <;>
    rcases other.mem_all_or_undefined with known' | ⟨code', rfl⟩
  · exact name_injective_of_mem_all kind known other known' (congrArg String.toList equal)
  · exact absurd equal (bracket known)
  · exact absurd equal.symm (bracket known')
  · have lists_eq := congrArg String.toList equal
    rw [toList_name_undefined, toList_name_undefined] at lists_eq
    have digits_eq := List.append_cancel_right (List.append_cancel_left lists_eq)
    have code_eq := ofUpperHex_upperHex code
    rw [digits_eq, ofUpperHex_upperHex code'] at code_eq
    rw [UInt8.toNat_inj.mp code_eq]

end Kind

namespace Instruction

theorem text_of_push
    {instruction : Instruction}
    (isPush : instruction.kind = .push) :
    instruction.text = "push(" ++ toString instruction.value.toInt ++ ")" := by
  simp [text, isPush]

theorem text_of_ne_push
    {instruction : Instruction}
    (notPush : instruction.kind ≠ .push) :
    instruction.text = instruction.kind.name := by
  unfold text
  split
  · next isPush => exact absurd isPush notPush
  · rfl

theorem isWord_text (instruction : Instruction) : IsWord instruction.text := by
  by_cases isPush : instruction.kind = .push
  · rw [text_of_push isPush]
    refine ⟨by simp, fun c found => ?_⟩
    simp only [String.toList_append, List.mem_append] at found
    rcases found with (opening | digit) | closing
    · exact Text.unbroken_of_all (by decide) c opening
    · constructor <;> rintro rfl <;> exact not_mem_toString rfl (by decide) _ digit
    · exact Text.unbroken_of_all (by decide) c closing
  · rw [text_of_ne_push isPush]
    exact instruction.kind.isWord_name

/-- The text of a push is the name of no kind. -/
theorem text_ne_name_of_push
    {instruction : Instruction}
    (isPush : instruction.kind = .push)
    (kind : Kind) :
    instruction.text ≠ kind.name := by
  intro equal
  have lists_eq := congrArg String.toList equal
  rw [text_of_push isPush] at lists_eq
  rcases kind.mem_all_or_undefined with known | ⟨code, rfl⟩
  · apply (Kind.isWord_name_of_mem_all known).2
    simp [← lists_eq]
  · rw [Kind.toList_name_undefined] at lists_eq
    simp at lists_eq

/-- Two instructions of which a listing says the same. -/
structure ListedAlike (first second : Instruction) : Prop where
  /-- They are of the same kind. -/
  kind_eq : first.kind = second.kind
  /-- They stand on the same line. -/
  line_eq : first.position.line = second.position.line
  /-- They stand at the same column. -/
  column_eq : first.position.column = second.position.column
  /-- If they are pushes, they push the same value. -/
  value_eq : first.kind = .push -> first.value = second.value

/-- The text of an instruction gives its kind and the value of a push. -/
theorem kind_value_of_text_eq
    {first second : Instruction}
    (equal : first.text = second.text) :
    first.kind = second.kind ∧ (first.kind = .push -> first.value = second.value) := by
  by_cases isPush : first.kind = .push
  · by_cases isPush' : second.kind = .push
    · refine ⟨isPush.trans isPush'.symm, fun _ => ?_⟩
      rw [text_of_push isPush, text_of_push isPush'] at equal
      have lists_eq := congrArg String.toList equal
      simp only [String.toList_append] at lists_eq
      have digits_eq := List.append_cancel_left (List.append_cancel_right lists_eq)
      exact Int64.toInt_inj.mp (toString_injective (String.toList_inj.mp digits_eq))
    · rw [text_of_ne_push isPush'] at equal
      exact absurd equal (text_ne_name_of_push isPush _)
  · by_cases isPush' : second.kind = .push
    · rw [text_of_ne_push isPush] at equal
      exact absurd equal.symm (text_ne_name_of_push isPush' _)
    · rw [text_of_ne_push isPush, text_of_ne_push isPush'] at equal
      exact ⟨Kind.name_injective equal, fun isPush'' => absurd isPush'' isPush⟩

end Instruction

namespace Listing

/-! ## Rows -/

theorem isPrintable_of_isShown
    {value : Int64}
    (shown : isShown value = true) :
    Text.isPrintable (Char.ofNat value.toInt.toNat) = true := by
  simp only [isShown, Bool.and_eq_true, decide_eq_true_eq] at shown
  have code_eq : (Char.ofNat value.toInt.toNat).toNat = value.toInt.toNat := by
    have valid : value.toInt.toNat.isValidChar := .inl (by omega)
    rw [Char.ofNat, dif_pos valid]
    rfl
  have inRange : (0x20, 0x7e) ∈ Text.printableRanges := List.mem_cons_self
  rw [Text.isPrintable, List.any_eq_true, code_eq]
  refine ⟨_, inRange, ?_⟩
  simp only [Bool.and_eq_true, decide_eq_true_eq]
  omega

/-- A character beside a push is not a newline. -/
theorem newline_not_mem_quotedChar
    {c : Char}
    (printable : Text.isPrintable c = true) :
    '\n' ∉ (Text.quotedChar c).toList := by
  have notNewline : c ≠ '\n' := by
    rintro rfl
    revert printable
    decide +kernel
  by_cases isEscaped : (c == '\'' || c == '\\') = true
  · simp [Text.quotedChar, Text.escaped, isEscaped, notNewline.symm]
  · simp [Text.quotedChar, Text.escaped, isEscaped, printable, notNewline.symm]

/-- A row begins with the text of its instruction, and a comment may follow behind
blanks. -/
theorem exists_describe (instruction : Instruction) :
    ∃ comment, (describe instruction).toList = instruction.text.toList ++ comment ∧
      (∀ c ∈ comment.head?, c = ' ') ∧ '\n' ∉ comment := by
  have commented : ∀ (text : String) {symbol : String}, '\n' ∉ symbol.toList ->
      ∃ comment, (Text.padRight 16 text ++ " ; " ++ symbol).toList = text.toList ++ comment ∧
        (∀ c ∈ comment.head?, c = ' ') ∧ '\n' ∉ comment := by
    intro text symbol unbroken
    refine ⟨List.replicate (16 - text.length) ' ' ++ ([' ', ';', ' '] ++ symbol.toList),
      by simp [Text.toList_padRight], ?_, by simp [unbroken]⟩
    intro c first
    cases count : 16 - text.length with
    | zero => simpa [count, eq_comm] using first
    | succ count => simpa [count, List.replicate_succ, eq_comm] using first
  by_cases isPush : instruction.kind = .push
  · by_cases shown : isShown instruction.value = true
    · obtain ⟨comment, split⟩ := commented instruction.text
        (newline_not_mem_quotedChar (isPrintable_of_isShown shown))
      refine ⟨comment, ?_⟩
      simpa [describe, isPush, shown] using split
    · exact ⟨[], by simp [describe, isPush, shown], by simp, by simp⟩
  · have symbol_unbroken : ∀ kind : Kind,
        '\n' ∉ (String.singleton (kind.symbol?.getD (Char.ofNat 0))).toList := by
      intro kind
      cases kind <;> simp [Kind.symbol?]
    obtain ⟨comment, split⟩ := commented instruction.text
      (symbol_unbroken instruction.kind)
    rw [Instruction.text_of_ne_push isPush] at split ⊢
    refine ⟨comment, ?_⟩
    unfold describe
    split
    · next isPush' => exact absurd isPush' isPush
    · exact split

/-- A line of a listing without its newline. -/
def row (index depth : Nat) (instruction : Instruction) : String :=
  Text.zeroPadded 4 index ++ "  " ++ Text.padRight 7 instruction.position.text ++ " " ++
    "".pushn ' ' (2 * depthAt depth instruction.kind) ++ describe instruction

theorem line_eq_row
    (index depth : Nat)
    (instruction : Instruction) :
    line index depth instruction = row index depth instruction ++ "\n" := rfl

/-- The fields of a row, with blanks between them. -/
theorem toList_row
    (index depth : Nat)
    (instruction : Instruction) :
    ∃ blanks, (row index depth instruction).toList =
      (Text.zeroPadded 4 index).toList ++ ([' ', ' '] ++
        (instruction.position.text.toList ++
          (List.replicate (blanks + 1) ' ' ++ (describe instruction).toList))) := by
  refine ⟨7 - instruction.position.text.length + 2 * depthAt depth instruction.kind, ?_⟩
  have count_eq : 7 - instruction.position.text.length +
      2 * depthAt depth instruction.kind + 1 =
        7 - instruction.position.text.length + (1 + 2 * depthAt depth instruction.kind) := by
    omega
  rw [count_eq, List.replicate_add, List.replicate_add]
  simp [row, Text.toList_padRight, Text.toList_pushn]

/-- A row gives what is listed of its instruction, whatever the depths. -/
theorem listedAlike_of_row_eq
    {index depth depth' : Nat}
    {first second : Instruction}
    (equal : row index depth first = row index depth' second) :
    first.ListedAlike second := by
  obtain ⟨blanks, row_eq⟩ := toList_row index depth first
  obtain ⟨blanks', row_eq'⟩ := toList_row index depth' second
  have fields_eq := congrArg String.toList equal
  rw [row_eq, row_eq'] at fields_eq
  obtain ⟨position_eq, rest_eq⟩ := first.position.isWord_text.append_inj
    second.position.isWord_text (by simp [List.replicate_succ]) (by simp [List.replicate_succ])
    (List.append_cancel_left (List.append_cancel_left fields_eq))
  obtain ⟨comment, describe_eq, ended, -⟩ := exists_describe first
  obtain ⟨comment', describe_eq', ended', -⟩ := exists_describe second
  have begun : ∀ (instruction : Instruction) (comment : List Char),
      ∀ c ∈ (instruction.text.toList ++ comment).head?, c ≠ ' ' := by
    intro instruction comment c first
    obtain ⟨head, rest, text_eq⟩ := List.exists_cons_of_ne_nil instruction.isWord_text.nonempty
    rw [text_eq, List.cons_append, List.head?_cons, Option.mem_some_iff] at first
    exact first ▸ (instruction.isWord_text.unbroken head (by simp [text_eq])).1
  rw [describe_eq, describe_eq'] at rest_eq
  have described_eq := Text.blanks_append_inj (begun first comment) (begun second comment')
    rest_eq
  obtain ⟨text_eq, -⟩ :=
    first.isWord_text.append_inj second.isWord_text ended ended' described_eq
  obtain ⟨line_eq, column_eq⟩ := Position.line_column_of_text_eq position_eq
  obtain ⟨kind_eq, value_eq⟩ := Instruction.kind_value_of_text_eq text_eq
  exact ⟨kind_eq, line_eq, column_eq, value_eq⟩

theorem newline_not_mem_row
    (index depth : Nat)
    (instruction : Instruction) :
    '\n' ∉ (row index depth instruction).toList := by
  have number_unbroken : '\n' ∉ (Text.zeroPadded 4 index).toList := by
    have digits : '\n' ∉ (toString index).toList :=
      not_mem_toString rfl (by decide) (index : Int)
    simpa [Text.zeroPadded, Text.toList_padLeft] using digits
  have position_unbroken : '\n' ∉ instruction.position.text.toList :=
    fun found => (instruction.position.isWord_text.unbroken _ found).2 rfl
  have text_unbroken : '\n' ∉ instruction.text.toList :=
    fun found => (instruction.isWord_text.unbroken _ found).2 rfl
  obtain ⟨blanks, row_eq⟩ := toList_row index depth instruction
  obtain ⟨comment, describe_eq, -, unbroken⟩ := exists_describe instruction
  rw [row_eq, describe_eq]
  simp [number_unbroken, position_unbroken, text_unbroken, unbroken]

/-! ## Listings -/

/-- The rows from an index on. -/
def rows (index depth : Nat) : Program -> List String
  | [] => []
  | instruction :: rest =>
    row index depth instruction :: rows (index + 1) (depthAfter depth instruction.kind) rest

theorem lines_eq_rows
    (index depth : Nat)
    (program : Program) :
    lines index depth program = (rows index depth program).map (· ++ "\n") := by
  induction program generalizing index depth with
  | nil => rfl
  | cons instruction rest inductionHypothesis =>
    rw [lines, rows, List.map_cons, inductionHypothesis, line_eq_row]

@[simp] theorem length_rows
    (index depth : Nat)
    (program : Program) :
    (rows index depth program).length = program.length := by
  induction program generalizing index depth with
  | nil => rfl
  | cons instruction rest inductionHypothesis => simp [rows, inductionHypothesis]

theorem newline_not_mem_rows
    {index depth : Nat}
    {program : Program}
    {text : String}
    (found : text ∈ rows index depth program) :
    '\n' ∉ text.toList := by
  induction program generalizing index depth with
  | nil => cases found
  | cons instruction rest inductionHypothesis =>
    rcases List.mem_cons.mp found with rfl | found
    · exact newline_not_mem_row index depth instruction
    · exact inductionHypothesis found

/-- The row of an instruction has its index. -/
theorem exists_row_of_getElem?
    (start depth : Nat)
    {index : Nat}
    {program : Program}
    {instruction : Instruction}
    (found : program[index]? = some instruction) :
    ∃ depth', (rows start depth program)[index]? =
      some (row (start + index) depth' instruction) := by
  induction program generalizing start depth index with
  | nil => simp at found
  | cons first rest inductionHypothesis =>
    cases index with
    | zero =>
      obtain rfl : first = instruction := by simpa using found
      exact ⟨depth, rfl⟩
    | succ index =>
      rw [List.getElem?_cons_succ] at found
      obtain ⟨depth', row_eq⟩ :=
        inductionHypothesis (start + 1) (depthAfter depth first.kind) found
      refine ⟨depth', ?_⟩
      rw [rows, List.getElem?_cons_succ, row_eq, Nat.add_assoc, Nat.add_comm 1]

/-- Programs with the same rows are listed alike, instruction by instruction. -/
theorem listedAlike_of_rows_eq
    {index depth depth' : Nat}
    {first second : Program}
    (equal : rows index depth first = rows index depth' second) :
    List.Forall₂ Instruction.ListedAlike first second := by
  induction first generalizing index depth depth' second with
  | nil =>
    cases second with
    | nil => exact .nil
    | cons instruction rest => cases equal
  | cons instruction rest inductionHypothesis =>
    cases second with
    | nil => cases equal
    | cons other rest' =>
      obtain ⟨row_eq, rows_eq⟩ := List.cons.inj equal
      exact .cons (listedAlike_of_row_eq row_eq) (inductionHypothesis rows_eq)

/-- Nothing else of an instruction is listed. -/
theorem line_eq_of_listedAlike
    {first second : Instruction}
    (alike : first.ListedAlike second)
    (index depth : Nat) :
    line index depth first = line index depth second := by
  have text_eq : first.text = second.text := by
    by_cases isPush : first.kind = .push
    · rw [Instruction.text_of_push isPush, Instruction.text_of_push (alike.kind_eq ▸ isPush),
        alike.value_eq isPush]
    · rw [Instruction.text_of_ne_push isPush,
        Instruction.text_of_ne_push (alike.kind_eq ▸ isPush), alike.kind_eq]
  have describe_eq : describe first = describe second := by
    unfold describe
    rw [text_eq, ← alike.kind_eq]
    split
    · next isPush => rw [alike.value_eq isPush]
    · rfl
  rw [line, line, Position.text, Position.text, alike.line_eq, alike.column_eq, alike.kind_eq,
    describe_eq]

theorem lines_eq_of_listedAlike
    {first second : Program}
    (alike : List.Forall₂ Instruction.ListedAlike first second)
    (index depth : Nat) :
    lines index depth first = lines index depth second := by
  induction alike generalizing index depth with
  | nil => rfl
  | cons alike rest inductionHypothesis =>
    rw [lines, lines, line_eq_of_listedAlike alike, alike.kind_eq, inductionHypothesis]

/-- The line that counts the instructions, without its newline. -/
def count (program : Program) : String :=
  "; " ++ toString program.length ++ " instructions"

theorem header_eq_count (program : Program) : header program = count program ++ "\n" := by
  simp [header, count, String.append_assoc]

theorem newline_not_mem_count (program : Program) : '\n' ∉ (count program).toList := by
  have digits : '\n' ∉ (toString program.length).toList :=
    not_mem_toString rfl (by decide) (program.length : Int)
  simpa [count] using digits

end Listing

namespace Program

/-- The lines of a listing are the count of the instructions and the rows.  Behind the
last newline there is nothing. -/
theorem splitOn_listing (program : Program) :
    (program.listing "").toList.splitOn '\n' =
      (Listing.count program :: Listing.rows 0 0 program).map String.toList ++ [[]] := by
  have listing_eq : program.listing "" =
      String.join ((Listing.count program :: Listing.rows 0 0 program).map (· ++ "\n")) := by
    rw [listing, Listing.lines_eq_rows, Listing.title, if_pos rfl, Listing.header_eq_count,
      List.map_cons, String.join_cons, String.empty_append]
  rw [listing_eq]
  apply Text.splitOn_join
  intro text found
  rcases List.mem_cons.mp found with rfl | found
  · exact Listing.newline_not_mem_count program
  · exact Listing.newline_not_mem_rows found

/-- A listing loses nothing of what it is to show.  Two programs, whatever their kinds,
values and positions, have the same listing exactly if they are equally long and agree
at every index on the kind, the line, the column and the value of a push.  A listing has
one line that counts the instructions, and then exactly one for each of them, in their
order and with their index. -/
theorem listing_loses_nothing (first second : Program) :
    (first.listing "" = second.listing "" ↔
      List.Forall₂ Instruction.ListedAlike first second) ∧
    ∃ rows : List String,
      (first.listing "").toList.splitOn '\n' =
        (("; " ++ toString first.length ++ " instructions") :: rows ++ [""]).map
          String.toList ∧
      rows.length = first.length ∧
      ∀ (index : Nat) (instruction : Instruction), first[index]? = some instruction ->
        ∃ row depth, rows[index]? = some row ∧
          Listing.line index depth instruction = row ++ "\n" := by
  refine ⟨⟨fun equal => ?_, fun alike => ?_⟩, Listing.rows 0 0 first, ?_,
    Listing.length_rows 0 0 first, ?_⟩
  · have lines_eq := congrArg (fun text => text.toList.splitOn '\n') equal
    simp only [splitOn_listing] at lines_eq
    have texts_eq := (List.map_inj_right fun _ _ => String.toList_inj.mp).mp
      (List.append_cancel_right lines_eq)
    exact Listing.listedAlike_of_rows_eq (List.cons.inj texts_eq).2
  · rw [listing, listing, Listing.lines_eq_of_listedAlike alike, Listing.header, Listing.header,
      alike.length_eq]
  · rw [splitOn_listing, List.map_append]
    rfl
  · intro index instruction found
    obtain ⟨depth, row_eq⟩ := Listing.exists_row_of_getElem? 0 0 found
    rw [Nat.zero_add] at row_eq
    exact ⟨_, depth, row_eq, Listing.line_eq_row index depth instruction⟩

/-- An undefined kind at a place that is wider than its column, and the least value.  What
is not listed, the offsets and the value of the first instruction, may differ. -/
theorem listing_loses_nothing_overlong :
    let far : Position := { offset := 0, line := -3, column := 1234567 }
    let near : Position := { offset := 2, line := 4, column := 5 }
    let first : Program := [
      { kind := .undefined 200, value := 1, position := far },
      { kind := .push, value := Int64.minValue, position := near }]
    let second : Program := [
      { kind := .undefined 200, value := 2, position := { far with offset := 6 } },
      { kind := .push, value := Int64.minValue, position := { near with offset := 7 } }]
    first.listing "" = second.listing "" ∧
    List.Forall₂ Instruction.ListedAlike first second ∧
    ∃ rows : List String, rows.length = 2 ∧
      ∀ (index : Nat) (instruction : Instruction), first[index]? = some instruction ->
        ∃ row depth, rows[index]? = some row ∧
          Listing.line index depth instruction = row ++ "\n" := by
  intro far near first second
  have alike : List.Forall₂ Instruction.ListedAlike first second := by
    refine .cons ⟨rfl, rfl, rfl, ?_⟩ (.cons ⟨rfl, rfl, rfl, fun _ => rfl⟩ .nil)
    intro isPush
    cases isPush
  obtain ⟨equal_iff, rows, -, length_eq, listed⟩ := listing_loses_nothing first second
  exact ⟨equal_iff.mpr alike, alike, rows, length_eq, listed⟩

end Program
end GlyphStack
