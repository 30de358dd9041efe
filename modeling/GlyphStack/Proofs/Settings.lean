import GlyphStack.Manifest.Codec

/-!
# Settings of a configuration file

What a library makes of the settings of a file is left open.  All that is relied on is that
a setting gets a value that the file gives it, and stays as it was if the file gives it
none.  A file in TOML gives a setting the values of the entries with its key, in the tables
of its group.  What is accepted has a byte width and a log level that exist.
-/

namespace GlyphStack

theorem Text.sameName_trans
    {text name other : String}
    (same : sameName text name = true)
    (same' : sameName text other = true) :
    sameName name other = true := by
  simp only [sameName, beq_iff_eq] at same same' ⊢
  rw [← same, same']

namespace Manifest

namespace Setting

/-- What a setting is, as the value that a file would give it. -/
def value (manifest : Manifest) : Setting -> Toml.Value
  | .byteWidth => .integer manifest.byteWidth
  | .trailingNewline => .boolean manifest.trailingNewline
  | .trace => .boolean manifest.trace
  | .level => .string manifest.level
  | .file => .string manifest.file

/-- The file that a configuration was read from is not one of its settings. -/
theorem value_of_path
    (setting : Setting)
    (manifest : Manifest)
    (path : String) :
    setting.value { manifest with path := path } = setting.value manifest := by
  cases setting <;> rfl

end Setting

/-- What is relied on where settings are read from a file, given the values that the content
of a file gives to a setting. -/
structure Format.Honors
    [Format]
    (Gives : List UInt8 -> Setting -> Toml.Value -> Prop) : Prop where
  /-- A setting gets a value that the file gives it. -/
  given : ∀ ⦃content manifest updated setting value⦄,
    unmarshal? content manifest = some updated -> Gives content setting value ->
      Gives content setting (setting.value updated)
  /-- A setting that the file does not give a value is left untouched. -/
  untouched : ∀ ⦃content manifest updated setting⦄,
    unmarshal? content manifest = some updated -> (∀ value, ¬ Gives content setting value) ->
      setting.value updated = setting.value manifest

/-! ## Settings in TOML -/

namespace Setting

theorem mem_all (setting : Setting) : setting ∈ all := by
  cases setting <;> decide

/-- What is put in place of a setting is there, and the other settings stay. -/
theorem value_of_put
    {setting : Setting}
    {manifest updated : Manifest}
    {written : Toml.Value}
    (put_eq : setting.put manifest written = some updated)
    (other : Setting) :
    other.value updated = if other = setting then written else other.value manifest := by
  unfold put at put_eq
  split at put_eq <;> cases put_eq <;> cases other <;> rfl

/-- An entry of a document is the table of a setting and gives the setting a value.
Names count without regard to case. -/
def MadeBy (setting : Setting) (entry : String × Toml.Value) (value : Toml.Value) : Prop :=
  Text.sameName entry.1 setting.group = true ∧
    ∃ entries, entry.2 = .table entries ∧
      ∃ inner ∈ entries, Text.sameName inner.1 setting.key = true ∧ inner.2 = value

/-- A document gives a setting a value. -/
def MadeIn (setting : Setting) (table : Toml.Table) (value : Toml.Value) : Prop :=
  ∃ entry ∈ table, setting.MadeBy entry value

end Setting

/-- A name is matched exactly if it is listed and a key differs from it at most in case. -/
theorem find?_sameName_eq_some_iff
    {names : List String}
    (apart : ∀ name ∈ names, ∀ other ∈ names, Text.sameName name other = true -> name = other)
    {key name : String} :
    names.find? (fun name => Text.sameName key name) = some name ↔
      name ∈ names ∧ Text.sameName key name = true := by
  constructor
  · intro matched
    exact ⟨List.mem_of_find?_eq_some matched, by simpa using List.find?_some matched⟩
  · rintro ⟨listed, same⟩
    cases matched : names.find? (fun name => Text.sameName key name) with
    | none => exact absurd same (List.find?_eq_none.mp matched name listed)
    | some other =>
      have same' : Text.sameName key other = true := by simpa using List.find?_some matched
      rw [apart other (List.mem_of_find?_eq_some matched) name listed
        (Text.sameName_trans same' same)]

/-- Reading an entry gives a setting the value that the entry makes, and leaves it as it
is if the entry makes none. -/
def MadeOrKept
    (setting : Setting)
    (made : String × Toml.Value -> Toml.Value -> Prop)
    (set : Manifest -> String -> Toml.Value -> Option Manifest) : Prop :=
  ∀ manifest key written updated, set manifest key written = some updated ->
    made (key, written) (setting.value updated) ∨
      (∀ value, ¬ made (key, written) value) ∧ setting.value updated = setting.value manifest

/-- What holds of each entry holds of a whole table. -/
theorem MadeOrKept.setAll
    {setting : Setting}
    {made : String × Toml.Value -> Toml.Value -> Prop}
    {set : Manifest -> String -> Toml.Value -> Option Manifest}
    (step : MadeOrKept setting made set)
    {manifest updated : Manifest}
    {table : Toml.Table}
    (read_eq : Manifest.setAll set manifest table = some updated) :
    (∃ entry ∈ table, made entry (setting.value updated)) ∨
      (∀ value, ¬ ∃ entry ∈ table, made entry value) ∧
        setting.value updated = setting.value manifest := by
  induction table generalizing manifest with
  | nil =>
    cases read_eq
    exact .inr ⟨by simp, rfl⟩
  | cons entry table inductionHypothesis =>
    simp only [Manifest.setAll, Option.bind_eq_bind, Option.bind_eq_some_iff] at read_eq
    obtain ⟨next, first, read_eq⟩ := read_eq
    simp only [List.mem_cons, exists_eq_or_imp, not_or]
    rcases inductionHypothesis read_eq with later | ⟨unmade, kept⟩
    · exact .inl (.inr later)
    · rw [kept]
      rcases step _ _ _ _ first with here | ⟨unmade', kept'⟩
      · exact .inl (.inl here)
      · exact .inr ⟨fun value => ⟨unmade' value, unmade value⟩, kept'⟩

/-- An entry of the table of a group has the key of a setting of the group. -/
def Setting.HasKey (setting : Setting) (group key : String) : Prop :=
  setting.group = group ∧ Text.sameName key setting.key = true

theorem madeOrKept_setKey
    (setting : Setting)
    (group : String) :
    MadeOrKept setting (fun entry value => setting.HasKey group entry.1 ∧ entry.2 = value)
      (setKey group) := by
  intro manifest key written updated read_eq
  have apart : ∀ one other : Setting, Text.sameName one.key other.key = true -> one = other := by
    intro one other
    cases one <;> cases other <;> decide
  unfold setKey at read_eq
  split at read_eq
  · next first found =>
    -- No two settings have the same key, so the setting is the one of the entry or not at all.
    have value_eq := Setting.value_of_put read_eq setting
    have hasKey := List.find?_some found
    simp only [Bool.and_eq_true, beq_iff_eq] at hasKey
    by_cases same : setting = first
    · subst same
      rw [if_pos rfl] at value_eq
      exact .inl ⟨hasKey, value_eq.symm⟩
    · rw [if_neg same] at value_eq
      refine .inr ⟨fun value made => same ?_, value_eq⟩
      exact apart _ _ (Text.sameName_trans made.1.2 hasKey.2)
  · next unmatched =>
    cases read_eq
    refine .inr ⟨fun value made => ?_, rfl⟩
    have unequal := List.find?_eq_none.mp unmatched setting setting.mem_all
    simp only [Bool.and_eq_true, beq_iff_eq] at unequal
    exact unequal made.1

theorem sameName_group_iff
    (setting : Setting)
    (name : String) :
    Text.sameName name setting.group = true ↔
      groups.find? (fun group => Text.sameName name group) = some setting.group := by
  have listed : setting.group ∈ groups := by cases setting <;> decide
  rw [find?_sameName_eq_some_iff (by decide), and_iff_right listed]

theorem madeOrKept_setGroup (setting : Setting) :
    MadeOrKept setting setting.MadeBy setGroup := by
  intro manifest name written updated read_eq
  unfold setGroup at read_eq
  split at read_eq
  · next unmatched =>
    cases read_eq
    refine .inr ⟨fun value made => ?_, rfl⟩
    have matched := (sameName_group_iff setting name).mp made.1
    rw [unmatched] at matched
    cases matched
  · next group matched =>
    split at read_eq
    · next entries =>
      have made_iff : ∀ value, setting.MadeBy (name, .table entries) value ↔
          ∃ entry ∈ entries, setting.HasKey group entry.1 ∧ entry.2 = value := by
        intro value
        simp only [Setting.MadeBy, Setting.HasKey, sameName_group_iff, matched, Option.some.injEq,
          Toml.Value.table.injEq, exists_eq_left']
        grind
      simp only [made_iff]
      exact (madeOrKept_setKey setting group).setAll read_eq
    · cases read_eq

/-- The content of a TOML file gives a setting a value. -/
def GivenInToml (content : List UInt8) (setting : Setting) (value : Toml.Value) : Prop :=
  ∃ table, Toml.Table.ofBytes? content = some table ∧ setting.MadeIn table value

theorem honors_toml : Format.Honors GivenInToml := by
  have made_or_kept : ∀ {content : List UInt8} {manifest updated : Manifest} (setting : Setting),
      ofToml? content manifest = some updated ->
      GivenInToml content setting (setting.value updated) ∨
        (∀ value, ¬ GivenInToml content setting value) ∧
          setting.value updated = setting.value manifest := by
    intro content manifest updated setting read_eq
    simp only [ofToml?, Option.bind_eq_bind, Option.bind_eq_some_iff] at read_eq
    obtain ⟨table, table_eq, read_eq⟩ := read_eq
    simp only [GivenInToml, table_eq, Option.some.injEq, exists_eq_left']
    exact (madeOrKept_setGroup setting).setAll read_eq
  constructor
  · intro content manifest updated setting value read_eq gives
    rcases made_or_kept setting read_eq with made | ⟨unmade, -⟩
    · exact made
    · exact absurd gives (unmade value)
  · intro content manifest updated setting read_eq unmade
    rcases made_or_kept setting read_eq with made | ⟨-, kept⟩
    · exact absurd made (unmade _)
    · exact kept

/-- The settings that are accepted. -/
theorem validate_eq_ok_iff {manifest : Manifest} :
    manifest.validate = .ok () ↔
      (1 ≤ manifest.byteWidth ∧ manifest.byteWidth ≤ Width.widest) ∧
        manifest.level ∈ levels := by
  unfold validate Width.validate isLevel
  by_cases valid : 1 ≤ manifest.byteWidth ∧ manifest.byteWidth ≤ Width.widest
  · simp [valid]
  · simp [valid]

end Manifest
end GlyphStack
