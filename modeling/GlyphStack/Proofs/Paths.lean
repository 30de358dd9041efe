import GlyphStack.Proofs.Files

/-!
# Paths from the root

A path that was made absolute is a path of names of entries, so the names can be taken for
the path and the path for them: what is joined to the path is one more name, and the way
upwards leaves out the last name.  On a disk such a path leads to what stands in the tree
under its names, provided that the system takes the path: it limits the length of a path and
of each of its names.
-/

namespace GlyphStack

theorem Text.mem_joined_iff
    {separator : String}
    {items : List String}
    {c : Char}
    (apart : c ∉ separator.toList) :
    c ∈ (joined separator items).toList ↔ ∃ item ∈ items, c ∈ item.toList := by
  fun_induction joined separator items with
  | case1 => simp
  | case2 item => simp
  | case3 item next rest inductionHypothesis => simp [inductionHypothesis, apart]

namespace Path

/-- A text that names an entry of a directory, where it stands between the slashes of a
path. -/
structure IsName (name : String) : Prop where
  noSlash : '/' ∉ name.toList
  proper : name ≠ "" ∧ name ≠ "." ∧ name ≠ ".."

theorem slash_notMem_of_mem_pieces
    {text piece : List Char}
    (listed : piece ∈ pieces text) :
    '/' ∉ piece := by
  induction text generalizing piece with
  | nil =>
    obtain rfl := List.mem_singleton.mp listed
    exact List.not_mem_nil
  | cons c text inductionHypothesis =>
    unfold pieces at listed
    split at listed
    · rcases List.mem_cons.mp listed with rfl | listed
      · exact List.not_mem_nil
      · exact inductionHypothesis listed
    next other =>
    have notSlash : '/' ≠ c := fun same => other same.symm
    split at listed
    · obtain rfl := List.mem_singleton.mp listed
      simpa using notSlash
    · next first others split_eq =>
      rw [split_eq] at inductionHypothesis
      rcases List.mem_cons.mp listed with rfl | listed
      · exact List.not_mem_cons_of_ne_of_not_mem notSlash (inductionHypothesis List.mem_cons_self)
      · exact inductionHypothesis (List.mem_cons_of_mem _ listed)

/-- Steps that are taken from the root lead to names of entries. -/
theorem isName_take
    {names : List String}
    (areNames : ∀ name ∈ names, IsName name)
    {step : String}
    (noSlash : '/' ∉ step.toList) :
    ∀ name ∈ take true names step, IsName name := by
  unfold take
  split
  · exact areNames
  next moves =>
  rw [not_or] at moves
  split
  · cases names with
    | nil => simp
    | cons first above =>
      have first_ne : first ≠ ".." := (areNames first List.mem_cons_self).proper.2.2
      simp only [if_neg first_ne]
      exact fun name listed => areNames name (List.mem_cons_of_mem _ listed)
  · next notUp =>
    exact List.forall_mem_cons.mpr ⟨⟨noSlash, moves.1, moves.2, notUp⟩, areNames⟩

theorem isName_foldl_take
    {names steps : List String}
    (areNames : ∀ name ∈ names, IsName name)
    (noSlash : ∀ step ∈ steps, '/' ∉ step.toList) :
    ∀ name ∈ steps.foldl (take true) names, IsName name := by
  induction steps generalizing names with
  | nil => exact areNames
  | cons step steps inductionHypothesis =>
    obtain ⟨first, others⟩ := List.forall_mem_cons.mp noSlash
    exact inductionHypothesis (isName_take areNames first) others

theorem isName_of_mem_normalNames
    {path name : String}
    (listed : name ∈ normalNames true path) :
    IsName name := by
  have noSlash : ∀ step ∈ steps path, '/' ∉ step.toList := by
    intro step isStep
    obtain ⟨piece, isPiece, rfl⟩ := List.mem_map.mp isStep
    rw [String.toList_ofList]
    exact slash_notMem_of_mem_pieces isPiece
  exact isName_foldl_take (by simp) noSlash name (List.mem_reverse.mp listed)

theorem isAbsolute_ofNames (names : List String) : isAbsolute (ofNames names) = true := by
  simp [isAbsolute, ofNames]

section Names

variable {names : List String}

/-- The characters of some names, each behind a slash. -/
def trail (names : List String) : List Char :=
  names.flatMap fun name => '/' :: name.toList

theorem trail_concat
    (names : List String)
    (name : String) :
    trail (names ++ [name]) = trail names ++ '/' :: name.toList := by
  simp [trail]

theorem toList_ofNames
    (nonempty : names ≠ []) :
    (ofNames names).toList = trail names := by
  rw [ofNames, String.toList_append]
  induction names with
  | nil => exact absurd rfl nonempty
  | cons name names inductionHypothesis =>
    cases names with
    | nil => simp [trail, Text.joined]
    | cons next rest =>
      have others := inductionHypothesis (by simp)
      simp only [trail, List.flatMap_cons] at others ⊢
      rw [← others]
      simp [Text.joined]

theorem ofNames_eq_trail
    (nonempty : names ≠ []) :
    ofNames names = String.ofList (trail names) := by
  rw [← toList_ofNames nonempty, String.ofList_toList]

theorem pieces_eq_singleton
    {text : List Char}
    (noSlash : '/' ∉ text) :
    pieces text = [text] := by
  induction text with
  | nil => rfl
  | cons c text inductionHypothesis =>
    rw [List.mem_cons, not_or] at noSlash
    rw [pieces, if_neg (Ne.symm noSlash.1), inductionHypothesis noSlash.2]

theorem steps_trail (areNames : ∀ name ∈ names, IsName name) :
    steps (String.ofList (trail names)) = "" :: names := by
  induction names using List.reverseRecOn with
  | nil => rfl
  | append_singleton names name inductionHypothesis =>
    have others := inductionHypothesis fun other listed => areNames other (by simp [listed])
    have last := pieces_eq_singleton (areNames name (by simp)).noSlash
    rw [steps, String.toList_ofList] at others
    rw [steps, String.toList_ofList, trail_concat, pieces_append_slash, List.map_append, others,
      last]
    simp

theorem steps_ofNames
    (nonempty : names ≠ [])
    (areNames : ∀ name ∈ names, IsName name) :
    steps (ofNames names) = "" :: names := by
  rw [ofNames_eq_trail nonempty, steps_trail areNames]

theorem foldl_take_names
    (areNames : ∀ name ∈ names, IsName name)
    (above : List String) :
    names.foldl (take true) above = names.reverse ++ above := by
  induction names generalizing above with
  | nil => rfl
  | cons name names inductionHypothesis =>
    obtain ⟨⟨-, proper⟩, others⟩ := List.forall_mem_cons.mp areNames
    have taken : take true above name = name :: above := by
      simp [take, proper]
    rw [List.foldl_cons, taken, inductionHypothesis others, List.reverse_cons,
      List.append_assoc, List.singleton_append]

theorem normalNames_trail (areNames : ∀ name ∈ names, IsName name) :
    normalNames true (String.ofList (trail names)) = names := by
  rw [normalNames, steps_trail areNames, List.foldl_cons]
  change (names.foldl (take true) []).reverse = names
  rw [foldl_take_names areNames, List.append_nil, List.reverse_reverse]

/-- The path of some names leads to these names. -/
theorem normalNames_ofNames (areNames : ∀ name ∈ names, IsName name) :
    normalNames true (ofNames names) = names := by
  cases names with
  | nil => decide
  | cons name names =>
    rw [ofNames_eq_trail (List.cons_ne_nil name names), normalNames_trail areNames]

theorem clean_of_isAbsolute
    {path : String}
    (absolute : isAbsolute path = true) :
    clean path = ofNames (normalNames true path) := by
  rw [clean, if_pos absolute]

theorem isAbsolute_trail_slash
    (names : List String)
    (back : List Char) :
    isAbsolute (String.ofList (trail names ++ '/' :: back)) = true := by
  cases names <;> simp [isAbsolute, trail]

/-- A path below the path of some names leads from there. -/
theorem join_ofNames_eq
    (names : List String)
    (below : String) :
    join (ofNames names) below = ofNames (normalNames true (ofNames names ++ "/" ++ below)) := by
  have nonempty : ofNames names ≠ "" := by simp [ofNames]
  have rooted : isAbsolute (ofNames names ++ "/" ++ below) = true := by simp [isAbsolute, ofNames]
  rw [join, if_neg nonempty]
  split
  · next isEmpty =>
    have slash_eq : ofNames names ++ "/" ++ below =
        String.ofList ((ofNames names).toList ++ ['/']) := by
      rw [← String.toList_inj, isEmpty]
      simp
    rw [clean_of_isAbsolute (isAbsolute_ofNames names), slash_eq, normalNames_slash,
      String.ofList_toList]
  · exact clean_of_isAbsolute rooted

/-- What is joined to the path of some names is one more name. -/
theorem join_ofNames
    (areNames : ∀ name ∈ names, IsName name)
    {name : String}
    (isName : IsName name) :
    join (ofNames names) name = ofNames (names ++ [name]) := by
  have areNames' : ∀ other ∈ names ++ [name], IsName other := by
    simpa [or_imp, forall_and] using ⟨areNames, isName⟩
  rw [join_ofNames_eq]
  cases names with
  | nil =>
    -- The root ends in a slash of its own, which makes an empty step.
    have steps_eq : steps (ofNames [] ++ "/" ++ name) = ["", "", name] := by
      have last := pieces_eq_singleton isName.noSlash
      simp [steps, ofNames, Text.joined, pieces, last]
    rw [normalNames, steps_eq]
    simp [take, isName.proper]
  | cons first rest =>
    have split_eq : ofNames (first :: rest) ++ "/" ++ name = ofNames (first :: rest ++ [name]) := by
      rw [ofNames_eq_trail (List.cons_ne_nil first rest), ofNames_eq_trail (by simp), trail_concat]
      rw [← String.toList_inj]
      simp
    rw [split_eq, normalNames_ofNames areNames']

/-- The way upwards leaves out the last name, and ends at the root. -/
theorem parent_ofNames (areNames : ∀ name ∈ names, IsName name) :
    parent (ofNames names) = ofNames names.dropLast := by
  rcases List.eq_nil_or_concat names with rfl | ⟨above, last, rfl⟩
  · decide
  · rw [List.concat_eq_append] at areNames ⊢
    have aboveNames : ∀ name ∈ above, IsName name := fun name listed =>
      areNames name (by simp [listed])
    have noSlash : '/' ∉ last.toList := (areNames last (by simp)).noSlash
    have front_eq : front (ofNames (above ++ [last])) = String.ofList (trail above ++ ['/']) := by
      have passed : ∀ c ∈ last.toList.reverse, (c != '/') = true := by
        intro c listed
        have different : c ≠ '/' := by
          rintro rfl
          exact noSlash (List.mem_reverse.mp listed)
        simpa using different
      rw [front, toList_ofNames (by simp), trail_concat, List.reverse_append, List.reverse_cons,
        List.append_assoc, List.dropWhile_append_of_pos passed]
      simp
    rw [parent, front_eq, clean_of_isAbsolute (isAbsolute_trail_slash above []), normalNames_slash,
      normalNames_trail aboveNames, List.dropLast_concat]

end Names

/-- What the system asks of the path with some names from the root. -/
structure Passable (names : List String) : Prop where
  /-- No name has a character that no path may hold. -/
  sound : ∀ name ∈ names, Char.ofNat 0 ∉ name.toList
  /-- No name is too long. -/
  short : ∀ name ∈ names, name.utf8ByteSize ≤ FileCause.longestName
  /-- The path as a whole is not too long. -/
  whole : (ofNames names).utf8ByteSize ≤ FileCause.longestPath

theorem ofPath?_ofNames_eq_none_iff {names : List String} :
    FileCause.ofPath? (ofNames names) = none ↔
      (∀ name ∈ names, Char.ofNat 0 ∉ name.toList) ∧
        (ofNames names).utf8ByteSize ≤ FileCause.longestPath := by
  have contains_iff : (ofNames names).toList.contains (Char.ofNat 0) = true ↔
      ∃ name ∈ names, Char.ofNat 0 ∈ name.toList := by
    rw [List.contains_iff_mem, ofNames, String.toList_append, List.mem_append,
      Text.mem_joined_iff (by decide)]
    exact or_iff_right (by decide)
  have nonempty : ofNames names ≠ "" := by simp [ofNames]
  rw [FileCause.ofPath?, if_neg nonempty]
  split
  · next contained =>
    obtain ⟨name, listed, inside⟩ := contains_iff.mp contained
    simpa using fun sound => absurd inside (sound name listed)
  · next sound =>
    rw [contains_iff] at sound
    push Not at sound
    rw [and_iff_right sound]
    simp

end Path

namespace Disk

theorem Node.isSome_at?_concat_iff
    {root : Node}
    {here : List String}
    {name : String} :
    (at? (here ++ [name]) root).isSome ↔
      ∃ entries, at? here root = some (.directory entries) ∧ (entries.lookup name).isSome := by
  rw [at?_append]
  cases at? here root with
  | none => simp
  | some node =>
    cases node with
    | file content => simp [at?, entry?]
    | directory entries =>
      simp only [Option.bind_some, at?, entry?, Option.some.injEq, directory.injEq,
        exists_eq_left']
      cases entries.lookup name <;> simp

theorem leads_iff_of_isName
    {entries : List (String × Node)}
    {here next : List String}
    {name : String}
    (isName : Path.IsName name) :
    Leads entries here name next ↔
      name.utf8ByteSize ≤ FileCause.longestName ∧ (entries.lookup name).isSome ∧
        next = here ++ [name] := by
  constructor
  · intro leads
    cases leads with
    | stay still =>
      rcases still with still | still
      · exact absurd still isName.proper.1
      · exact absurd still isName.proper.2.1
    | up => exact absurd rfl isName.proper.2.2
    | down proper short present => exact ⟨short, present, rfl⟩
  · rintro ⟨short, present, rfl⟩
    exact .down isName.proper short present

/-- Names are followed downwards to what stands there. -/
theorem follow_names_eq_ok_iff
    {root : Node}
    {here there names : List String}
    (areNames : ∀ name ∈ names, Path.IsName name)
    (present : (Node.at? here root).isSome) :
    follow root here names = .ok there ↔
      (∀ name ∈ names, name.utf8ByteSize ≤ FileCause.longestName) ∧
        (Node.at? (here ++ names) root).isSome ∧ there = here ++ names := by
  induction names generalizing here with
  | nil => simp [follow, present, eq_comm]
  | cons name names inductionHypothesis =>
    obtain ⟨isName, areNames⟩ := List.forall_mem_cons.mp areNames
    have step_iff : follow root here (name :: names) = .ok there ↔
        name.utf8ByteSize ≤ FileCause.longestName ∧
          (Node.at? (here ++ [name]) root).isSome ∧
          follow root (here ++ [name]) names = .ok there := by
      rw [follow_cons_eq_ok_iff, Node.isSome_at?_concat_iff]
      simp only [leads_iff_of_isName isName]
      constructor
      · rintro ⟨entries, next, found, ⟨short, listed, rfl⟩, followed⟩
        exact ⟨short, ⟨entries, found, listed⟩, followed⟩
      · rintro ⟨short, ⟨entries, found, listed⟩, followed⟩
        exact ⟨entries, _, found, ⟨short, listed, rfl⟩, followed⟩
    have append_eq : here ++ name :: names = here ++ [name] ++ names := by simp
    rw [step_iff, List.forall_mem_cons, append_eq]
    constructor
    · rintro ⟨short, found, followed⟩
      obtain ⟨others, arrived⟩ := (inductionHypothesis areNames found).mp followed
      exact ⟨⟨short, others⟩, arrived⟩
    · rintro ⟨⟨short, others⟩, arrived⟩
      have found : (Node.at? (here ++ [name]) root).isSome := by
        have there_found := arrived.1
        rw [Node.at?_append] at there_found
        exact Option.isSome_of_isSome_bind there_found
      exact ⟨short, found, (inductionHypothesis areNames found).mpr ⟨others, arrived⟩⟩

section Names

variable {disk : Disk} {names : List String}

theorem Leads.eq_of_empty
    {entries : List (String × Node)}
    {here next : List String}
    {step : String}
    (leads : Leads entries here step next)
    (isEmpty : step = "") :
    next = here := by
  cases leads with
  | stay still => rfl
  | up => exact absurd isEmpty (by decide)
  | down proper short present => exact absurd isEmpty proper.1

/-- The empty step in front of the first slash leads nowhere. -/
theorem follow_empty_cons_eq_ok_iff
    {root : Node}
    (nonempty : names ≠ [])
    {there : List String} :
    follow root [] ("" :: names) = .ok there ↔ follow root [] names = .ok there := by
  constructor
  · intro followed
    obtain ⟨entries, next, -, leads, followed⟩ := follow_cons_eq_ok_iff.mp followed
    rw [← leads.eq_of_empty rfl]
    exact followed
  · intro followed
    obtain ⟨name, names, rfl⟩ := List.exists_cons_of_ne_nil nonempty
    obtain ⟨entries, -, found, -, -⟩ := follow_cons_eq_ok_iff.mp followed
    exact follow_cons_eq_ok_iff.mpr ⟨entries, [], found, .stay (.inl rfl), followed⟩

/-- A path from the root leads to its names exactly if the system takes it and something
stands there. -/
theorem locate_ofNames_eq_ok_iff
    (nonempty : names ≠ [])
    (areNames : ∀ name ∈ names, Path.IsName name)
    {there : List String} :
    disk.locate (Path.ofNames names) = .ok there ↔
      Path.Passable names ∧ (Node.at? names disk.root).isSome ∧ there = names := by
  have follow_iff : follow disk.root [] ("" :: names) = .ok there ↔ _ :=
    (follow_empty_cons_eq_ok_iff nonempty).trans (follow_names_eq_ok_iff areNames rfl)
  unfold locate start
  rw [Path.isAbsolute_ofNames, Path.steps_ofNames nonempty areNames, if_pos rfl]
  cases taken : FileCause.ofPath? (Path.ofNames names) with
  | some cause =>
    refine ⟨nofun, fun ⟨passable, _⟩ => ?_⟩
    rw [Path.ofPath?_ofNames_eq_none_iff.mpr ⟨passable.sound, passable.whole⟩] at taken
    cases taken
  | none =>
    obtain ⟨sound, whole⟩ := Path.ofPath?_ofNames_eq_none_iff.mp taken
    refine follow_iff.trans (and_congr_left' ⟨fun short => ⟨sound, short, whole⟩, ?_⟩)
    exact fun passable => passable.short

theorem stat_ofNames_eq_ok_iff
    (nonempty : names ≠ [])
    (areNames : ∀ name ∈ names, Path.IsName name) :
    disk.stat (Path.ofNames names) = .ok () ↔
      Path.Passable names ∧ (Node.at? names disk.root).isSome := by
  have located_iff : disk.stat (Path.ofNames names) = .ok () ↔
      ∃ there, disk.locate (Path.ofNames names) = .ok there := by
    unfold stat
    cases disk.locate (Path.ofNames names) <;> simp
  rw [located_iff]
  simp only [locate_ofNames_eq_ok_iff nonempty areNames]
  exact ⟨fun ⟨_, passable, found, _⟩ => ⟨passable, found⟩,
    fun ⟨passable, found⟩ => ⟨names, passable, found, rfl⟩⟩

/-- A file is read from the root under its names, and a directory is not. -/
theorem readFile_ofNames
    (nonempty : names ≠ [])
    (areNames : ∀ name ∈ names, Path.IsName name)
    (passable : Path.Passable names)
    {node : Node}
    (found : Node.at? names disk.root = some node) :
    disk.readFile (Path.ofNames names) =
      match node with
      | .file content => .ok content
      | .directory _ =>
        .error { action := .reading (Path.ofNames names), cause := .isDirectory } := by
  have located : disk.locate (Path.ofNames names) = .ok names :=
    (locate_ofNames_eq_ok_iff nonempty areNames).mpr ⟨passable, by simp [found], rfl⟩
  rw [readFile, located]
  simp only [found]
  cases node <;> rfl

end Names

end Disk
end GlyphStack
