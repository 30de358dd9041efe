import GlyphStack.Disk
import GlyphStack.Path.Height
import Mathlib.Data.List.DropRight

/-!
# Files that are read back

A file that was written is read back with its content under the same path.  A path
is followed from directory to directory, also back upwards, so the argument is
about all directories at once: writing a file takes away none of them, and none of
their entries.  A file that is only opened comes to be where nothing was, so all other files
keep their content.
-/

namespace GlyphStack

theorem Path.steps_ne_nil (path : String) : Path.steps path ≠ [] := by
  simpa [steps] using pieces_ne_nil path.toList

namespace Disk

namespace Node

variable {entries : List (String × Node)} {name : String}

theorem lookup_setEntry_self (node : Node) :
    (setEntry entries name node).lookup name = some node := by
  induction entries with
  | nil => simp [setEntry]
  | cons first rest inductionHypothesis =>
    obtain ⟨other, old⟩ := first
    unfold setEntry
    split
    · simp
    · next different =>
      have unequal : (name == other) = false := by simpa using Ne.symm different
      rw [List.lookup_cons, unequal]
      exact inductionHypothesis

theorem lookup_setEntry_of_ne
    {other : String}
    (different : other ≠ name)
    (node : Node) :
    (setEntry entries name node).lookup other = entries.lookup other := by
  induction entries with
  | nil =>
    have unequal : (other == name) = false := by simpa using different
    rw [setEntry, List.lookup_cons, unequal]
  | cons first rest inductionHypothesis =>
    obtain ⟨key, old⟩ := first
    unfold setEntry
    split
    · next equal =>
      subst equal
      have unequal : (other == key) = false := by simpa using different
      rw [List.lookup_cons, List.lookup_cons, unequal]
    · rw [List.lookup_cons, List.lookup_cons, inductionHypothesis]

/-- What was put at some names is found there. -/
theorem at?_put
    (placed : Node)
    (names : List String)
    (root : Node) :
    at? names (put placed names root) = some placed := by
  induction names generalizing root with
  | nil => rfl
  | cons name names inductionHypothesis =>
    cases root with
    | file content => simp [put, at?, entry?, inductionHypothesis]
    | directory entries =>
      simp [put, at?, entry?, lookup_setEntry_self, inductionHypothesis]

theorem at?_append
    (above below : List String)
    (root : Node) :
    at? (above ++ below) root = (at? above root).bind (at? below) := by
  induction above generalizing root with
  | nil => rfl
  | cons name above inductionHypothesis =>
    simp only [List.cons_append, at?]
    cases root.entry? name with
    | none => rfl
    | some node => exact inductionHypothesis node

/-- Only directories have something below them. -/
theorem exists_directory_of_at?
    {names : List String}
    {root : Node}
    {entries : List (String × Node)}
    (found : at? names root = some (.directory entries)) :
    ∃ above, root = .directory above := by
  cases root with
  | directory above => exact ⟨above, rfl⟩
  | file content =>
    cases names with
    | nil => cases found
    | cons name names => cases found

end Node

/-- Where a step leads from a directory with the given entries. -/
inductive Leads (entries : List (String × Node)) (here : List String) :
    String -> List String -> Prop
  | stay {step : String}
      (still : step = "" ∨ step = ".") :
      Leads entries here step here
  | up : Leads entries here ".." here.dropLast
  | down {step : String}
      (proper : step ≠ "" ∧ step ≠ "." ∧ step ≠ "..")
      (short : step.utf8ByteSize ≤ FileCause.longestName)
      (present : (entries.lookup step).isSome) :
      Leads entries here step (here ++ [step])

/-- A path is followed by taking its first step and following the rest. -/
theorem follow_cons_eq_ok_iff
    {root : Node}
    {here there rest : List String}
    {step : String} :
    follow root here (step :: rest) = .ok there ↔
      ∃ entries next, Node.at? here root = some (.directory entries) ∧
        Leads entries here step next ∧ follow root next rest = .ok there := by
  constructor
  · intro followed
    unfold follow at followed
    split at followed
    · cases followed
    · cases followed
    next entries found =>
    split at followed
    · next still => exact ⟨entries, here, found, .stay still, followed⟩
    next moves =>
    split at followed
    · next up =>
      subst up
      exact ⟨entries, here.dropLast, found, .up, followed⟩
    next downwards =>
    split at followed
    · cases followed
    next short =>
    split at followed
    · next present =>
      rw [not_or] at moves
      exact ⟨entries, here ++ [step], found,
        .down ⟨moves.1, moves.2, downwards⟩ (Nat.not_lt.mp short) present, followed⟩
    · cases followed
  · rintro ⟨entries, next, found, leads, followed⟩
    unfold follow
    simp only [found]
    cases leads with
    | stay still =>
      rw [if_pos still]
      exact followed
    | up =>
      rw [if_neg (by decide), if_pos rfl]
      exact followed
    | down proper short present =>
      rw [if_neg (not_or.mpr ⟨proper.1, proper.2.1⟩), if_neg proper.2.2,
        if_neg (Nat.not_lt.mpr short), if_pos present]
      exact followed

theorem follow_append
    {root : Node}
    {here middle there before after : List String}
    (first : follow root here before = .ok middle)
    (second : follow root middle after = .ok there) :
    follow root here (before ++ after) = .ok there := by
  induction before generalizing here with
  | nil =>
    cases first
    exact second
  | cons step before inductionHypothesis =>
    obtain ⟨entries, next, found, leads, followed⟩ := follow_cons_eq_ok_iff.mp first
    exact follow_cons_eq_ok_iff.mpr ⟨entries, next, found, leads, inductionHypothesis followed⟩

/-- A tree has all directories of another tree, each with at least its entries. -/
def Extends (larger smaller : Node) : Prop :=
  ∀ names entries, Node.at? names smaller = some (.directory entries) ->
    ∃ entries', Node.at? names larger = some (.directory entries') ∧
      ∀ name, (entries.lookup name).isSome -> (entries'.lookup name).isSome

/-- A path that can be followed can be followed in a larger tree. -/
theorem Extends.follow
    {larger smaller : Node}
    (extended : Extends larger smaller)
    {steps here there : List String}
    (followed : Disk.follow smaller here steps = .ok there) :
    Disk.follow larger here steps = .ok there := by
  induction steps generalizing here with
  | nil => exact followed
  | cons step steps inductionHypothesis =>
    obtain ⟨entries, next, found, leads, followed⟩ := follow_cons_eq_ok_iff.mp followed
    obtain ⟨entries', found', kept⟩ := extended here entries found
    have leads' : Leads entries' here step next := by
      cases leads with
      | stay still => exact .stay still
      | up => exact .up
      | down proper short present => exact .down proper short (kept step present)
    exact follow_cons_eq_ok_iff.mpr
      ⟨entries', next, found', leads', inductionHypothesis followed⟩

/-- Putting a node where no directory stands takes away no directory. -/
theorem extends_put
    {placed root : Node}
    {names : List String}
    (vacant : ∀ entries, Node.at? names root ≠ some (.directory entries)) :
    Extends (Node.put placed names root) root := by
  intro here entries found
  induction names generalizing here root with
  | nil =>
    obtain ⟨above, rfl⟩ := Node.exists_directory_of_at? found
    exact absurd rfl (vacant above)
  | cons name names inductionHypothesis =>
    obtain ⟨above, rfl⟩ := Node.exists_directory_of_at? found
    cases here with
    | nil =>
      cases found
      refine ⟨_, rfl, fun other present => ?_⟩
      by_cases same : other = name
      · subst same
        rw [Node.lookup_setEntry_self]
        rfl
      · rw [Node.lookup_setEntry_of_ne same]
        exact present
    | cons first here =>
      -- Only what is below the first name has changed.
      simp only [Node.at?, Node.entry?, Node.put] at found vacant ⊢
      by_cases same : first = name
      · subst same
        rw [Node.lookup_setEntry_self]
        cases below : above.lookup first with
        | none => simp [below] at found
        | some node =>
          simp only [below, Option.bind_some, Option.getD_some] at found vacant ⊢
          exact inductionHypothesis vacant here found
      · rw [Node.lookup_setEntry_of_ne same]
        exact ⟨entries, found, fun _ present => present⟩

/-- What is known of a path at which a file may be written. -/
structure Writable
    (disk : Disk)
    (path : String)
    (parent : List String)
    (name : String) : Prop where
  /-- The path is in order. -/
  sound : FileCause.ofPath? path = none
  /-- The path leads to the directory and then to the name. -/
  steps_eq : ∃ before, Path.steps path = before ++ [name] ∧
    follow disk.root (disk.start path) before = .ok parent
  /-- The directory exists. -/
  above : ∃ entries, Node.at? parent disk.root = some (.directory entries)
  /-- There is no directory of that name. -/
  vacant : ∀ entries, Node.at? (parent ++ [name]) disk.root ≠ some (.directory entries)
  /-- The name leads downwards. -/
  proper : name ≠ "" ∧ name ≠ "." ∧ name ≠ ".."
  /-- The name is not too long. -/
  short : name.utf8ByteSize ≤ FileCause.longestName

/-- If no trailing steps are left out, the last step is not empty. -/
theorem withoutTrailing_of_length_le
    {steps : List String}
    (nonempty : steps ≠ [])
    (whole : steps.length ≤ (withoutTrailing steps).length) :
    withoutTrailing steps = steps ∧ steps.getLast nonempty ≠ "" := by
  have kept : steps.rdropWhile (· == "") = steps :=
    (List.rdropWhile_prefix _ _).eq_of_length_le whole
  refine ⟨kept, ?_⟩
  have last := List.rdropWhile_last_not (· == "") steps (by rw [kept]; exact nonempty)
  simp only [kept] at last
  simpa using last

/-- The checks that a path has passed at which a file may be written. -/
theorem checks_of_locateNew
    {disk : Disk}
    {path : String}
    {names : List String}
    (located : disk.locateNew path = .ok names) :
    ∃ parent entries name,
      (withoutTrailing (Path.steps path)).getLast?.getD "" = name ∧
      FileCause.ofPath? path = none ∧
      follow disk.root (disk.start path) (withoutTrailing (Path.steps path)).dropLast =
        .ok parent ∧
      Node.at? parent disk.root = some (.directory entries) ∧
      (Path.steps path).length ≤ (withoutTrailing (Path.steps path)).length ∧
      (name ≠ "." ∧ name ≠ "..") ∧
      name.utf8ByteSize ≤ FileCause.longestName ∧
      (∀ below, entries.lookup name ≠ some (.directory below)) ∧
      names = parent ++ [name] := by
  unfold locateNew at located
  cases sound : FileCause.ofPath? path with
  | some cause => simp [sound, bind, Except.bind, throw, throwThe, MonadExceptOf.throw] at located
  | none =>
    simp only [sound, bind, Except.bind, pure, Except.pure, throw, throwThe,
      MonadExceptOf.throw] at located
    cases followed : follow disk.root (disk.start path)
        (withoutTrailing (Path.steps path)).dropLast with
    | error cause => simp [followed] at located
    | ok parent =>
      simp only [followed] at located
      split at located
      · next entries above =>
        split at located
        · cases located
        next downwards =>
        rw [not_or, not_or, Nat.not_lt] at downwards
        split at located
        · cases located
        next short =>
        split at located
        · cases located
        next vacant =>
        cases located
        exact ⟨parent, entries, _, rfl, rfl, rfl, above, downwards.1, downwards.2,
          Nat.not_lt.mp short, vacant, rfl⟩
      · cases located
      · cases located

theorem writable_of_locateNew
    {disk : Disk}
    {path : String}
    {names : List String}
    (located : disk.locateNew path = .ok names) :
    ∃ parent name, names = parent ++ [name] ∧ Writable disk path parent name := by
  obtain ⟨parent, entries, name, name_eq, sound, followed, above, whole, downwards, short, vacant,
    names_eq⟩ := checks_of_locateNew located
  -- The name is the last step of the path itself, since no step behind it was left out.
  have nonempty := Path.steps_ne_nil path
  obtain ⟨kept, last_ne⟩ := withoutTrailing_of_length_le nonempty whole
  rw [kept] at name_eq followed
  have last_eq : (Path.steps path).getLast nonempty = name := by
    rw [← name_eq, List.getLast?_eq_some_getLast nonempty]
    rfl
  rw [last_eq] at last_ne
  refine ⟨parent, name, names_eq, ?_⟩
  exact {
    sound := sound
    steps_eq := ⟨_, by rw [← last_eq, List.dropLast_append_getLast], followed⟩
    above := ⟨entries, above⟩
    vacant := by
      intro below found
      rw [Node.at?_append, above] at found
      simp only [Option.bind_some, Node.at?, Node.entry?] at found
      cases entry_eq : entries.lookup name with
      | none => simp [entry_eq] at found
      | some node =>
        simp only [entry_eq, Option.bind_some, Option.some.injEq] at found
        subst found
        exact vacant below entry_eq
    proper := ⟨last_ne, downwards⟩
    short := short }

/-- A file that was written is read back. -/
theorem readFile_of_writeFile
    {disk after : Disk}
    {path : String}
    {content : List UInt8}
    (written : disk.writeFile path content = .ok after) :
    after.readFile path = .ok content := by
  unfold writeFile at written
  split at written
  · cases written
  next names located =>
  cases written
  obtain ⟨parent, name, rfl, writable⟩ := writable_of_locateNew located
  obtain ⟨before, steps_eq, followed⟩ := writable.steps_eq
  obtain ⟨entries, above⟩ := writable.above
  have placed := Node.at?_put (.file content) (parent ++ [name]) disk.root
  have extended : Extends (Node.put (.file content) (parent ++ [name]) disk.root) disk.root :=
    extends_put writable.vacant
  obtain ⟨entries', above', -⟩ := extended parent entries above
  have present : (entries'.lookup name).isSome := by
    rw [Node.at?_append, above'] at placed
    simp only [Option.bind_some, Node.at?, Node.entry?] at placed
    cases entry_eq : entries'.lookup name with
    | none => simp [entry_eq] at placed
    | some node => rfl
  have arrived : follow (Node.put (.file content) (parent ++ [name]) disk.root)
      (disk.start path) (Path.steps path) = .ok (parent ++ [name]) := by
    rw [steps_eq]
    refine follow_append (extended.follow followed) ?_
    exact follow_cons_eq_ok_iff.mpr
      ⟨entries', parent ++ [name], above', .down writable.proper writable.short present, rfl⟩
  have located' : locate
      { disk with root := Node.put (.file content) (parent ++ [name]) disk.root } path =
        .ok (parent ++ [name]) := by
    rw [locate, writable.sound]
    exact arrived
  rw [readFile, located']
  simp only [placed]

/-- Putting a node where nothing stands in the way leaves all files. -/
theorem Node.at?_put_of_file
    {placed root : Node}
    {names here : List String}
    {content : List UInt8}
    (vacant : at? names root = none)
    (noFile : ∀ above content, above <+: names -> at? above root ≠ some (.file content))
    (found : at? here root = some (.file content)) :
    at? here (put placed names root) = some (.file content) := by
  induction names generalizing here root with
  | nil => cases vacant
  | cons name names inductionHypothesis =>
    cases root with
    | file other => exact absurd rfl (noFile [] other List.nil_prefix)
    | directory entries =>
      cases here with
      | nil => cases found
      | cons first here =>
        simp only [at?, entry?, put] at found vacant ⊢
        by_cases same : first = name
        · subst same
          rw [lookup_setEntry_self]
          cases below : entries.lookup first with
          | none => simp [below] at found
          | some node =>
            simp only [below, Option.bind_some, Option.getD_some] at found vacant ⊢
            refine inductionHypothesis vacant (fun above content isAbove => ?_) found
            have noFile_below := noFile (first :: above) content
              ((List.prefix_cons_inj first).mpr isAbove)
            simpa [at?, entry?, below] using noFile_below
        · rw [lookup_setEntry_of_ne same]
          exact found

/-- No file stands above a directory. -/
theorem Node.at?_above_ne_file
    {root : Node}
    {above names : List String}
    {entries : List (String × Node)}
    (found : at? names root = some (.directory entries))
    (isAbove : above <+: names)
    (content : List UInt8) :
    at? above root ≠ some (.file content) := by
  obtain ⟨below, rfl⟩ := isAbove
  intro isFile
  rw [at?_append, isFile] at found
  obtain ⟨entries', file_eq⟩ := exists_directory_of_at? found
  cases file_eq

theorem readFile_eq_ok_iff
    {disk : Disk}
    {path : String}
    {content : List UInt8} :
    disk.readFile path = .ok content ↔
      ∃ names, disk.locate path = .ok names ∧
        Node.at? names disk.root = some (.file content) := by
  unfold readFile
  cases disk.locate path with
  | error cause => simp
  | ok names =>
    cases found : Node.at? names disk.root with
    | none => simp [found]
    | some node => cases node <;> simp [found]

/-- Opening a file leaves what is in files. -/
theorem readFile_of_openFile
    {disk after : Disk}
    {opened path : String}
    {content : List UInt8}
    (isOpen : disk.openFile opened = .ok after)
    (found : disk.readFile path = .ok content) :
    after.readFile path = .ok content := by
  unfold openFile at isOpen
  split at isOpen
  · cases isOpen
  next names located =>
  split at isOpen
  · cases isOpen
    exact found
  · next vacant =>
    cases isOpen
    obtain ⟨parent, name, rfl, writable⟩ := writable_of_locateNew located
    obtain ⟨entries, above⟩ := writable.above
    obtain ⟨there, located', at_eq⟩ := readFile_eq_ok_iff.mp found
    have noFile : ∀ above content, above <+: parent ++ [name] ->
        Node.at? above disk.root ≠ some (.file content) := by
      intro other content isAbove
      rcases List.prefix_concat_iff.mp isAbove with rfl | isAbove
      · rw [vacant]
        nofun
      · exact Node.at?_above_ne_file above isAbove content
    refine readFile_eq_ok_iff.mpr ⟨there, ?_, Node.at?_put_of_file vacant noFile at_eq⟩
    unfold locate at located' ⊢
    split at located'
    · cases located'
    · exact (extends_put writable.vacant).follow located'

end Disk
end GlyphStack
