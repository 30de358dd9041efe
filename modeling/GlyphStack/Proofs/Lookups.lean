import GlyphStack.Proofs.Paths
import GlyphStack.Proofs.Settings

/-!
# The nearest configuration

A configuration is looked for in a directory and then in each directory above it.  The
first one that is found counts, whatever becomes of it, and what is farther away is not
looked at.  This holds in any file system, for whatever cause looking for a file or reading
it may fail, and for any form of the files.
-/

namespace GlyphStack
namespace Manifest

open Storage

/-- The path of the configuration of a directory. -/
def fileIn (directory : List String) : String :=
  Path.ofNames (directory ++ [fileName])

variable {σ : Type} [Storage σ]

/-- A directory has a configuration: something of that name is found in it. -/
def Configured (storage : σ) (directory : List String) : Prop :=
  stat storage (fileIn directory) = .ok ()

/-- Of a directory and those above it, the innermost one that has a configuration. -/
structure Nearest (storage : σ) (directory above : List String) : Prop where
  isAbove : above <+: directory
  configured : Configured storage above
  innermost : ∀ other, other <+: directory -> Configured storage other -> other <+: above

namespace Nearest

variable {storage : σ} {directory above : List String}

theorem self (configured : Configured storage directory) :
    Nearest storage directory directory where
  isAbove := List.prefix_rfl
  configured := configured
  innermost _ isAbove _ := isAbove

/-- Where a directory has no configuration, it has that of the directory above. -/
theorem concat
    {name : String}
    (unconfigured : ¬ Configured storage (directory ++ [name]))
    (nearest : Nearest storage directory above) :
    Nearest storage (directory ++ [name]) above where
  isAbove := nearest.isAbove.trans (List.prefix_append _ _)
  configured := nearest.configured
  innermost other isAbove configured := by
    rcases List.prefix_concat_iff.mp isAbove with rfl | isAbove
    · exact absurd configured unconfigured
    · exact nearest.innermost other isAbove configured

theorem unique
    {other : List String}
    (nearest : Nearest storage directory above)
    (nearest' : Nearest storage directory other) :
    above = other := by
  have below := nearest'.innermost above nearest.isAbove nearest.configured
  have below' := nearest.innermost other nearest'.isAbove nearest'.configured
  exact below.eq_of_length_le below'.length_le

end Nearest

/-! ## Where the search starts -/

/-- The names from the root of what a path leads to. -/
def namesOf (storage : σ) (path : String) : Except FileFault (List String) :=
  if Path.isAbsolute path then
    .ok (Path.normalNames true path)
  else
    (directory storage).map fun names => Path.normalNames true (Path.ofNames names ++ "/" ++ path)

theorem isName_of_namesOf
    {storage : σ}
    {path : String}
    {names : List String}
    (names_eq : namesOf storage path = .ok names) :
    ∀ name ∈ names, Path.IsName name := by
  unfold namesOf at names_eq
  intro name listed
  split at names_eq
  · cases names_eq
    exact Path.isName_of_mem_normalNames listed
  · cases located : directory storage with
    | error fault => simp [located, Except.map] at names_eq
    | ok here =>
      rw [located] at names_eq
      cases names_eq
      exact Path.isName_of_mem_normalNames listed

theorem carryOut_absolute
    (storage : σ)
    (path : String) :
    carryOut storage (absolute path) = ((namesOf storage path).map Path.ofNames, storage) := by
  have directory_eq : carryOut storage FileSystem.directory = (directory storage, storage) := rfl
  unfold absolute namesOf
  split
  · next rooted =>
    rw [Path.clean_of_isAbsolute rooted]
    rfl
  · have joined_eq : ∀ names, Path.join (Path.ofNames names) path =
        Path.ofNames (Path.normalNames true (Path.ofNames names ++ "/" ++ path)) :=
      fun names => Path.join_ofNames_eq names path
    rw [carryOut_bind, directory_eq]
    cases directory storage with
    | error fault => rfl
    | ok names =>
      simp only [Except.map, joined_eq]
      rfl

theorem isName_fileName : Path.IsName fileName :=
  ⟨by decide, by decide⟩

section Names

variable {directory : List String}

theorem isName_of_mem_concat
    (areNames : ∀ name ∈ directory, Path.IsName name) :
    ∀ name ∈ directory ++ [fileName], Path.IsName name := by
  simpa [or_imp, forall_and] using ⟨areNames, isName_fileName⟩

theorem namesOf_fileIn
    (storage : σ)
    (areNames : ∀ name ∈ directory, Path.IsName name) :
    namesOf storage (fileIn directory) = .ok (directory ++ [fileName]) := by
  rw [namesOf, fileIn, if_pos (Path.isAbsolute_ofNames _),
    Path.normalNames_ofNames (isName_of_mem_concat areNames)]

/-- On a disk a directory has a configuration if there is an entry of that name, be it a
file or a directory, with a path that the system takes. -/
theorem configured_disk_iff
    (disk : Disk)
    (areNames : ∀ name ∈ directory, Path.IsName name) :
    Configured disk directory ↔
      Path.Passable (directory ++ [fileName]) ∧
        (Disk.Node.at? (directory ++ [fileName]) disk.root).isSome :=
  Disk.stat_ofNames_eq_ok_iff (by simp) (isName_of_mem_concat areNames)

end Names

/-! ## What becomes of a configuration -/

section Search

variable [Format]

/-- What becomes of the configuration of a directory. -/
inductive Yields (storage : σ) (directory : List String) : Except Error Manifest -> Prop
  | unreadable {fault : FileFault}
      (failed : readFile storage (fileIn directory) = .error fault) :
      Yields storage directory (.error (.unreadable (.content (fileIn directory)) fault))
  | unparsable {content : List UInt8}
      (found : readFile storage (fileIn directory) = .ok content)
      (refused : Format.unmarshal? content default = none) :
      Yields storage directory (.error (.unparsable (fileIn directory)))
  | invalid {content : List UInt8} {manifest : Manifest} {cause : Invalid}
      (found : readFile storage (fileIn directory) = .ok content)
      (read_eq : Format.unmarshal? content default = some manifest)
      (outOfRange : manifest.validate = .error cause) :
      Yields storage directory (.error (.invalid (fileIn directory) cause))
  | accepted {content : List UInt8} {manifest : Manifest}
      (found : readFile storage (fileIn directory) = .ok content)
      (read_eq : Format.unmarshal? content default = some manifest)
      (valid : manifest.validate = .ok ()) :
      Yields storage directory (.ok { manifest with path := fileIn directory })

section Directories

variable {directory : List String}

/-- Each configuration yields something. -/
theorem exists_yields
    (storage : σ)
    (areNames : ∀ name ∈ directory, Path.IsName name) :
    ∃ result, Yields storage directory result ∧
      carryOut storage (load (fileIn directory)) = (result, storage) := by
  have read_eq : carryOut storage (FileSystem.readFile (fileIn directory)) =
      (readFile storage (fileIn directory), storage) := rfl
  have absolute_eq := carryOut_absolute storage (fileIn directory)
  rw [namesOf_fileIn storage areNames] at absolute_eq
  simp only [load, carryOut_bind, read_eq]
  cases found : readFile storage (fileIn directory) with
  | error fault => exact ⟨_, .unreadable found, rfl⟩
  | ok content =>
    dsimp only
    cases parsed : Format.unmarshal? content default with
    | none => exact ⟨_, .unparsable found parsed, rfl⟩
    | some manifest =>
      dsimp only
      simp only [carryOut_bind, absolute_eq, Except.map]
      have valid_eq : ∀ path, validate { manifest with path := path } = manifest.validate :=
        fun _ => rfl
      rw [valid_eq]
      cases checked : manifest.validate with
      | error cause => exact ⟨_, .invalid found parsed checked, rfl⟩
      | ok _ => exact ⟨_, .accepted found parsed checked, rfl⟩

/-- One turn of the search: what is found counts, and else the search goes on in the
directory above, unless that is the root. -/
theorem carryOut_findFrom
    (storage : σ)
    (areNames : ∀ name ∈ directory, Path.IsName name) :
    carryOut storage (findFrom (Path.ofNames directory)) =
      match stat storage (fileIn directory) with
      | .ok () => ((carryOut storage (load (fileIn directory))).1.map some,
          (carryOut storage (load (fileIn directory))).2)
      | .error _ =>
        if Path.ofNames directory.dropLast = Path.ofNames directory then
          (.ok none, storage)
        else
          carryOut storage (findFrom (Path.ofNames directory.dropLast)) := by
  have stat_eq : carryOut storage (FileSystem.stat (fileIn directory)) =
      (stat storage (fileIn directory), storage) := rfl
  rw [findFrom, Path.join_ofNames areNames isName_fileName, ← fileIn,
    Path.parent_ofNames areNames, carryOut_bind, stat_eq]
  cases stat storage (fileIn directory) with
  | ok _ => rfl
  | error fault =>
    dsimp only
    split <;> rfl

/-- The way up from a directory ends at the nearest configuration, or at the root if there
is none. -/
theorem carryOut_findFrom_cases
    (storage : σ)
    (areNames : ∀ name ∈ directory, Path.IsName name) :
    (∃ above result, Nearest storage directory above ∧ Yields storage above result ∧
      carryOut storage (load (fileIn above)) = (result, storage) ∧
      carryOut storage (findFrom (Path.ofNames directory)) = (result.map some, storage)) ∨
    (∀ above, above <+: directory -> ¬ Configured storage above) ∧
      carryOut storage (findFrom (Path.ofNames directory)) = (.ok none, storage) := by
  -- Each turn of the search leaves out the last name.
  induction directory using List.reverseRecOn with
  | nil =>
    rw [carryOut_findFrom storage areNames]
    cases found : stat storage (fileIn []) with
    | ok _ =>
      obtain ⟨result, yields, loaded⟩ := exists_yields storage areNames
      exact .inl ⟨[], result, .self found, yields, loaded, by rw [loaded]⟩
    | error fault =>
      refine .inr ⟨fun above isAbove configured => ?_, rfl⟩
      rw [List.prefix_nil.mp isAbove, Configured, found] at configured
      cases configured
  | append_singleton directory name inductionHypothesis =>
    have aboveNames : ∀ other ∈ directory, Path.IsName other := fun other listed =>
      areNames other (by simp [listed])
    have moves : Path.ofNames directory ≠ Path.ofNames (directory ++ [name]) := by
      intro same
      have names_eq := congrArg (Path.normalNames true) same
      rw [Path.normalNames_ofNames aboveNames, Path.normalNames_ofNames areNames] at names_eq
      simp at names_eq
    rw [carryOut_findFrom storage areNames, List.dropLast_concat]
    cases found : stat storage (fileIn (directory ++ [name])) with
    | ok _ =>
      obtain ⟨result, yields, loaded⟩ := exists_yields storage areNames
      exact .inl ⟨_, result, .self found, yields, loaded, by rw [loaded]⟩
    | error fault =>
      have unconfigured : ¬ Configured storage (directory ++ [name]) := by
        rw [Configured, found]
        exact nofun
      simp only [if_neg moves]
      rcases inductionHypothesis aboveNames with ⟨above, result, nearest, rest⟩ | ⟨nowhere, ended⟩
      · exact .inl ⟨above, result, nearest.concat unconfigured, rest⟩
      · refine .inr ⟨fun above isAbove => ?_, ended⟩
        rcases List.prefix_concat_iff.mp isAbove with rfl | isAbove
        · exact unconfigured
        · exact nowhere above isAbove

end Directories

/-! ## Results -/

/-- The search starts where the path leads, if that is known. -/
theorem carryOut_find
    (storage : σ)
    (start : String) :
    carryOut storage (find start) =
      match namesOf storage start with
      | .error fault => (.error (.unreadable .start fault), storage)
      | .ok directory => carryOut storage (findFrom (Path.ofNames directory)) := by
  rw [find, carryOut_bind, carryOut_absolute]
  cases namesOf storage start <;> rfl

/-- A configuration is found exactly as the nearest one yields it. -/
theorem find_cases
    {storage : σ}
    {start : String}
    {directory : List String}
    (starts : namesOf storage start = .ok directory) :
    (∃ above result, Nearest storage directory above ∧ Yields storage above result ∧
      carryOut storage (load (fileIn above)) = (result, storage) ∧
      carryOut storage (find start) = (result.map some, storage)) ∨
    (∀ above, above <+: directory -> ¬ Configured storage above) ∧
      carryOut storage (find start) = (.ok none, storage) := by
  rw [carryOut_find, starts]
  exact carryOut_findFrom_cases storage (isName_of_namesOf starts)

theorem carryOut_find_snd
    (storage : σ)
    (start : String) :
    (carryOut storage (find start)).2 = storage := by
  cases starts : namesOf storage start with
  | error fault => rw [carryOut_find, starts]
  | ok directory =>
    rcases find_cases starts with ⟨above, result, -, -, -, found⟩ | ⟨-, found⟩
    · rw [found]
    · rw [found]

theorem carryOut_load_snd
    (storage : σ)
    (path : String) :
    (carryOut storage (load path)).2 = storage := by
  have read_eq : carryOut storage (FileSystem.readFile path) = (readFile storage path, storage) :=
    rfl
  simp only [load, carryOut_bind, read_eq]
  cases readFile storage path with
  | error fault => rfl
  | ok content =>
    dsimp only
    cases Format.unmarshal? content default with
    | none => rfl
    | some manifest =>
      dsimp only
      simp only [carryOut_bind, carryOut_absolute]
      cases namesOf storage path with
      | error fault => rfl
      | ok names =>
        simp only [Except.map]
        cases validate { manifest with path := Path.ofNames names } <;> rfl

end Search

/-- A disk with a configuration at the root that sets a width, and with a directory that
takes the name of one below it. -/
def nested : Disk where
  root := .directory [
    (fileName, .file "[run]\nbyte-width = 8".toUTF8.toList),
    ("a", .directory [(fileName, .directory []), ("b", .directory [])])]
  directory := ["a", "b"]

end Manifest
end GlyphStack
