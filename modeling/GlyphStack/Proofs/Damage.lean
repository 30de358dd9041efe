import GlyphStack.Proofs.Locality
import GlyphStack.Proofs.Lookups
import GlyphStack.Proofs.Reports

/-!
# Damaged dumps

A dump of which the end was cut off, or behind which something was added, is refused.  A
command that is asked to print a file with such a dump fails and prints nothing.  What the
command does before, reading its configuration and opening a log file, leaves the file as
it is.
-/

namespace GlyphStack

open Storage

theorem Disk.readFile_carryOut_openFile
    {disk : Disk}
    {path : String}
    {content : List UInt8}
    (found : disk.readFile path = .ok content)
    (opened : String) :
    (carryOut disk (FileSystem.openFile opened)).2.readFile path = .ok content := by
  change (disk.commit (disk.openFile opened)).2.readFile path = _
  cases isOpen : disk.openFile opened with
  | error fault => exact found
  | ok after => exact readFile_of_openFile isOpen found

namespace Command

variable {disk : Disk}

theorem Error.exit_ne_zero (error : Error) : error.exit ≠ 0 := by
  cases error <;> simp [exit]

theorem carryOut_inspect_of_refused
    [Snapshot.Format]
    {path : String}
    {damaged : List UInt8}
    (found : disk.readFile path = .ok damaged)
    (refused : Snapshot.Format.unmarshal? damaged = none) :
    carryOut disk (inspect path) = (Error.notSnapshot.outcome "", disk) := by
  rw [carryOut_inspect, found]
  simp only [refused]

variable [Manifest.Format]

theorem carryOut_configuration_snd
    (disk : Disk)
    (path : String) :
    (carryOut disk (configuration path)).2 = disk := by
  unfold configuration
  split
  · rw [carryOut_bind, Manifest.carryOut_find_snd]
    cases (carryOut disk (Manifest.find ".")).1 <;> rfl
  · rw [carryOut_bind, Manifest.carryOut_load_snd]
    cases (carryOut disk (Manifest.load path)).1 <;> rfl

/-- What is read before a run leaves what is in files. -/
theorem readFile_settings
    {path : String}
    {content : List UInt8}
    (found : disk.readFile path = .ok content)
    (options : Options) :
    (carryOut disk (settings options)).2.readFile path = .ok content := by
  unfold settings
  rw [carryOut_bind, carryOut_configuration_snd]
  cases (carryOut disk (configuration options.config)).1 with
  | error error => exact found
  | ok manifest =>
    dsimp only
    split
    · exact found
    · split
      · exact found
      · have kept := Disk.readFile_carryOut_openFile found manifest.file
        change (carryOut disk (FileSystem.openFile manifest.file >>= _)).2.readFile path = _
        rw [carryOut_bind]
        cases (carryOut disk (FileSystem.openFile manifest.file)).1 <;> exact kept

/-- A command that is to print a file that is no snapshot prints nothing and fails. -/
theorem carryOut_run_of_refused
    [Snapshot.Format]
    {path : String}
    {damaged : List UInt8}
    (found : disk.readFile path = .ok damaged)
    (refused : Snapshot.Format.unmarshal? damaged = none)
    {arguments : List String}
    {options : Options}
    (asked : Options.read {} arguments = .options options)
    (inspects : options.inspect = path)
    (named : path ≠ "")
    (input : StateM Disk (List UInt8))
    (limit : Nat)
    (id : String) :
    ∃ error : Error, (carryOut disk (run input limit id arguments)).1 = error.outcome "" := by
  suffices ∃ (error : Error) (after : Disk),
      carryOut disk (prepare input arguments) = (.settled (error.outcome ""), after) by
    obtain ⟨error, after, prepared⟩ := this
    exact ⟨error, by rw [carryOut_run_of_settled prepared]⟩
  subst inspects
  have kept := readFile_settings found options
  rw [prepare, asked]
  dsimp only
  rw [plan, carryOut_bind]
  generalize carryOut disk (settings options) = settled at kept ⊢
  obtain ⟨chosen, after⟩ := settled
  cases chosen with
  | error error => exact ⟨error, after, rfl⟩
  | ok chosen =>
    have isAsked : (options.inspect != "") = true := by simpa using named
    have printed := carryOut_inspect_of_refused kept refused
    refine ⟨.notSnapshot, after, ?_⟩
    simp only [if_pos isAsked]
    rw [carryOut_bind, printed]
    rfl

end Command

namespace Snapshot

/-- A dump that was cut off or extended is refused, wherever the damage is.  A command that
is asked to print a file with it fails and prints nothing. -/
theorem damaged_dumps_are_refused
    [Manifest.Format]
    [Format]
    (framed : Format.Framed)
    {snapshot? : Option Snapshot}
    (addressable : ∀ snapshot ∈ snapshot?, snapshot.Addressable) :
    ∃ content, Format.marshal? snapshot? = some content ∧
      ∀ damaged, Cbor.Damaged content damaged ->
        Format.unmarshal? damaged = none ∧
        ∀ (disk : Disk) (path : String), disk.readFile path = .ok damaged ->
          carryOut disk (Command.inspect path) =
            (Command.Error.notSnapshot.outcome "", disk) ∧
          ∀ (input : StateM Disk (List UInt8)) (limit : Nat) (id : String)
            (arguments : List String) (options : Command.Options),
            Command.Options.read {} arguments = .options options ->
            options.inspect = path -> path ≠ "" ->
            (carryOut disk (Command.run input limit id arguments)).1.output = "" ∧
            (carryOut disk (Command.run input limit id arguments)).1.exit ≠ 0 := by
  refine ⟨_, framed.canonical addressable, fun damaged isDamaged => ?_⟩
  have refused : Format.unmarshal? damaged = none := by
    refine Option.eq_none_iff_forall_ne_some.mpr fun snapshot read_eq => ?_
    exact isDamaged.not_wellFormed (wellFormed_encode? addressable) (framed.single read_eq)
  refine ⟨refused, fun disk path found => ⟨Command.carryOut_inspect_of_refused found refused, ?_⟩⟩
  intro input limit id arguments options asked inspects named
  obtain ⟨error, outcome_eq⟩ :=
    Command.carryOut_run_of_refused found refused asked inspects named input limit id
  rw [outcome_eq]
  exact ⟨rfl, error.exit_ne_zero⟩

/-- The snapshot of a run that failed. -/
def failedRun : Snapshot where
  runId := "r"
  stack := some [300, -1]
  register := some 7
  returns := some [2]
  error := "stack underflow"

/-- A disk with the dump of that run, cut off where only its error is missing. -/
def severed : Disk where
  root := .directory [("dump", .file (failedRun.encode.take 25))]
  directory := []

/-- A snapshot need not have an error, and still the dump without it is refused. -/
theorem damaged_dumps_are_refused_severed :
    Format.Framed ∧
    failedRun.Addressable ∧
    Cbor.Damaged failedRun.encode (failedRun.encode.take 25) ∧
    severed.readFile "dump" = .ok (failedRun.encode.take 25) ∧
    Command.Options.read {} ["-inspect", "dump"] = .options { inspect := "dump" } ∧
    decode? (failedRun.encode.take 25) = none ∧
    (carryOut severed (Command.run (pure []) 0 "" ["-inspect", "dump"])).1.output = "" ∧
    (carryOut severed (Command.run (pure []) 0 "" ["-inspect", "dump"])).1.exit ≠ 0 := by
  have addressable : failedRun.Addressable := {
    runId := by decide +kernel
    stack := by decide
    returns := by decide
    outcomes := by decide
    error := by decide +kernel }
  have addressable' : ∀ snapshot ∈ some failedRun, snapshot.Addressable := by
    simpa using addressable
  have isDamaged : Cbor.Damaged failedRun.encode (failedRun.encode.take 25) :=
    ⟨by decide +kernel, .inl (List.take_prefix 25 failedRun.encode)⟩
  have found : severed.readFile "dump" = .ok (failedRun.encode.take 25) := rfl
  have asked : Command.Options.read {} ["-inspect", "dump"] = .options { inspect := "dump" } := rfl
  have framed : Format.Framed := honors_standard.toFramed
  obtain ⟨content, content_eq, refuses⟩ :=
    damaged_dumps_are_refused framed addressable'
  cases content_eq
  obtain ⟨refused, printed⟩ := refuses _ isDamaged
  obtain ⟨-, silent⟩ := printed severed "dump" found
  exact ⟨framed, addressable, isDamaged, found, asked, refused,
    silent (pure []) 0 "" _ _ asked rfl (by decide)⟩

end Snapshot
end GlyphStack
