import GlyphStack.Proofs.Dumps
import GlyphStack.Proofs.Lines
import GlyphStack.Proofs.Lookups
import GlyphStack.Proofs.Matching
import GlyphStack.Proofs.Runs
import GlyphStack.Proofs.Trimming

/-!
# Places that a command prints

A command reads a file without the white space at both ends, and all places that it
prints count from where the white space in front ends: those of errors, of blocks without
a partner, of the instructions in a listing and of an instruction that fails.  Behind that
white space each is the place of the character that the report is about.  In the file it is
so only if there is none in front, or nothing but blanks of the first line and the report
is about a later one.
-/

namespace GlyphStack

/-! ## White space around a text -/

namespace Text

theorem exists_chars_of_blank
    (glyphs : List Glyph)
    (blank : ∀ glyph ∈ glyphs, isBlank glyph = true) :
    ∃ text : List Char, glyphs = text.map .char ∧ ∀ c ∈ text, isSpace c = true := by
  induction glyphs with
  | nil => exact ⟨[], rfl, by simp⟩
  | cons glyph glyphs inductionHypothesis =>
    obtain ⟨text, rfl, blank_text⟩ :=
      inductionHypothesis fun other found => blank other (.tail glyph found)
    cases glyph with
    | stray byte => cases blank (.stray byte) (.head _)
    | char c =>
      have isSpace_c : isSpace c = true := blank (.char c) (.head _)
      exact ⟨c :: text, rfl, List.forall_mem_cons.mpr ⟨isSpace_c, blank_text⟩⟩

/-- A text is what trimming leaves, between white space. -/
theorem exists_around_trim (source : List Glyph) :
    ∃ leading trailing : List Char,
      source = leading.map .char ++ (trim source ++ trailing.map .char) ∧
      (∀ c ∈ leading, isSpace c = true) ∧
      (∀ c ∈ trailing, isSpace c = true) ∧
      ∀ glyph ∈ (trim source).head?, isBlank glyph = false := by
  have trimEnd_eq : trim source = (trimStart source).rdropWhile isBlank := rfl
  obtain ⟨leading, leading_eq, blank⟩ := exists_chars_of_blank (source.takeWhile isBlank)
    fun _ found => List.mem_takeWhile_imp found
  obtain ⟨trailing, trailing_eq, blank'⟩ := exists_chars_of_blank
    ((trimStart source).rtakeWhile isBlank) fun _ found => List.mem_rtakeWhile_imp found
  refine ⟨leading, trailing, ?_, blank, blank', ?_⟩
  · rw [← leading_eq, ← trailing_eq, trimEnd_eq, List.rdropWhile_append_rtakeWhile]
    exact List.takeWhile_append_dropWhile.symm
  · intro glyph first
    have found : (trimStart source).head? = some glyph := by
      obtain ⟨rest, split⟩ := List.rdropWhile_prefix isBlank (trimStart source)
      rw [← split, List.head?_append, ← trimEnd_eq, first]
      rfl
    have stops := List.head?_dropWhile_not isBlank source
    rw [trimStart] at found
    rw [found] at stops
    simpa using stops

end Text

/-! ## Places behind white space -/

namespace Position

theorem behind_after (leading before : List Char) :
    (after before).behind leading = after (leading ++ before) := by
  induction before using List.reverseRecOn with
  | nil =>
    rw [List.append_nil]
    exact behind_start leading
  | append_singleton before c inductionHypothesis =>
    have inText : 0 < (after before).line := by
      simp only [after]
      omega
    rw [← List.append_assoc, after_concat, after_concat, ← advance_behind inText,
      inductionHypothesis]

/-- A text in front moves a place by a line or by a column, unless it has no newlines and
either nothing at all or no part in the line of the place. -/
theorem eq_behind_iff
    {position : Position}
    {leading : List Char} :
    (position.line = (position.behind leading).line ∧
        position.column = (position.behind leading).column) ↔
      '\n' ∉ leading ∧ (leading = [] ∨ position.line ≠ 1) := by
  have line_eq_iff : position.line = (position.behind leading).line ↔ '\n' ∉ leading := by
    rw [← List.count_eq_zero]
    simp only [behind]
    omega
  rw [line_eq_iff]
  refine and_congr_right fun sameLine => ?_
  have lastLine_eq : leading.rtakeWhile (· != '\n') = leading := by
    simpa [Text.lastLine] using Text.lastLine_append [] sameLine
  rw [behind, lastLine_eq, ← List.length_eq_zero_iff]
  dsimp only
  split <;> omega

end Position

namespace Lexer

theorem Error.position_behind
    (error : Error)
    (leading : List Char) :
    (error.behind leading).position = error.position.behind leading := by
  cases error <;> rfl

end Lexer

namespace Program

variable {width : Width} {leading : List Char} {body : List Glyph}

/-- The error of a text is also that of the text between white space. -/
theorem ofSource_around_error
    (blank : ∀ c ∈ leading, Text.isSpace c = true)
    {error : Lexer.Error}
    (refused : ofSource width body = .error error)
    (trailing : List Glyph) :
    ofSource width (leading.map .char ++ (body ++ trailing)) =
      .error (error.behind leading) := by
  have refused' : ofSource width (body ++ trailing) = .error error := by
    obtain ⟨text, glyph, later, rfl, found⟩ := ofSource_eq_error_iff.mp refused
    exact ofSource_eq_error_iff.mpr ⟨text, glyph, later ++ trailing, by simp, found⟩
  obtain ⟨middle, rests, -, passes⟩ := Lexer.State.rests_initial.spaces width blank
  obtain ⟨error_eq, -⟩ := rests.scan width (body ++ trailing)
  rw [ofSource_eq_error_iff_scan] at refused' ⊢
  rw [passes, error_eq, refused', List.nil_append]
  rfl

/-- The instructions of a text stand in the bytes around it behind the white space in
front. -/
theorem origins_around
    {content : List UInt8}
    {trailing : List Char}
    (decoded : Glyph.decode content = leading.map .char ++ (body ++ trailing.map .char))
    {program : Program}
    (accepted : ofSource width body = .ok program)
    {instruction : Instruction}
    (found : instruction ∈ program) :
    ∃ before c later, body = (before ++ c :: later).map .char ∧
      Lexer.Origin before c later instruction ∧
      (instruction.position.behind leading).PointsAt content (leading ++ before) (.char c) := by
  obtain ⟨text, rfl, origins⟩ := origins_of_ofSource accepted
  obtain ⟨-, before, c, later, rfl, position_eq, origin⟩ := origins instruction found
  refine ⟨before, c, later, rfl, origin, ?_⟩
  have content_eq : content = Text.utf8 ((leading ++ before) ++ c :: (later ++ trailing)) := by
    apply Glyph.decode_eq_map_iff.mp
    rw [decoded]
    simp
  rw [position_eq, Position.behind_after, content_eq, ← List.append_nil (Text.utf8 _)]
  exact Position.pointsAt_after (leading ++ before) c (later ++ trailing) []

end Program

/-! ## Failures and their instructions -/

namespace Engine

variable {sink : Sink} {program : Program}

theorem State.getElem?_of_step?
    {state after : State}
    {failure : Failure}
    (stepped : state.step? sink program = some (after, some failure)) :
    program[failure.index]? = some failure.instruction := by
  unfold step? at stepped
  split at stepped
  · cases stepped
  · next instruction found =>
    split at stepped
    · rw [Option.some.injEq, perform, performTo] at stepped
      split at stepped
      · cases stepped
      · cases stepped
        exact found
    · cases stepped

theorem Ends.getElem?_failure
    {state final : State}
    {outcome : Option Failure}
    (ends : Ends sink program state final outcome)
    {failure : Failure}
    (failed : outcome = some failure) :
    program[failure.index]? = some failure.instruction := by
  induction ends with
  | finished past => cases failed
  | failed stepped =>
    cases failed
    exact State.getElem?_of_step? stepped
  | step stepped ends inductionHypothesis => exact inductionHypothesis failed

/-- A run fails at an instruction of its program. -/
theorem getElem?_of_run
    {engine : Engine}
    {limit : Nat}
    {id : String}
    {failure : Failure}
    (failed : ((engine.run sink limit id program).1.latest.bind fun latest => latest.failure) =
      some failure) :
    program[failure.index]? = some failure.instruction := by
  rcases ran : (State.initial engine.width).run sink program limit with ⟨final, ending⟩
  rw [run_eq engine ran] at failed
  cases ending with
  | finished => cases failed
  | stopped next => cases failed
  | failed other =>
    cases failed
    have ends : Ends sink program (State.initial engine.width) final (some failure) :=
      ends_of_run ran
    exact ends.getElem?_failure rfl

end Engine

/-! ## What the command prints -/

namespace Command

open Storage

/-- The options name a file, and nothing else takes its place. -/
structure Options.NamesFile (options : Options) (path : String) : Prop where
  operands_eq : options.operands = [path]
  isFile : path ≠ "-"
  noInline : options.inline = ""
  noSnapshot : options.inspect = ""
  noService : options.service = false

section Storages

variable {σ : Type} [Storage σ] {storage after : σ}

variable {options : Options} {path : String} {content : List UInt8}

theorem carryOut_source
    (named : options.NamesFile path)
    (found : readFile storage path = .ok content)
    (input : StateM σ (List UInt8)) :
    carryOut storage (source input options) =
      (.ok { name := Path.base path, text := Text.trim (Glyph.decode content) }, storage) := by
  have read_eq : carryOut storage (FileSystem.readFile path) = (.ok content, storage) := by
    rw [← found]
    rfl
  rw [source, named.noInline, named.operands_eq]
  simp only [bne_self_eq_false, Bool.false_eq_true, if_false, if_neg named.isFile]
  rw [carryOut_bind, read_eq]
  rfl

/-- Where no directory has a configuration the settings are the defaults. -/
theorem carryOut_settings_of_unconfigured
    [Manifest.Format]
    {directory : List String}
    (starts : Manifest.namesOf storage "." = .ok directory)
    (nowhere : ∀ above, above <+: directory -> ¬ Manifest.Configured storage above)
    (noFile : options.config = "")
    (noLevel : options.level = "") :
    carryOut storage (settings options) = (.ok .default, storage) := by
  have found : carryOut storage (Manifest.find ".") = (.ok none, storage) := by
    rcases Manifest.find_cases starts with ⟨above, result, nearest, -⟩ | ⟨-, found⟩
    · exact absurd nearest.configured (nowhere above nearest.isAbove)
    · exact found
  have configured : carryOut storage (configuration "") = (.ok .default, storage) := by
    rw [configuration, if_pos rfl, carryOut_bind, found]
    rfl
  rw [settings, noFile, carryOut_bind, configured]
  simp only [noLevel]
  rfl

variable [Snapshot.Format]

/-- A failure is printed, whatever becomes of the snapshot. -/
theorem errors_finish_of_failure
    {engine : Engine}
    {failure : Failure}
    (failed : (engine.latest.bind fun latest => latest.failure) = some failure)
    (job : Job)
    (storage : σ) :
    (carryOut storage (job.finish engine)).1.errors = (Error.run failure).message ++ "\n" := by
  rw [Job.finish, failed]
  split <;> exact String.append_empty

variable [Manifest.Format] {arguments : List String} {chosen : Manifest}

theorem carryOut_prepare
    (asked : Options.read {} arguments = .options options)
    (named : options.NamesFile path)
    (configured : carryOut storage (settings options) = (.ok chosen, after))
    (found : readFile after path = .ok content)
    (input : StateM σ (List UInt8)) :
    carryOut storage (prepare input arguments) =
      (planSource options chosen
        { name := Path.base path, text := Text.trim (Glyph.decode content) }, after) := by
  rw [prepare, asked]
  dsimp only
  rw [plan, carryOut_bind, configured]
  simp only [named.noSnapshot, named.noService, bne_self_eq_false, Bool.false_eq_true, if_false]
  rw [carryOut_bind, carryOut_source named found]
  rfl

theorem carryOut_run_of_settled
    {input : StateM σ (List UInt8)}
    {outcome : Outcome}
    (prepared : carryOut storage (prepare input arguments) = (.settled outcome, after))
    (limit : Nat)
    (id : String) :
    carryOut storage (run input limit id arguments) = (outcome, after) := by
  rw [run, carryOut_bind, prepared]
  rfl

theorem errors_run_of_failure
    {input : StateM σ (List UInt8)}
    {job : Job}
    (prepared : carryOut storage (prepare input arguments) = (.run job, after))
    {limit : Nat}
    {id : String}
    {failure : Failure}
    (failed : (((Engine.new job.width).run .unlimited limit id job.program).1.latest.bind
      fun latest => latest.failure) = some failure) :
    (carryOut storage (run input limit id arguments)).1.errors =
      (Error.run failure).message ++ "\n" := by
  rw [run, carryOut_bind, prepared]
  exact errors_finish_of_failure failed job after

/-- The places that the command prints for a file count from the end of the white space in
front.  Behind it each is the place of the character that the report is about: the error,
the instructions of a listing, the blocks without a partner and the instruction that
fails.  It is so in the file as well exactly if the white space has no newlines and either
there is none or the place lies behind the first line. -/
theorem places_count_from_body
    (storage : σ)
    (input : StateM σ (List UInt8))
    (limit : Nat)
    (id : String)
    (asked : Options.read {} arguments = .options options)
    (named : options.NamesFile path)
    (configured : carryOut storage (settings options) = (.ok chosen, after))
    (found : readFile after path = .ok content) :
    ∃ leading body trailing,
      body = Text.trim (Glyph.decode content) ∧
      Glyph.decode content = leading.map .char ++ (body ++ trailing.map .char) ∧
      (∀ c ∈ leading ++ trailing, Text.isSpace c = true) ∧
      (∀ glyph ∈ body.head?, Text.isBlank glyph = false) ∧
      (∀ position : Position,
        (position.line = (position.behind leading).line ∧
            position.column = (position.behind leading).column) ↔
          '\n' ∉ leading ∧ (leading = [] ∨ position.line ≠ 1)) ∧
      (∀ error, Program.ofSource (.ofInt chosen.byteWidth) body = .error error ->
        (carryOut storage (run input limit id arguments)).1 =
            (Error.source (Path.base path) error).outcome "" ∧
          (error.behind leading).position = error.position.behind leading ∧
          ∃ consumed,
            (error.behind leading).Blames (.ofInt chosen.byteWidth) content consumed) ∧
      ∀ program, Program.ofSource (.ofInt chosen.byteWidth) body = .ok program ->
        (∀ instruction ∈ program, ∃ before c later,
          body = (before ++ c :: later).map .char ∧
          Lexer.Origin before c later instruction ∧
          (instruction.position.behind leading).PointsAt content (leading ++ before)
            (.char c)) ∧
        (options.listing = true ->
          (carryOut storage (run input limit id arguments)).1 =
            { output := program.listing (Path.base path) }) ∧
        (options.listing = false -> options.check = true ->
          (carryOut storage (run input limit id arguments)).1 =
              checkBlocks (Path.base path) program ∧
            ∀ issue ∈ program.blockIssues, issue.instruction ∈ program) ∧
        (options.listing = false -> options.check = false ->
          ∀ failure, (((Engine.new (.ofInt chosen.byteWidth)).run .unlimited limit id
              program).1.latest.bind fun latest => latest.failure) = some failure ->
            (carryOut storage (run input limit id arguments)).1.errors =
                (Error.run failure).message ++ "\n" ∧
              failure.instruction ∈ program) := by
  obtain ⟨leading, trailing, decoded, blank, blank', begins⟩ :=
    Text.exists_around_trim (Glyph.decode content)
  have prepared := carryOut_prepare asked named configured found input
  obtain ⟨body, body_eq⟩ : ∃ body, body = Text.trim (Glyph.decode content) := ⟨_, rfl⟩
  rw [← body_eq] at decoded begins prepared
  rw [planSource] at prepared
  refine ⟨leading, body, trailing, body_eq, decoded, ?_, begins,
    fun _ => Position.eq_behind_iff, ?_, ?_⟩
  · intro c isAround
    rcases List.mem_append.mp isAround with inFront | behind
    · exact blank c inFront
    · exact blank' c behind
  · intro error refused
    rw [refused] at prepared
    refine ⟨?_, error.position_behind leading, ?_⟩
    · rw [carryOut_run_of_settled prepared]
    · apply Lexer.exists_blames
      rw [decoded]
      exact Program.ofSource_around_error blank refused _
  · intro program accepted
    rw [accepted] at prepared
    refine ⟨fun _ found => Program.origins_around decoded accepted found, ?_, ?_, ?_⟩
    · intro listing
      rw [listing] at prepared
      rw [carryOut_run_of_settled prepared]
    · intro noListing check
      rw [noListing, check] at prepared
      refine ⟨by rw [carryOut_run_of_settled prepared], fun issue isIssue => ?_⟩
      exact List.mem_of_getElem? (Program.mem_blockIssues_iff.mp isIssue).1
    · intro noListing noCheck failure failed
      rw [noListing, noCheck] at prepared
      refine ⟨errors_run_of_failure prepared failed, ?_⟩
      exact List.mem_of_getElem? (Engine.getElem?_of_run failed)

end Storages

/-- A disk with an unknown character and with an endif, both behind a newline and a
blank. -/
def indented : Disk where
  root := .directory [
    ("symbol.play", .file [0x0a, 0x20, 0x40]),
    ("endif.play", .file [0x0a, 0x20, 0x29])]
  directory := []

/-- Both are on the second line, and both are reported on the first. -/
theorem places_count_from_body_indented :
    Options.read {} ["symbol.play"] = .options { operands := ["symbol.play"] } ∧
    carryOut indented (settings { operands := ["symbol.play"] }) = (.ok .default, indented) ∧
    indented.readFile "symbol.play" = .ok [0x0a, 0x20, 0x40] ∧
    (carryOut indented (run (pure []) 0 "" ["symbol.play"])).1 =
      { exit := 1, errors := "Error: symbol.play: 1:1: unknown symbol '@'\n" } ∧
    (∃ consumed, Lexer.Error.Blames (.ofInt Manifest.default.byteWidth) [0x0a, 0x20, 0x40]
      consumed (.unknownSymbol '@' { offset := 2, line := 2, column := 2 })) ∧
    Options.read {} ["-check", "endif.play"] =
      .options { check := true, operands := ["endif.play"] } ∧
    carryOut indented (settings { check := true, operands := ["endif.play"] }) =
      (.ok .default, indented) ∧
    indented.readFile "endif.play" = .ok [0x0a, 0x20, 0x29] ∧
    (carryOut indented (run (pure []) 0 "" ["-check", "endif.play"])).1 =
      { exit := 1,
        output := "endif.play:1:1: endif without an open block\n",
        errors := "Error: endif.play: 1 block issues\n" } ∧
    ∃ before c, Position.PointsAt { offset := 2, line := 2, column := 2 } [0x0a, 0x20, 0x29]
      before (.char c) := by
  have leading_eq : ∀ {c : Char} {leading trailing : List Char}, Text.isSpace c = false ->
      (∀ c ∈ leading ++ trailing, Text.isSpace c = true) ->
      ['\n', ' ', c].map Glyph.char = leading.map .char ++ ([.char c] ++ trailing.map .char) ->
      leading = ['\n', ' '] := by
    intro c leading trailing notSpace blank split
    have absent : c ∉ leading ++ trailing := fun found => by
      simpa [notSpace] using blank c found
    rw [List.mem_append, not_or] at absent
    have split' : leading ++ c :: trailing = ['\n', ' '] ++ c :: [] := by
      apply Glyph.map_char_inj
      rw [List.map_append, List.map_cons]
      exact split.symm
    exact ((List.append_cons_inj_of_notMem absent.1 absent.2).mp split').1
  have asked : Options.read {} ["symbol.play"] = .options { operands := ["symbol.play"] } := rfl
  have asked' : Options.read {} ["-check", "endif.play"] =
      .options { check := true, operands := ["endif.play"] } := rfl
  have nowhere : ∀ above, above <+: [] -> ¬ Manifest.Configured indented above := by
    intro above isAbove
    rw [List.prefix_nil.mp isAbove]
    exact (show ¬ indented.stat _ = _ by decide +kernel)
  have configured : carryOut indented (settings { operands := ["symbol.play"] }) =
      (.ok .default, indented) := carryOut_settings_of_unconfigured rfl nowhere rfl rfl
  have configured' : carryOut indented (settings { check := true, operands := ["endif.play"] }) =
      (.ok .default, indented) := carryOut_settings_of_unconfigured rfl nowhere rfl rfl
  have found : indented.readFile "symbol.play" = .ok [0x0a, 0x20, 0x40] := rfl
  have found' : indented.readFile "endif.play" = .ok [0x0a, 0x20, 0x29] := rfl
  have symbol : Glyph.decode [0x0a, 0x20, 0x40] = ['\n', ' ', '@'].map .char :=
    Glyph.decode_eq_map_iff.mpr (by decide)
  have endif : Glyph.decode [0x0a, 0x20, 0x29] = ['\n', ' ', ')'].map .char :=
    Glyph.decode_eq_map_iff.mpr (by decide)
  obtain ⟨leading, body, trailing, body_eq, decoded, blank, -, -, refused, -⟩ :=
    places_count_from_body indented (pure []) 0 "" asked ⟨rfl, by decide, rfl, rfl, rfl⟩
      configured found
  obtain ⟨leading', body', trailing', body_eq', decoded', blank', -, -, -, accepted⟩ :=
    places_count_from_body indented (pure []) 0 "" asked' ⟨rfl, by decide, rfl, rfl, rfl⟩
      configured' found'
  obtain rfl : body = [.char '@'] := by
    rw [body_eq, symbol]
    rfl
  obtain rfl : body' = [.char ')'] := by
    rw [body_eq', endif]
    rfl
  rw [symbol] at decoded
  rw [endif] at decoded'
  obtain rfl := leading_eq (by decide) blank decoded
  obtain rfl := leading_eq (by decide) blank' decoded'
  obtain ⟨printed, -, blames⟩ := refused (.unknownSymbol '@' .start) rfl
  obtain ⟨places, -, checked, -⟩ :=
    accepted [{ kind := .endif, value := 0, position := .start }] rfl
  obtain ⟨before, c, later, -, -, there⟩ := places _ (.head _)
  refine ⟨asked, configured, found, ?_, blames, asked', configured', found', ?_, _, _, there⟩
  · rw [printed]
    decide
  · rw [(checked rfl rfl).1]
    decide

end Command

end GlyphStack
