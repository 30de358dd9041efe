import GlyphStack.Lexer
import GlyphStack.Snapshot

/-!
# Using a lexer or an engine again

A lexer keeps the state in which its latest reading ended or broke off, and a new
reading does not forget all of it: where the latest string or comment was opened and
where the latest number began stay as they are.  This never shows.  Outside strings
and comments nobody asks for the one place and outside numbers nobody asks for the
other, and when a string, a comment or a number begins, its place is noted anew.

An engine keeps the fields of its latest run, down to the blocks that the run has left
open, and sets them back when it runs again.  What it does not set back are its
settings and the sink, which has already taken what was printed before.

So whatever was asked of a lexer or an engine before, it answers as a new one would.
-/

namespace GlyphStack
namespace Lexer
namespace State

/-- A state that differs at most in where the latest string or comment was opened and
in the latest number, and not even there if the one or the other is still being
read. -/
inductive Alike (state : State) : State -> Prop
  | stale {opened numberAt : Position} {number : Int64}
      (opened_eq : state.mode ≠ .normal -> opened = state.opened)
      (number_eq : state.reading = true ->
        number = state.number ∧ numberAt = state.numberAt) :
      Alike state { state with opened := opened, number := number, numberAt := numberAt }

/-- The same error, or states that are alike. -/
inductive AlikeResult : Except Error State -> Except Error State -> Prop
  | ok {state other : State}
      (alike : state.Alike other) :
      AlikeResult (.ok state) (.ok other)
  | error (error : Error) :
      AlikeResult (.error error) (.error error)

namespace AlikeResult

variable {result otherResult : Except Error State}

theorem ok_or_error (alike : AlikeResult result otherResult) :
    (∃ state other, state.Alike other ∧ result = .ok state ∧ otherResult = .ok other) ∨
      ∃ error, result = .error error ∧ otherResult = .error error := by
  cases alike with
  | ok alike => exact .inl ⟨_, _, alike, rfl, rfl⟩
  | error error => exact .inr ⟨error, rfl, rfl⟩

/-- What keeps states alike keeps results alike. -/
theorem andThen
    (alike : AlikeResult result otherResult)
    {change : State -> State}
    (keeps : ∀ state other, state.Alike other -> (change state).Alike (change other)) :
    AlikeResult (do return change (<- result)) (do return change (<- otherResult)) := by
  cases alike with
  | error error => exact .error error
  | ok alike => exact .ok (keeps _ _ alike)

end AlikeResult

namespace Alike

variable {state other : State}

/-- At the start of a reading nothing is open and no number is being read. -/
theorem restart (earlier : State) : (initial.restart).Alike earlier.restart :=
  .stale (fun inside => absurd rfl inside) (fun reading => by cases reading)

theorem here_eq (alike : state.Alike other) : other.here = state.here := by
  cases alike
  rfl

theorem mode_eq (alike : state.Alike other) : other.mode = state.mode := by
  cases alike
  rfl

theorem program_eq (alike : state.Alike other) : other.program = state.program := by
  cases alike
  rfl

theorem pending_eq (alike : state.Alike other) : other.pending = state.pending := by
  obtain ⟨opened_eq, number_eq⟩ := alike
  unfold pending
  cases reading : state.reading with
  | false => rfl
  | true => simp [number_eq reading]

/-- States that are alike have the same string or comment open. -/
theorem unterminated?_eq (alike : state.Alike other) :
    other.unterminated? = state.unterminated? := by
  obtain ⟨opened_eq, number_eq⟩ := alike
  unfold unterminated?
  cases mode : state.mode with
  | normal => rfl
  | _ => simp [opened_eq, mode]

/-! ## What keeps states alike -/

theorem emit
    (alike : state.Alike other)
    (instruction : Instruction) :
    (state.emit instruction).Alike (other.emit instruction) := by
  obtain ⟨opened_eq, number_eq⟩ := alike
  exact .stale opened_eq number_eq

theorem moveTo
    (alike : state.Alike other)
    (here : Position) :
    Alike { state with here := here } { other with here := here } := by
  obtain ⟨opened_eq, number_eq⟩ := alike
  exact .stale opened_eq number_eq

/-- Inside a string or comment the mode may change. -/
theorem turn
    (alike : state.Alike other)
    (inside : state.mode ≠ .normal)
    (mode : Mode) :
    Alike { state with mode := mode } { other with mode := mode } := by
  obtain ⟨opened_eq, number_eq⟩ := alike
  exact .stale (fun _ => opened_eq inside) number_eq

/-- A string or comment that is opened has a place of its own. -/
theorem openHere
    (alike : state.Alike other)
    (mode : Mode) :
    Alike { state with mode := mode, opened := state.here }
      { other with mode := mode, opened := other.here } := by
  obtain ⟨opened_eq, number_eq⟩ := alike
  exact .stale (fun _ => rfl) number_eq

theorem endNumber (alike : state.Alike other) :
    Alike { state with reading := false, number := 0 }
      { other with reading := false, number := 0 } := by
  obtain ⟨opened_eq, number_eq⟩ := alike
  exact .stale opened_eq (fun reading => by cases reading)

/-- A number that is begun has a value and a place of its own, and one that is being
read has the same in both states. -/
theorem beginNumber (alike : state.Alike other) :
    state.beginNumber.Alike other.beginNumber ∧
      other.beginNumber.number = state.beginNumber.number ∧
      other.beginNumber.numberAt = state.beginNumber.numberAt := by
  obtain ⟨opened_eq, number_eq⟩ := alike
  obtain ⟨here, mode, opened, reading, number, numberAt, emitted⟩ := state
  -- What is stale of the number is overwritten in one case and excluded in the other.
  cases reading with
  | false => exact ⟨.stale opened_eq (fun _ => ⟨rfl, rfl⟩), rfl, rfl⟩
  | true => exact ⟨.stale opened_eq number_eq, number_eq rfl⟩

theorem appendDigit
    (alike : state.Alike other)
    (number_eq : other.number = state.number)
    (digit : Int64) :
    (state.appendDigit digit).Alike (other.appendDigit digit) ∧
      (other.appendDigit digit).number = (state.appendDigit digit).number := by
  unfold State.appendDigit
  rw [number_eq]
  split
  · exact ⟨alike, number_eq⟩
  · obtain ⟨opened_eq, same⟩ := alike
    exact ⟨.stale opened_eq (fun reading => ⟨rfl, (same reading).2⟩), rfl⟩

theorem breakOff
    (alike : state.Alike other)
    (glyph : Glyph) :
    (state.breakOff glyph).Alike (other.breakOff glyph) := by
  unfold State.breakOff
  rw [alike.mode_eq]
  split
  · next mode => exact alike.turn (by simp [mode]) .string
  · split
    · obtain ⟨begun, number_eq, -⟩ := alike.beginNumber
      exact (begun.appendDigit number_eq _).1
    · exact alike
  · exact alike

/-! ## Reading in states that are alike -/

theorem flush
    (alike : state.Alike other)
    (width : Width) :
    AlikeResult (state.flush width) (other.flush width) := by
  unfold State.flush
  rw [alike.pending_eq]
  cases state.pending with
  | none => exact .ok alike
  | some literal =>
    dsimp only
    cases Instruction.push width literal.value literal.start with
    | ok instruction => exact .ok (alike.emit instruction).endNumber
    | error overflow => exact .error _

theorem emitChar
    (alike : state.Alike other)
    (width : Width)
    (c : Char) :
    AlikeResult (state.emitChar width c) (other.emitChar width c) := by
  unfold State.emitChar
  rw [alike.here_eq]
  cases Instruction.push width (Int64.ofNat c.toNat) state.here with
  | ok instruction => exact .ok (alike.emit instruction)
  | error overflow => exact .error _

theorem readDigit
    (alike : state.Alike other)
    (width : Width)
    (digit : Int64) :
    AlikeResult (state.readDigit width digit) (other.readDigit width digit) := by
  obtain ⟨begun, number_eq, numberAt_eq⟩ := alike.beginNumber
  obtain ⟨appended, appended_eq⟩ := begun.appendDigit number_eq digit
  unfold State.readDigit
  dsimp only
  rw [number_eq, numberAt_eq, appended_eq]
  split
  · exact .error _
  · split
    · exact .ok appended
    · exact .error _

theorem readSymbol
    (alike : state.Alike other)
    (width : Width)
    (symbol : Char) :
    AlikeResult (state.readSymbol width symbol) (other.readSymbol width symbol) := by
  unfold State.readSymbol
  rw [alike.here_eq]
  cases Kind.ofSymbol? symbol with
  | none => exact .error _
  | some kind => exact (alike.flush width).andThen fun _ _ flushed => flushed.emit _

theorem readNormal
    (alike : state.Alike other)
    (width : Width)
    (c : Char) :
    AlikeResult (state.readNormal width c) (other.readNormal width c) := by
  unfold State.readNormal
  split
  · exact alike.flush width
  split
  · exact .ok (alike.openHere .string)
  split
  · exact .ok (alike.openHere .comment)
  split
  · exact alike.readDigit width _
  · exact alike.readSymbol width c

theorem readChar
    (alike : state.Alike other)
    (width : Width)
    (c : Char) :
    AlikeResult (state.readChar width c) (other.readChar width c) := by
  unfold State.readChar
  rw [alike.mode_eq]
  cases mode : state.mode with
  | normal => exact alike.readNormal width c
  | string =>
    have inside : state.mode ≠ .normal := by simp [mode]
    dsimp only
    unfold State.readString
    split
    · exact .ok (alike.turn inside .escape)
    split
    · exact .ok (alike.turn inside .normal)
    · exact alike.emitChar width c
  | escape => exact (alike.turn (by simp [mode]) .string).emitChar width c
  | comment =>
    dsimp only
    split
    · exact .ok (alike.turn (by simp [mode]) .normal)
    · exact .ok alike

theorem read
    (alike : state.Alike other)
    (width : Width)
    (glyph : Glyph) :
    AlikeResult (state.read width glyph) (other.read width glyph) := by
  unfold State.read
  rw [alike.here_eq]
  cases glyph with
  | stray byte => exact .error _
  | char c => exact (alike.readChar width c).andThen fun _ _ passed => passed.moveTo _

/-- States that are alike read a text with the same result, and the states in which
they end or break off are alike again. -/
theorem scan
    (alike : state.Alike other)
    (width : Width)
    (source : List Glyph) :
    (state.scan width source).1.Alike (other.scan width source).1 ∧
      (other.scan width source).2 = (state.scan width source).2 := by
  induction source generalizing state other with
  | nil =>
    rcases (alike.flush width).ok_or_error with
      ⟨flushed, otherFlushed, flushedAlike, flushes, otherFlushes⟩ | ⟨error, fails, otherFails⟩
    · rw [State.scan, State.scan, flushes, otherFlushes]
      exact ⟨flushedAlike, rfl⟩
    · rw [State.scan, State.scan, fails, otherFails]
      exact ⟨alike, rfl⟩
  | cons glyph rest inductionHypothesis =>
    rcases (alike.read width glyph).ok_or_error with
      ⟨after, otherAfter, afterAlike, passes, otherPasses⟩ | ⟨error, fails, otherFails⟩
    · rw [State.scan, State.scan, passes, otherPasses]
      exact inductionHypothesis afterAlike
    · rw [State.scan, State.scan, fails, otherFails]
      exact ⟨alike.breakOff glyph, rfl⟩

end Alike
end State

/-- Whatever a lexer has read before, it reads its text like a new one, and then has
the same string or comment open. -/
theorem tokenize_eq_fresh (lexer : Lexer) :
    lexer.tokenize.2 = ((new lexer.source).withWidth lexer.width).tokenize.2 ∧
      lexer.tokenize.1.unterminated? =
        ((new lexer.source).withWidth lexer.width).tokenize.1.unterminated? := by
  obtain ⟨alike, error_eq⟩ :=
    (State.Alike.restart lexer.state).scan lexer.width lexer.source
  unfold tokenize unterminated? withWidth new
  dsimp only
  generalize State.initial.restart.scan lexer.width lexer.source = fresh at alike error_eq ⊢
  generalize lexer.state.restart.scan lexer.width lexer.source = used at alike error_eq ⊢
  obtain ⟨fresh, freshError⟩ := fresh
  obtain ⟨used, usedError⟩ := used
  obtain rfl : usedError = freshError := error_eq
  cases usedError with
  | none => exact ⟨congrArg Except.ok alike.program_eq, alike.unterminated?_eq⟩
  | some error => exact ⟨rfl, alike.unterminated?_eq⟩

/-! ## Calls of a lexer -/

/-- What may be asked of a lexer. -/
inductive Call where
  /-- Choose the width for later readings. -/
  | setWidth (width : Width)
  /-- Read the whole text. -/
  | tokenize
  /-- Tell what the latest reading has left open. -/
  | unterminated
  deriving DecidableEq, Repr

/-- What a lexer answers. -/
inductive Answer where
  /-- There is nothing to tell. -/
  | done
  /-- The result of a reading. -/
  | reading (result : Except Error Program)
  /-- What the latest reading has left open. -/
  | leftOpen (opened : Option (Mode × Position))

/-- Answer a call. -/
def answer (lexer : Lexer) : Call -> Lexer × Answer
  | .setWidth width => (lexer.withWidth width, .done)
  | .tokenize => (lexer.tokenize.1, .reading lexer.tokenize.2)
  | .unterminated => (lexer, .leftOpen lexer.unterminated?)

/-- Answer calls one after the other. -/
def answers (lexer : Lexer) : List Call -> List Answer
  | [] => []
  | call :: calls => (lexer.answer call).2 :: (lexer.answer call).1.answers calls

/-- The answers to calls if every reading is made by a new lexer with the width that
was set last, and what is left open is asked of the lexer that has read latest. -/
def freshAnswers (source : List Glyph) (width : Width) (latest : Lexer) :
    List Call -> List Answer
  | [] => []
  | .setWidth width :: calls => .done :: freshAnswers source width latest calls
  | .tokenize :: calls =>
    let fresh := ((new source).withWidth width).tokenize
    .reading fresh.2 :: freshAnswers source width fresh.1 calls
  | .unterminated :: calls =>
    .leftOpen latest.unterminated? :: freshAnswers source width latest calls

theorem source_tokenize (lexer : Lexer) : lexer.tokenize.1.source = lexer.source := by
  unfold tokenize
  split <;> rfl

theorem width_tokenize (lexer : Lexer) : lexer.tokenize.1.width = lexer.width := by
  unfold tokenize
  split <;> rfl

/-- A lexer that has the same left open as the one that has read latest gives the
answers of new lexers. -/
theorem answers_eq_freshAnswers
    {lexer latest : Lexer}
    (same : lexer.unterminated? = latest.unterminated?)
    (calls : List Call) :
    lexer.answers calls = freshAnswers lexer.source lexer.width latest calls := by
  induction calls generalizing lexer latest with
  | nil => rfl
  | cons call calls inductionHypothesis =>
    cases call with
    | setWidth width =>
      have later := inductionHypothesis (show (lexer.withWidth width).unterminated? = _ from same)
      exact congrArg (List.cons Answer.done) later
    | tokenize =>
      obtain ⟨result_eq, left_eq⟩ := tokenize_eq_fresh lexer
      have later := inductionHypothesis left_eq
      rw [source_tokenize, width_tokenize] at later
      rw [answers, freshAnswers, answer, result_eq, later]
    | unterminated =>
      rw [answers, freshAnswers, answer, same, inductionHypothesis same]

end Lexer

/-! ## Runs of an engine -/

namespace Engine

/-- A run that is asked of an engine. -/
structure Task where
  /-- How many instructions may be executed. -/
  limit : Nat
  /-- The name of the run. -/
  id : String
  /-- The program. -/
  program : Program

/-- What can be seen of a run, apart from its name. -/
structure Observation where
  /-- How it ended. -/
  ending : Ending
  /-- What was printed. -/
  output : Option String
  /-- The snapshot taken afterwards, without the name of the run. -/
  snapshot : Option Snapshot

/-- Make a run and look at it. -/
def observe (engine : Engine) (task : Task) : Engine × Observation :=
  let (after, ending) := engine.runNext task.limit task.id task.program
  (after,
    { ending := ending
      output := after.latest.map fun latest => latest.state.output
      snapshot := after.snapshot?.map fun snapshot => { snapshot with runId := "" } })

/-- Make runs one after the other. -/
def observations (engine : Engine) : List Task -> List Observation
  | [] => []
  | task :: tasks => (engine.observe task).2 :: (engine.observe task).1.observations tasks

/-- What can be seen of runs if every run is made by a new engine and under a name of
its own choice.  The next engine finds the sink as the one before has left it. -/
def freshObservations (width : Width) (name : Task -> String) :
    (out : Sink) -> List Task -> List Observation
  | _, [] => []
  | out, task :: tasks =>
    let seen := (newTo out width).observe { task with id := name task }
    seen.2 :: freshObservations width name seen.1.out tasks

section Reset

variable (engine : Engine) (machine : Machine) (id : String) (program : Program)

/-- Nothing but the settings and the sink of an engine outlasts its being set back. -/
theorem reset_eq_newTo :
    engine.reset machine id program =
      (newTo engine.out engine.width).reset machine id program := by
  simp only [reset, newTo, List.take_zero]

/-- A run depends on the settings and on the sink only. -/
theorem runNext_eq_newTo (limit : Nat) :
    engine.runNext limit id program =
      (newTo engine.out engine.width).runNext limit id program := by
  simp only [runNext]
  rw [reset_eq_newTo]
  rfl

/-- A run that has another name differs in nothing else. -/
theorem runNext_rename (limit : Nat) (name : String) :
    engine.runNext limit name program =
      ({ (engine.runNext limit id program).1 with runId := name },
        (engine.runNext limit id program).2) := rfl

end Reset

theorem observe_rename
    (engine : Engine)
    (task : Task)
    (name : String) :
    (engine.observe { task with id := name }).2 = (engine.observe task).2 ∧
      (engine.observe { task with id := name }).1.out = (engine.observe task).1.out := by
  unfold observe
  dsimp only
  rw [runNext_rename engine task.id task.program task.limit name]
  exact ⟨rfl, rfl⟩

theorem observe_eq_newTo
    (engine : Engine)
    (task : Task) :
    engine.observe task = (newTo engine.out engine.width).observe task := by
  unfold observe
  rw [runNext_eq_newTo]

theorem width_observe
    (engine : Engine)
    (task : Task) :
    (engine.observe task).1.width = engine.width := rfl

/-- What can be seen of runs depends neither on earlier runs nor on their names. -/
theorem observations_eq_freshObservations
    (engine : Engine)
    (tasks : List Task)
    (name : Task -> String) :
    engine.observations tasks = freshObservations engine.width name engine.out tasks := by
  induction tasks generalizing engine with
  | nil => rfl
  | cons task tasks inductionHypothesis =>
    -- The engine is not a new one after the run, but it has the sink that a new one leaves,
    -- and the rest is set back before the next run.
    have fresh := observe_eq_newTo engine task
    obtain ⟨seen_eq, out_eq⟩ := observe_rename (newTo engine.out engine.width) task (name task)
    rw [observations, freshObservations, inductionHypothesis, width_observe, seen_eq, out_eq,
      ← fresh]

/-- A sink without a limit is the same whatever it has taken. -/
theorem freshObservations_unlimited
    (width : Width)
    (name : Task -> String)
    (tasks : List Task) :
    freshObservations width name .unlimited tasks =
      tasks.map fun task => ((new width).observe { task with id := name task }).2 := by
  induction tasks with
  | nil => rfl
  | cons task tasks inductionHypothesis =>
    have unchanged :
        ((newTo .unlimited width).observe { task with id := name task }).1.out = .unlimited := rfl
    rw [freshObservations, List.map_cons, unchanged, inductionHypothesis]
    rfl

end Engine

/-- A lexer that is used again and again answers as if every reading were made by a
new lexer of the same text with the width that was set last.  And what an engine
prints, how it ends and its snapshot are, run for run, what a new engine of the same
width gives that finds the sink in the same condition, or any new engine of the same
width if the sink has no limit; only the names of the runs may differ. -/
theorem reuse_leaves_no_trace
    (source : List Glyph)
    (calls : List Lexer.Call)
    (width : Width)
    (out : Engine.Sink)
    (tasks : List Engine.Task)
    (name : Engine.Task -> String) :
    (Lexer.new source).answers calls =
        Lexer.freshAnswers source .standard (Lexer.new source) calls ∧
      (Engine.newTo out width).observations tasks =
        Engine.freshObservations width name out tasks ∧
      (Engine.new width).observations tasks =
        tasks.map fun task =>
          ((Engine.new width).observe { task with id := name task }).2 := by
  refine ⟨Lexer.answers_eq_freshAnswers rfl calls, ?_, ?_⟩
  · exact Engine.observations_eq_freshObservations (.newTo out width) tasks name
  · rw [Engine.observations_eq_freshObservations (.new width) tasks name]
    exact Engine.freshObservations_unlimited width name tasks

end GlyphStack
