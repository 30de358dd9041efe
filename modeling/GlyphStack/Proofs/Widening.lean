import GlyphStack.Proofs.Language
import GlyphStack.Snapshot

/-!
# Wider widths

A wider width admits more values and has no other part in a program.  A text that
is a program at some width is the same program at every wider one, and a character
that has no place in the text is an offense at all widths.  The two runs of a
program at two widths go through the same states, apart from the width that these
record, until the run at the narrower width overflows.
-/

namespace GlyphStack

namespace Width

variable {narrow wide : Width}

theorem admits_of_le
    (le : narrow.bytes ≤ wide.bytes)
    {value : Int64}
    (admitted : narrow.admits value) :
    wide.admits value := by
  rw [admits_iff] at admitted ⊢
  intro bounded
  have within := admitted (by omega)
  have power : 2 ^ (8 * narrow.bytes) ≤ 2 ^ (8 * wide.bytes) :=
    Nat.pow_le_pow_right (by decide) (by omega)
  omega

theorem check_of_le_bytes
    (le : narrow.bytes ≤ wide.bytes)
    {value : Int64}
    (checked : narrow.check value = .ok ()) :
    wide.check value = .ok () := by
  rw [check_eq_ok_iff] at checked ⊢
  exact admits_of_le le checked

theorem largest_mono
    (le : narrow.bytes ≤ wide.bytes) :
    narrow.largest ≤ wide.largest := by
  by_cases bounded : wide.bytes < 8
  · rw [largest_of_lt bounded, largest_of_lt (by omega)]
    have power : 2 ^ (8 * narrow.bytes) ≤ 2 ^ (8 * wide.bytes) :=
      Nat.pow_le_pow_right (by decide) (by omega)
    exact_mod_cast power
  · rw [largest_of_le (Nat.not_lt.mp bounded)]
    have below := narrow.largest_lt
    omega

end Width

namespace Lexer.Reading

variable {narrow wide : Width}

theorem Clear.widen
    (le : narrow.bytes ≤ wide.bytes)
    {text : List Char}
    (clear : Reading.empty.Clear narrow text) :
    Reading.empty.Clear wide text := by
  obtain ⟨grammatical, within⟩ := clear_iff.mp clear
  refine clear_iff.mpr ⟨grammatical, fun entry listed => ?_⟩
  exact Int.le_trans (within entry listed) (Width.largest_mono le)

/-- Only the offenses of literals depend on the width. -/
theorem offense?_of_not_literal
    (other : Width)
    {width : Width}
    {reading : Reading}
    {glyph : Glyph}
    {error : Error}
    (offense : reading.offense? width glyph = some error)
    (notLiteral : ∀ overflow position, error ≠ .literal overflow position) :
    reading.offense? other glyph = some error := by
  cases glyph with
  | stray byte => exact offense
  | char c =>
    simp only [offense?] at offense ⊢
    cases role_eq : reading.cut.role c with
    | unknown => simpa only [role_eq] using offense
    | digit digit =>
      simp only [role_eq] at offense
      split at offense
      · cases offense
      · cases offense
        exact absurd rfl (notLiteral _ _)
    | letter letter =>
      simp only [role_eq] at offense
      split at offense
      · cases offense
      · cases offense
        exact absurd rfl (notLiteral _ _)
    | space | operator kind | silent => simp [role_eq] at offense

end Lexer.Reading

namespace Program

open Lexer

variable {narrow wide : Width} {source : List Glyph}

theorem ofSource_widen
    (le : narrow.bytes ≤ wide.bytes)
    {program : Program}
    (accepted : ofSource narrow source = .ok program) :
    ofSource wide source = .ok program := by
  obtain ⟨text, source_eq, clear, entries_eq⟩ := ofSource_eq_ok_iff.mp accepted
  exact ofSource_eq_ok_iff.mpr ⟨text, source_eq, clear.widen le, entries_eq⟩

/-- At a narrower width a text is refused for the same character, unless a literal
in front of that character is too large. -/
theorem ofSource_narrow
    (le : narrow.bytes ≤ wide.bytes)
    {error : Lexer.Error}
    (refused : ofSource wide source = .error error) :
    ofSource narrow source = .error error ∨
      ∃ overflow position, ofSource narrow source = .error (.literal overflow position) := by
  cases narrowly : ofSource narrow source with
  | ok program =>
    rw [ofSource_widen le narrowly] at refused
    cases refused
  | error other =>
    cases other with
    | literal overflow position => exact .inr ⟨overflow, position, rfl⟩
    | unknownSymbol symbol position | strayByte byte position =>
      obtain ⟨text, glyph, later, source_eq, clear, offense⟩ :=
        ofSource_eq_error_iff.mp narrowly
      have offense' := Reading.offense?_of_not_literal wide offense (by simp)
      have refused' := ofSource_eq_error_iff.mpr
        ⟨text, glyph, later, source_eq, clear.widen le, offense'⟩
      rw [refused] at refused'
      exact .inl refused'.symm

end Program

/-- Replace the width of a machine. -/
def Machine.withWidth (machine : Machine) (width : Width) : Machine :=
  { machine with width := width }

/-- The result of an action at a wider width: the same, with the wider width in
the machine left behind, unless the action overflows at the narrower one. -/
def Action.Widened
    {α : Type}
    (wide : Width)
    (narrowly widely : EStateM.Result Fault Machine α) : Prop :=
  (∃ excess left, narrowly = .error (.overflow excess) left) ∨
    widely = Action.leaving (fun left => left.withWidth wide) narrowly

section Actions

variable {wide : Width} (machine : Machine)

theorem Effect.pushResult_widened
    (le : machine.width.bytes ≤ wide.bytes)
    (result : Except Fault Int64) :
    Action.Widened wide (pushResult machine result)
      (pushResult (machine.withWidth wide) result) := by
  cases result with
  | error fault => exact .inr rfl
  | ok value =>
    cases checked : machine.width.check value with
    | error excess => exact .inl ⟨excess, machine, by simp [pushResult, checked]⟩
    | ok accepted =>
      have checked' := Width.check_of_le_bytes le checked
      refine .inr ?_
      simp [pushResult, checked, checked', Machine.withWidth, Action.leaving]

theorem Effect.apply_widened
    (le : machine.width.bytes ≤ wide.bytes)
    (instruction : Instruction) :
    Action.Widened wide (apply instruction machine)
      (apply instruction (machine.withWidth wide)) := by
  cases family instruction.kind with
  | push isPush =>
    rw [apply_push _ isPush, apply_push _ isPush]
    exact pushResult_widened machine le (.ok instruction.value)
  | pop isPop =>
    rw [apply_pop _ isPop, apply_pop _ isPop]
    refine .inr ?_
    cases popped : machine.stack.pop? <;>
      simp [Machine.withWidth, popped, Action.leaving]
  | peek isPeek =>
    rw [apply_peek _ isPeek, apply_peek _ isPeek]
    refine .inr ?_
    cases peeked : machine.stack.peek? <;>
      simp [Machine.withWidth, peeked, Action.leaving]
  | clear isClear =>
    rw [apply_clear _ isClear, apply_clear _ isClear]
    exact .inr rfl
  | nonOp isNonOp =>
    rw [apply_nonOp _ isNonOp, apply_nonOp _ isNonOp]
    exact .inr rfl
  | chr isChr =>
    rw [apply_chr _ isChr, apply_chr _ isChr]
    refine .inr ?_
    cases peeked : machine.stack.peek? with
    | none => simp [Machine.withWidth, peeked, Action.leaving]
    | some value =>
      cases read : character? value <;>
        simp [Machine.withWidth, peeked, read, Action.leaving]
  | copy isCopy =>
    rw [apply_copy _ isCopy, apply_copy _ isCopy]
    refine .inr ?_
    cases peeked : machine.stack.peek? <;>
      simp [Machine.withWidth, peeked, Action.leaving]
  | toText isToText =>
    rw [apply_toText _ isToText, apply_toText _ isToText]
    refine .inr ?_
    cases read : characters machine.stack.toList <;>
      simp [Machine.withWidth, read, Action.leaving]
  | unary operation isUnary =>
    rw [apply_unary _ isUnary, apply_unary _ isUnary]
    cases popped : machine.stack.pop? with
    | none =>
      refine .inr ?_
      simp [Machine.withWidth, popped, Action.leaving]
    | some result =>
      simp only [Machine.withWidth, popped]
      exact pushResult_widened { machine with stack := result.2 } le _
  | binary operation isBinary =>
    rw [apply_binary _ isBinary, apply_binary _ isBinary]
    rcases values : machine.stack.topDown with _ | ⟨b, _ | ⟨a, below⟩⟩
    · refine .inr ?_
      simp [Machine.withWidth, values, Action.leaving]
    · refine .inr ?_
      simp [Machine.withWidth, values, Action.leaving]
    · simp only [Machine.withWidth, values]
      exact pushResult_widened { machine with stack := { topDown := below } } le _
  | other isOther =>
    rw [apply_other _ isOther, apply_other _ isOther]
    exact .inr rfl

theorem Engine.plainAction_widened
    (le : machine.width.bytes ≤ wide.bytes)
    (instruction : Instruction) :
    Action.Widened wide (plainAction instruction machine)
      (plainAction instruction (machine.withWidth wide)) := by
  by_cases isSave : instruction.kind = .save
  · rw [plainAction_save isSave, plainAction_save isSave]
    refine .inr ?_
    cases peeked : machine.stack.peek? <;>
      simp [Machine.withWidth, peeked, Action.leaving]
  by_cases isLoad : instruction.kind = .load
  · rw [plainAction_load isLoad, plainAction_load isLoad]
    refine .inr ?_
    cases held : machine.register <;>
      simp [Machine.withWidth, held, Action.leaving]
  rw [plainAction_effect isSave isLoad]
  exact Effect.apply_widened machine le instruction

end Actions

/-- A failure because of the bound of the width. -/
def Failure.Overflows (failure : Failure) : Prop :=
  ∃ excess, failure.fault = .overflow excess

namespace Engine

/-- Replace the width of a memory. -/
def Memory.withWidth (memory : Memory) (width : Width) : Memory :=
  { memory with width := width }

/-- Replace the width of a state. -/
def State.withWidth (state : State) (width : Width) : State :=
  { state with machine := state.machine.withWidth width }

/-- Replace the width of the state in which a run was stopped. -/
def Ending.withWidth (width : Width) : Ending -> Ending
  | .finished => .finished
  | .failed failure => .failed failure
  | .stopped next => .stopped { next with state := next.state.withWidth width }

section Steps

variable {sink : Sink} {program : Program} {wide : Width}

theorem Memory.perform_widened
    (sink : Sink)
    (memory : Memory)
    (le : memory.width.bytes ≤ wide.bytes)
    (instruction : Instruction) :
    (∃ left excess, memory.perform sink instruction = (left, some (.overflow excess))) ∨
      (memory.withWidth wide).perform sink instruction =
        ((memory.perform sink instruction).1.withWidth wide,
          (memory.perform sink instruction).2) := by
  have acted := plainAction_widened (memory.machine .empty) le instruction
  change Action.Widened wide _ (plainAction instruction ((memory.withWidth wide).machine .empty))
    at acted
  rcases acted with ⟨excess, left, overflowed⟩ | agreed
  · exact .inl ⟨.ofMachine left memory.output memory.offered, excess, by rw [perform, overflowed]⟩
  · refine .inr ?_
    rw [perform, perform, agreed]
    cases plainAction instruction (memory.machine .empty) with
    | error fault machine => rfl
    | ok yielded machine =>
      cases yielded with
      | none => rfl
      | some piece =>
        simp only [Action.leaving]
        cases accepted : sink.accepts memory.offered piece <;>
          simp [Memory.withWidth, accepted, ofMachine, Machine.withWidth]

theorem State.closeBlock_withWidth (state : State) :
    (state.withWidth wide).closeBlock = state.closeBlock.withWidth wide := by
  obtain ⟨machine, frames, index, steps, output, offered⟩ := state
  cases frames with
  | nil => rfl
  | cons frame outer =>
    simp only [closeBlock, withWidth]
    split <;> rfl

theorem State.skip_withWidth
    (state : State)
    (instruction : Instruction) :
    (state.withWidth wide).skip instruction = (state.skip instruction).withWidth wide := by
  unfold skip
  dsimp only
  split
  · rfl
  · rfl
  · exact state.advance.closeBlock_withWidth
  · rfl

/-- At a wider width an instruction does the same, unless it overflows. -/
theorem Performs.widen
    {state after : State}
    {instruction : Instruction}
    {failure : Option Failure}
    (performs : Performs sink program state instruction after failure)
    (le : state.machine.width.bytes ≤ wide.bytes) :
    (∃ cause, failure = some cause ∧ cause.Overflows) ∨
      Performs sink program (state.withWidth wide) instruction (after.withWidth wide)
        failure := by
  cases performs with
  | @plain memory fault isPlain performed =>
    have same := Memory.perform_widened sink state.memory le instruction
    rw [performed] at same
    rcases same with ⟨left, excess, overflowed⟩ | agreed
    · cases overflowed
      exact .inl ⟨_, rfl, excess, rfl⟩
    · refine .inr ?_
      change Performs sink program (state.withWidth wide) instruction
        ((state.withWidth wide).advance.withMemory (memory.withWidth wide))
        (fault.map ((state.withWidth wide).failure instruction))
      exact .plain isPlain agreed
  | ifOpen isIf peeked => exact .inr (.ifOpen isIf peeked)
  | ifUnderflow isIf empty => exact .inr (.ifUnderflow isIf empty)
  | elseOpen isElse popped => exact .inr (.elseOpen isElse popped)
  | elseMissing isElse empty => exact .inr (.elseMissing isElse empty)
  | close isEndif nested =>
    rw [← State.closeBlock_withWidth]
    exact .inr (.close isEndif nested)
  | stop isEndif outside => exact .inr (.stop isEndif outside)
  | mark isMark => exact .inr (.mark isMark)
  | jump isJump popped => exact .inr (.jump isJump popped)
  | jumpMissing isJump empty => exact .inr (.jumpMissing isJump empty)
  | jumpIfTaken isJumpIf popped peeked truthy =>
    exact .inr (.jumpIfTaken isJumpIf popped peeked truthy)
  | jumpIfPassed isJumpIf popped peeked falsy =>
    exact .inr (.jumpIfPassed isJumpIf popped peeked falsy)
  | jumpIfMissing isJumpIf empty => exact .inr (.jumpIfMissing isJumpIf empty)
  | jumpIfUnderflow isJumpIf popped empty =>
    exact .inr (.jumpIfUnderflow isJumpIf popped empty)

theorem Transition.widen
    {state after : State}
    {failure : Option Failure}
    (transition : Transition sink program state after failure)
    (le : state.machine.width.bytes ≤ wide.bytes) :
    (∃ cause, failure = some cause ∧ cause.Overflows) ∨
      Transition sink program (state.withWidth wide) (after.withWidth wide) failure := by
  cases transition with
  | skip found closed =>
    rw [← State.skip_withWidth]
    exact .inr (.skip found closed)
  | perform found opened performs =>
    rcases performs.widen le with overflowed | performs
    · exact .inl overflowed
    · exact .inr (.perform found opened performs)

end Steps

section Runs

variable {sink : Sink} {program : Program} {narrow wide : Width}

/-- Whatever is reached at some width is reached at a wider one, but for an
overflow. -/
theorem Reaches.widen
    {state : State}
    {failure : Option Failure}
    (reached : Reaches sink program (.initial narrow) state failure)
    (le : narrow.bytes ≤ wide.bytes)
    (fits : ∀ cause, failure = some cause -> ¬ cause.Overflows) :
    Reaches sink program (.initial wide) (state.withWidth wide) failure := by
  induction reached with
  | refl => exact .refl
  | step reached stepped inductionHypothesis =>
    have reached' := inductionHypothesis (by simp)
    have width_eq := reached.bounded.width_eq
    rcases (step?_eq_some_iff.mp stepped).widen (width_eq ▸ le) with
      ⟨cause, failed, overflows⟩ | transition
    · exact absurd overflows (fits cause failed)
    · exact .step reached' (step?_eq_some_iff.mpr transition)

theorem State.withWidth_self
    {state : State}
    (width_eq : state.machine.width = wide) :
    state.withWidth wide = state := by
  obtain ⟨⟨stack, returns, outcomes, register, width⟩, frames, index, steps, output, offered⟩ :=
    state
  cases width_eq
  rfl

/-- There is a next step as long as there is a next instruction. -/
theorem State.exists_step?
    (sink : Sink)
    {state : State}
    {instruction : Instruction}
    (found : program[state.index]? = some instruction) :
    ∃ after failure, state.step? sink program = some (after, failure) := by
  have next : state.step? sink program ≠ none := by
    rw [ne_eq, step?_eq_none_iff, found]
    simp
  obtain ⟨⟨after, failure⟩, stepped⟩ := Option.ne_none_iff_exists'.mp next
  exact ⟨after, failure, stepped⟩

/-- Whatever is reached at some width is reached at a narrower one, unless the run
at the narrower width has overflowed by then. -/
theorem Reaches.narrowed
    {state : State}
    {failure : Option Failure}
    (reached : Reaches sink program (.initial wide) state failure)
    (le : narrow.bytes ≤ wide.bytes) :
    Reaches sink program (.initial narrow) (state.withWidth narrow) failure ∨
      ∃ stopped cause, Reaches sink program (.initial narrow) stopped (some cause) ∧
        cause.Overflows ∧ stopped.steps ≤ state.steps := by
  induction reached with
  | refl => exact .inl .refl
  | @step state after failure reached stepped inductionHypothesis =>
    have counted := (step?_eq_some_iff.mp stepped).steps_eq
    rcases inductionHypothesis with reached' | ⟨stopped, cause, reached', overflows, earlier⟩
    · -- The step at the narrower width, widened again, is the given one.
      have found : ∃ instruction, program[(state.withWidth narrow).index]? = some instruction := by
        cases step?_eq_some_iff.mp stepped with
        | skip found closed => exact ⟨_, found⟩
        | perform found opened performs => exact ⟨_, found⟩
      obtain ⟨instruction, found⟩ := found
      obtain ⟨after', failure', stepped'⟩ := State.exists_step? sink found
      have reached'' := reached'.step stepped'
      rcases (step?_eq_some_iff.mp stepped').widen le with ⟨cause, failed, overflows⟩ | transition
      · subst failed
        have counted' := (step?_eq_some_iff.mp stepped').steps_eq
        refine .inr ⟨after', cause, reached'', overflows, ?_⟩
        rw [counted, counted']
        exact Nat.le_refl _
      · have widened : (state.withWidth narrow).withWidth wide = state :=
          State.withWidth_self reached.bounded.width_eq
        rw [widened, ← step?_eq_some_iff, stepped] at transition
        cases transition
        have unchanged : (after'.withWidth wide).withWidth narrow = after' :=
          State.withWidth_self reached''.bounded.width_eq
        rw [unchanged]
        exact .inl reached''
    · exact .inr ⟨stopped, cause, reached', overflows, by omega⟩

/-- With the same limit a run at a wider width comes to the same end, unless the
run at the narrower width overflows. -/
theorem State.run_widen
    {limit : Nat}
    {state : State}
    (bounded : state.machine.Bounded narrow)
    (le : narrow.bytes ≤ wide.bytes) :
    (∃ final cause, state.run sink program limit = (final, .failed cause) ∧
        cause.Overflows) ∨
      (state.withWidth wide).run sink program limit =
        ((state.run sink program limit).1.withWidth wide,
          (state.run sink program limit).2.withWidth wide) := by
  induction limit, state using run_induction sink program with
  | finished limit state past =>
    have past' : program[(state.withWidth wide).index]? = none := past
    rw [run_past past, run_past past']
    exact .inr rfl
  | stopped state instruction found opened =>
    have found' : program[(state.withWidth wide).index]? = some instruction := found
    rw [run_stopped found opened, run_stopped found' opened]
    exact .inr rfl
  | passed limit state instruction after found opened performed inductionHypothesis =>
    have found' : program[(state.withWidth wide).index]? = some instruction := found
    have performs := performs_perform sink program state instruction
    rw [performed] at performs
    have bounded' := (Transition.perform found opened performs).bounded bounded
    rcases performs.widen (bounded.width_eq ▸ le) with ⟨cause, failed, -⟩ | widened
    · cases failed
    · rw [run_perform found opened, performed, run_perform found' opened, widened.perform_eq]
      exact inductionHypothesis bounded'
  | failed limit state instruction after cause found opened performed =>
    have found' : program[(state.withWidth wide).index]? = some instruction := found
    have performs := performs_perform sink program state instruction
    rw [performed] at performs
    rcases performs.widen (bounded.width_eq ▸ le) with ⟨other, failed, overflows⟩ | widened
    · cases failed
      exact .inl ⟨after, cause, by rw [run_perform found opened, performed], overflows⟩
    · refine .inr ?_
      rw [run_perform found opened, performed, run_perform found' opened, widened.perform_eq]
      rfl
  | skipped limit state instruction found closed inductionHypothesis =>
    have found' : program[(state.withWidth wide).index]? = some instruction := found
    have closed' : (state.withWidth wide).gate = false := closed
    rw [run_skip found closed, run_skip found' closed', State.skip_withWidth]
    exact inductionHypothesis (bounded_skip bounded instruction)

/-- Two snapshots of one run at two widths differ in the name and in the width. -/
theorem State.snapshot_withWidth
    (state : State)
    (id other : String)
    (failure : Option Failure) :
    (state.withWidth wide).snapshot other failure =
      { state.snapshot id failure with runId := other, width := Int64.ofNat wide.bytes } := rfl

end Runs

/-- Nothing but overflows depends on the width.  A text that is a program is the
same program at every greater width, and one that is refused at a greater width for
a character that does not belong is refused for that character or for a literal.
A run at a greater width goes through the states of the run at the smaller one until
this overflows, and ends with it otherwise. -/
theorem widening_only_removes_overflows
    (narrow wide : Int)
    (le : Width.effective narrow ≤ Width.effective wide) :
    (∀ source program, Program.ofSource (.ofInt narrow) source = .ok program ->
      Program.ofSource (.ofInt wide) source = .ok program) ∧
    (∀ source error, Program.ofSource (.ofInt wide) source = .error error ->
      Program.ofSource (.ofInt narrow) source = .error error ∨
        ∃ overflow position,
          Program.ofSource (.ofInt narrow) source = .error (.literal overflow position)) ∧
    (∀ sink program state failure,
      Reaches sink program (.initial (.ofInt narrow)) state failure ->
      (∀ cause, failure = some cause -> ¬ cause.Overflows) ->
      Reaches sink program (.initial (.ofInt wide)) (state.withWidth (.ofInt wide)) failure) ∧
    (∀ sink program state failure,
      Reaches sink program (.initial (.ofInt wide)) state failure ->
      Reaches sink program (.initial (.ofInt narrow)) (state.withWidth (.ofInt narrow)) failure ∨
        ∃ stopped cause,
          Reaches sink program (.initial (.ofInt narrow)) stopped (some cause) ∧
          cause.Overflows ∧ stopped.steps ≤ state.steps) ∧
    ∀ sink program limit id other,
      ((Engine.new (.ofInt narrow)).run sink limit id program).2 = .finished ->
      ∃ final final' snapshot,
        (Engine.new (.ofInt narrow)).run sink limit id program = (final, .finished) ∧
        (Engine.new (.ofInt wide)).run sink limit other program = (final', .finished) ∧
        final'.latest.map (fun latest => latest.state.output) =
          final.latest.map (fun latest => latest.state.output) ∧
        final.snapshot? = some snapshot ∧
        final'.snapshot? = some
          { snapshot with
            runId := other, width := Int64.ofNat (Width.effective wide) } := by
  have bytes_le : (Width.ofInt narrow).bytes ≤ (Width.ofInt wide).bytes := by
    rw [Width.bytes_ofInt, Width.bytes_ofInt]
    exact le
  refine ⟨fun source program accepted => Program.ofSource_widen bytes_le accepted,
    fun source error refused => Program.ofSource_narrow bytes_le refused,
    fun sink program state failure reached fits => reached.widen bytes_le fits,
    fun sink program state failure reached => reached.narrowed bytes_le, ?_⟩
  intro sink program limit id other finished
  have ending_eq : ((State.initial (.ofInt narrow)).run sink program limit).2 = .finished :=
    finished
  rcases narrowly : (State.initial (.ofInt narrow)).run sink program limit with ⟨final, ending⟩
  rw [narrowly] at ending_eq
  cases ending_eq
  have bounded : (State.initial (.ofInt narrow)).machine.Bounded (.ofInt narrow) := .new _
  have widely : (State.initial (.ofInt wide)).run sink program limit =
      (final.withWidth (.ofInt wide), .finished) := by
    rcases State.run_widen bounded bytes_le with ⟨failed, cause, overflowed, -⟩ | agreed
    · rw [narrowly] at overflowed
      cases overflowed
    · rw [narrowly] at agreed
      exact agreed
  have kept := run_eq (.new (.ofInt narrow)) narrowly id
  have kept' := run_eq (.new (.ofInt wide)) widely other
  refine ⟨_, _, final.snapshot id none, kept, kept', rfl, rfl, ?_⟩
  rw [← Width.bytes_ofInt]
  exact congrArg some (final.snapshot_withWidth id other none)

/-- A value at the bound of one byte is printed at the standard width as well. -/
theorem widening_only_removes_overflows_at_bound :
    Width.effective 1 ≤ Width.effective 0 ∧
    ∃ limit final final',
      (Engine.new (.ofInt 1)).run .unlimited limit "one"
        [{ kind := .push, value := 256, position := .nowhere }, .plain .pop .nowhere] =
          (final, .finished) ∧
      (Engine.new (.ofInt 0)).run .unlimited limit "four"
        [{ kind := .push, value := 256, position := .nowhere }, .plain .pop .nowhere] =
          (final', .finished) ∧
      final'.latest.map (fun latest => latest.state.output) = some "256" := by
  have le : Width.effective 1 ≤ Width.effective 0 := by decide
  have ends : Ends .unlimited
      [{ kind := .push, value := 256, position := .nowhere }, .plain .pop .nowhere]
      (.initial (.ofInt 1)) _ none :=
    .step rfl (.step rfl (.finished rfl))
  obtain ⟨limit, ran⟩ := ends.exists_run
  have kept := run_eq (.new (.ofInt 1)) ran "one"
  obtain ⟨final, final', snapshot, narrowly, widely, output_eq, -⟩ :=
    (widening_only_removes_overflows 1 0 le).2.2.2.2 _ _ limit "one" "four" (congrArg Prod.snd kept)
  rw [kept] at narrowly
  cases narrowly
  exact ⟨le, limit, _, final', kept, widely, output_eq⟩

end Engine
end GlyphStack
