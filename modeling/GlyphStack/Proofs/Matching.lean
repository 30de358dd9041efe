import GlyphStack.Proofs.Blocks
import Mathlib.Combinatorics.Enumerative.DyckWord

/-!
# Brackets without a partner

Openers and endifs are brackets.  An endif closes the nearest opener in front of it that
no earlier endif closes.  This says which bracket belongs to which, without a stack.

The check of the blocks goes through the program with a stack of openers.  At every
place the stack holds exactly the openers that are not closed yet, the innermost first,
so what the check reports in the end are the brackets without a partner.  An endif is
stray only where no opener is left, which is why all stray endifs stand in front of all
openers that are never closed.
-/

namespace GlyphStack

/-- The bracket that a kind is: an if or an else goes up into a block, an endif goes down
out of one. -/
def Kind.bracket? : Kind -> Option DyckStep
  | .ifOpen | .elseOpen => some .U
  | .endif => some .D
  | _ => none

namespace Program

/-- The bracket at an index. -/
def bracketAt? (program : Program) (index : Nat) : Option DyckStep :=
  program[index]?.bind fun instruction => instruction.kind.bracket?

/-- The brackets of a program in their order. -/
def brackets (program : Program) : List DyckStep :=
  program.filterMap fun instruction => instruction.kind.bracket?

/-- Whether the endif at an index closes the opener at another: it is the nearest opener
in front of the endif that no earlier endif closes. -/
def Closes (program : Program) (endif opener : Nat) : Prop :=
  program.bracketAt? endif = some .D ∧
    IsGreatest
      {index | index < endif ∧ program.bracketAt? index = some .U ∧
        ∀ earlier < endif, ¬ program.Closes earlier index}
      opener
termination_by endif

/-- Whether there is an opener at an index that no endif in front of a place closes. -/
def StillOpen (program : Program) (place index : Nat) : Prop :=
  index < place ∧ program.bracketAt? index = some .U ∧
    ∀ endif < place, ¬ program.Closes endif index

/-- Whether the instruction at an index has no partner. -/
def Unmatched (program : Program) (index : Nat) : Prop :=
  ∀ other, ¬ program.Closes index other ∧ ¬ program.Closes other index

/-- A program without the instructions at some indices. -/
def without (program : Program) (indices : List Nat) : Program :=
  (program.zipIdx.filter fun entry => entry.2 ∉ indices).map Prod.fst

variable {program : Program} {place index endif opener : Nat} {instruction : Instruction}

theorem brackets_nil : brackets [] = [] := rfl

theorem brackets_cons (instruction : Instruction) (program : Program) :
    brackets (instruction :: program) =
      instruction.kind.bracket?.toList ++ program.brackets := by
  rw [brackets, List.filterMap_cons]
  cases instruction.kind.bracket? <;> rfl

theorem brackets_singleton (instruction : Instruction) :
    brackets [instruction] = instruction.kind.bracket?.toList := by
  rw [brackets_cons, brackets_nil, List.append_nil]

theorem brackets_append (front back : Program) :
    brackets (front ++ back) = front.brackets ++ back.brackets :=
  List.filterMap_append

/-! ## Partners -/

theorem bracketAt?_of_getElem?
    (found : program[index]? = some instruction) :
    program.bracketAt? index = instruction.kind.bracket? := by
  rw [bracketAt?, found]
  rfl

theorem closes_iff :
    program.Closes endif opener ↔
      program.bracketAt? endif = some .D ∧
        IsGreatest {index | program.StillOpen endif index} opener := by
  rw [Closes]
  rfl

theorem Closes.lt (closes : program.Closes endif opener) : opener < endif :=
  (closes_iff.mp closes).2.1.1

theorem Closes.bracketAt?_opener (closes : program.Closes endif opener) :
    program.bracketAt? opener = some .U :=
  (closes_iff.mp closes).2.1.2.1

theorem Closes.bracketAt?_endif (closes : program.Closes endif opener) :
    program.bracketAt? endif = some .D :=
  (closes_iff.mp closes).1

/-- An opener is still open behind an instruction if it was so in front of it and is not
closed by it, or if it is that instruction. -/
theorem stillOpen_succ_iff :
    program.StillOpen (place + 1) index ↔
      (program.StillOpen place index ∧ ¬ program.Closes place index) ∨
        (index = place ∧ program.bracketAt? place = some .U) := by
  constructor
  · rintro ⟨within, isOpener, unclosed⟩
    rcases Nat.lt_or_eq_of_le (Nat.le_of_lt_succ within) with earlier | rfl
    · refine .inl ⟨⟨earlier, isOpener, fun endif before => ?_⟩, unclosed place (by omega)⟩
      exact unclosed endif (by omega)
    · exact .inr ⟨rfl, isOpener⟩
  · rintro (⟨⟨within, isOpener, unclosed⟩, notHere⟩ | ⟨rfl, isOpener⟩)
    · refine ⟨by omega, isOpener, fun endif before => ?_⟩
      rcases Nat.lt_or_eq_of_le (Nat.le_of_lt_succ before) with earlier | rfl
      · exact unclosed endif earlier
      · exact notHere
    · refine ⟨by omega, isOpener, fun endif before closes => ?_⟩
      have behind := closes.lt
      omega

theorem stillOpen_succ_of_ne
    (notEndif : program.bracketAt? place ≠ some .D) :
    program.StillOpen (place + 1) index ↔
      program.StillOpen place index ∨
        (index = place ∧ program.bracketAt? place = some .U) := by
  have unclosing : ¬ program.Closes place index :=
    fun closes => notEndif closes.bracketAt?_endif
  rw [stillOpen_succ_iff, and_iff_left unclosing]

end Program

namespace Blocks

/-- The bracket that a problem is about. -/
def Problem.bracket : Problem -> DyckStep
  | .strayEndif => .D
  | .neverClosed => .U

namespace Scan

variable {scan : Scan} {program : Program} {place : Nat} {instruction : Instruction}

/-! ## What the check does with an instruction -/

theorem visit_of_bracket?_eq_none
    (index : Nat)
    (noBracket : instruction.kind.bracket? = none) :
    scan.visit index instruction = scan := by
  unfold visit
  cases kind : instruction.kind <;> simp_all [Kind.bracket?]

theorem visit_of_opener
    (index : Nat)
    (isOpener : instruction.kind.bracket? = some .U) :
    scan.visit index instruction =
      { scan with opened := (index, instruction) :: scan.opened } := by
  unfold visit
  cases kind : instruction.kind <;> simp_all [Kind.bracket?]

theorem bracket?_eq_down_iff :
    instruction.kind.bracket? = some .D ↔ instruction.kind = .endif := by
  cases kind : instruction.kind <;> simp [Kind.bracket?]

theorem visit_of_stray
    (index : Nat)
    (isEndif : instruction.kind.bracket? = some .D)
    (outside : scan.opened = []) :
    scan.visit index instruction =
      { scan with stray := (index, instruction) :: scan.stray } := by
  simp [visit, bracket?_eq_down_iff.mp isEndif, outside]

theorem visit_of_closing
    (index : Nat)
    (isEndif : instruction.kind.bracket? = some .D)
    {opener : Nat × Instruction}
    {outer : List (Nat × Instruction)}
    (inside : scan.opened = opener :: outer) :
    scan.visit index instruction = { scan with opened := outer } := by
  simp [visit, bracket?_eq_down_iff.mp isEndif, inside]

/-! ## What the check knows at a place -/

/-- The check has found the endifs without an opener and has the openers on its stack that
are still open. -/
structure Knows (program : Program) (place : Nat) (scan : Scan) : Prop where
  /-- The stack holds what is still open. -/
  opened_iff : ∀ index instruction, (index, instruction) ∈ scan.opened ↔
    program[index]? = some instruction ∧ program.StillOpen place index
  /-- An endif is stray if it closes nothing. -/
  stray_iff : ∀ index instruction, (index, instruction) ∈ scan.stray ↔
    program[index]? = some instruction ∧ index < place ∧
      program.bracketAt? index = some .D ∧ ∀ opener, ¬ program.Closes index opener
  /-- The stack has the innermost opener on top. -/
  opened_sorted : scan.opened.Pairwise fun inner outer => outer.1 < inner.1
  /-- The stray endifs are found in order. -/
  stray_sorted : scan.stray.Pairwise fun later earlier => earlier.1 < later.1
  /-- What is open was opened behind all stray endifs. -/
  stray_lt_opened : ∀ stray ∈ scan.stray, ∀ opener ∈ scan.opened, stray.1 < opener.1

theorem knows_initial (program : Program) : Knows program 0 initial where
  opened_iff index instruction := by simp [initial, Program.StillOpen]
  stray_iff index instruction := by simp [initial]
  opened_sorted := .nil
  stray_sorted := .nil
  stray_lt_opened := by simp [initial]

namespace Knows

theorem lt_of_opened
    (knows : Knows program place scan)
    {opener : Nat × Instruction}
    (found : opener ∈ scan.opened) :
    opener.1 < place :=
  ((knows.opened_iff opener.1 opener.2).mp found).2.1

theorem lt_of_stray
    (knows : Knows program place scan)
    {stray : Nat × Instruction}
    (found : stray ∈ scan.stray) :
    stray.1 < place :=
  ((knows.stray_iff stray.1 stray.2).mp found).2.1

/-- No endif behind the place was looked at, so the stray ones are the same if the
instruction at the place is none. -/
theorem stray_iff_succ
    (knows : Knows program place scan)
    (matched : program.bracketAt? place = some .D -> ∃ opener, program.Closes place opener)
    (index : Nat)
    (instruction : Instruction) :
    (index, instruction) ∈ scan.stray ↔
      program[index]? = some instruction ∧ index < place + 1 ∧
        program.bracketAt? index = some .D ∧ ∀ opener, ¬ program.Closes index opener := by
  rw [knows.stray_iff]
  constructor
  · rintro ⟨found, within, isEndif, stray⟩
    exact ⟨found, by omega, isEndif, stray⟩
  · rintro ⟨found, within, isEndif, stray⟩
    refine ⟨found, ?_, isEndif, stray⟩
    apply Nat.lt_of_le_of_ne (Nat.le_of_lt_succ within)
    rintro rfl
    obtain ⟨opener, closes⟩ := matched isEndif
    exact stray opener closes

theorem visit_other
    (knows : Knows program place scan)
    (noBracket : program.bracketAt? place = none) :
    Knows program (place + 1) scan where
  opened_iff index instruction := by
    rw [knows.opened_iff, Program.stillOpen_succ_of_ne (by simp [noBracket])]
    simp [noBracket]
  stray_iff := knows.stray_iff_succ (by simp [noBracket])
  opened_sorted := knows.opened_sorted
  stray_sorted := knows.stray_sorted
  stray_lt_opened := knows.stray_lt_opened

theorem visit_opener
    (knows : Knows program place scan)
    (found : program[place]? = some instruction)
    (isOpener : program.bracketAt? place = some .U) :
    Knows program (place + 1) { scan with opened := (place, instruction) :: scan.opened } where
  opened_iff index other := by
    rw [List.mem_cons, knows.opened_iff, Program.stillOpen_succ_of_ne (by simp [isOpener])]
    constructor
    · rintro (isNew | ⟨found', stillOpen⟩)
      · obtain ⟨rfl, rfl⟩ := Prod.mk.inj isNew
        exact ⟨found, .inr ⟨rfl, isOpener⟩⟩
      · exact ⟨found', .inl stillOpen⟩
    · rintro ⟨found', stillOpen | ⟨rfl, -⟩⟩
      · exact .inr ⟨found', stillOpen⟩
      · rw [found] at found'
        exact .inl (by rw [Option.some.inj found'])
  stray_iff := knows.stray_iff_succ (by simp [isOpener])
  opened_sorted := by
    apply List.pairwise_cons.mpr
    exact ⟨fun outer member => knows.lt_of_opened member, knows.opened_sorted⟩
  stray_sorted := knows.stray_sorted
  stray_lt_opened := by
    intro stray isStray opener isOpened
    rcases List.mem_cons.mp isOpened with rfl | older
    · exact knows.lt_of_stray isStray
    · exact knows.stray_lt_opened stray isStray opener older

/-- What is still open is on the stack. -/
theorem exists_opened
    (knows : Knows program place scan)
    {index : Nat}
    (stillOpen : program.StillOpen place index) :
    ∃ instruction, (index, instruction) ∈ scan.opened := by
  obtain ⟨instruction, found, -⟩ := Option.bind_eq_some_iff.mp stillOpen.2.1
  exact ⟨instruction, (knows.opened_iff index instruction).mpr ⟨found, stillOpen⟩⟩

theorem not_stillOpen
    (knows : Knows program place scan)
    (outside : scan.opened = [])
    (index : Nat) :
    ¬ program.StillOpen place index := by
  intro stillOpen
  obtain ⟨instruction, member⟩ := knows.exists_opened stillOpen
  simp [outside] at member

/-- With nothing open an endif closes nothing. -/
theorem not_closes
    (knows : Knows program place scan)
    (outside : scan.opened = [])
    (opener : Nat) :
    ¬ program.Closes place opener :=
  fun closes => knows.not_stillOpen outside opener (Program.closes_iff.mp closes).2.1

theorem visit_stray
    (knows : Knows program place scan)
    (found : program[place]? = some instruction)
    (isEndif : program.bracketAt? place = some .D)
    (outside : scan.opened = []) :
    Knows program (place + 1) { scan with stray := (place, instruction) :: scan.stray } := by
  refine ⟨fun index other => ?_, fun index other => ?_, knows.opened_sorted, ?_, ?_⟩
  · simp [outside, Program.stillOpen_succ_iff, knows.not_stillOpen outside, isEndif]
  · rw [List.mem_cons, knows.stray_iff]
    constructor
    · rintro (isNew | ⟨found', within, isStray⟩)
      · obtain ⟨rfl, rfl⟩ := Prod.mk.inj isNew
        exact ⟨found, Nat.lt_succ_self index, isEndif, knows.not_closes outside⟩
      · exact ⟨found', by omega, isStray⟩
    · rintro ⟨found', within, isStray⟩
      rcases Nat.lt_or_eq_of_le (Nat.le_of_lt_succ within) with earlier | rfl
      · exact .inr ⟨found', earlier, isStray⟩
      · rw [found] at found'
        exact .inl (by rw [Option.some.inj found'])
  · apply List.pairwise_cons.mpr
    exact ⟨fun earlier member => knows.lt_of_stray member, knows.stray_sorted⟩
  · simp [outside]

/-- The top of the stack is what an endif closes. -/
theorem closes_top
    (knows : Knows program place scan)
    (isEndif : program.bracketAt? place = some .D)
    {opener : Nat × Instruction}
    {outer : List (Nat × Instruction)}
    (inside : scan.opened = opener :: outer) :
    program.Closes place opener.1 := by
  have sorted := knows.opened_sorted
  rw [inside, List.pairwise_cons] at sorted
  refine Program.closes_iff.mpr ⟨isEndif, ?_, ?_⟩
  · exact ((knows.opened_iff opener.1 opener.2).mp (by simp [inside])).2
  · intro index stillOpen
    obtain ⟨instruction, member⟩ := knows.exists_opened stillOpen
    rw [inside, List.mem_cons] at member
    rcases member with isTop | below
    · exact Nat.le_of_eq (congrArg Prod.fst isTop)
    · exact Nat.le_of_lt (sorted.1 _ below)

theorem visit_closing
    (knows : Knows program place scan)
    (isEndif : program.bracketAt? place = some .D)
    {opener : Nat × Instruction}
    {outer : List (Nat × Instruction)}
    (inside : scan.opened = opener :: outer) :
    Knows program (place + 1) { scan with opened := outer } := by
  have closes := knows.closes_top isEndif inside
  have closes_iff : ∀ index, program.Closes place index ↔ index = opener.1 := by
    intro index
    constructor
    · intro closes'
      exact (Program.closes_iff.mp closes').2.unique (Program.closes_iff.mp closes).2
    · rintro rfl
      exact closes
  have sorted := knows.opened_sorted
  have stray_lt := knows.stray_lt_opened
  rw [inside] at sorted stray_lt
  obtain ⟨inner, sorted⟩ := List.pairwise_cons.mp sorted
  refine ⟨fun index other => ?_, knows.stray_iff_succ fun _ => ⟨_, closes⟩, sorted,
    knows.stray_sorted, ?_⟩
  · have opened_iff := knows.opened_iff index other
    rw [inside, List.mem_cons] at opened_iff
    rw [Program.stillOpen_succ_iff, closes_iff]
    constructor
    · intro below
      obtain ⟨found, stillOpen⟩ := opened_iff.mp (.inr below)
      exact ⟨found, .inl ⟨stillOpen, Nat.ne_of_lt (inner _ below)⟩⟩
    · rintro ⟨found, ⟨stillOpen, notTop⟩ | ⟨rfl, isOpener⟩⟩
      · apply (opened_iff.mpr ⟨found, stillOpen⟩).resolve_left
        exact fun isTop => notTop (congrArg Prod.fst isTop)
      · rw [isEndif] at isOpener
        cases isOpener
  · intro stray isStray other below
    exact stray_lt stray isStray other (.tail opener below)

/-- What the check knows carries over an instruction. -/
theorem visit
    (knows : Knows program place scan)
    (found : program[place]? = some instruction) :
    Knows program (place + 1) (scan.visit place instruction) := by
  have bracket_eq := Program.bracketAt?_of_getElem? found
  cases bracket : instruction.kind.bracket? with
  | none =>
    rw [visit_of_bracket?_eq_none place bracket]
    exact knows.visit_other (bracket_eq.trans bracket)
  | some step =>
    rw [bracket] at bracket_eq
    cases step with
    | U =>
      rw [visit_of_opener place bracket]
      exact knows.visit_opener found bracket_eq
    | D =>
      cases opened : scan.opened with
      | nil =>
        rw [visit_of_stray place bracket opened]
        exact knows.visit_stray found bracket_eq opened
      | cons opener outer =>
        rw [visit_of_closing place bracket opened]
        exact knows.visit_closing bracket_eq opened

end Knows

/-- At every place the check knows the brackets in front of it. -/
theorem knows_before
    (within : place ≤ program.length) :
    Knows program place (before program place) := by
  induction place with
  | zero => exact knows_initial program
  | succ place inductionHypothesis =>
    have found : program[place]? = some program[place] := List.getElem?_eq_getElem within
    rw [before_succ found]
    exact (inductionHypothesis (Nat.le_of_lt within)).visit found

theorem mem_issues_iff
    {issue : Issue} :
    issue ∈ scan.issues ↔
      (issue.index, issue.instruction) ∈ scan.stray ∧ issue.problem = .strayEndif ∨
        (issue.index, issue.instruction) ∈ scan.opened ∧ issue.problem = .neverClosed := by
  obtain ⟨index, instruction, problem⟩ := issue
  simp [issues, eq_comm]

/-- What is reported stands in the order of the program. -/
theorem Knows.pairwise_issues
    (knows : Knows program place scan) :
    (scan.issues.map Issue.index).Pairwise (· < ·) := by
  have stray_sorted := List.pairwise_reverse.mpr knows.stray_sorted
  have opened_sorted := List.pairwise_reverse.mpr knows.opened_sorted
  rw [issues, List.map_append, List.map_map, List.map_map, List.pairwise_append]
  refine ⟨List.pairwise_map.mpr stray_sorted, List.pairwise_map.mpr opened_sorted, ?_⟩
  intro first isStray second isOpened
  obtain ⟨stray, member, rfl⟩ := List.mem_map.mp isStray
  obtain ⟨opener, member', rfl⟩ := List.mem_map.mp isOpened
  exact knows.stray_lt_opened stray (List.mem_reverse.mp member) opener
    (List.mem_reverse.mp member')

/-! ## Counting brackets -/

/-- An opener goes on the stack, and an endif takes one from it or is stray. -/
theorem length_visit
    (scan : Scan)
    (index : Nat)
    (instruction : Instruction) :
    (scan.visit index instruction).opened.length +
        instruction.kind.bracket?.toList.count .D + scan.stray.length =
      (scan.visit index instruction).stray.length +
        instruction.kind.bracket?.toList.count .U + scan.opened.length := by
  cases bracket : instruction.kind.bracket? with
  | none =>
    rw [visit_of_bracket?_eq_none index bracket]
    simp [Nat.add_comm]
  | some step =>
    cases step with
    | U =>
      rw [visit_of_opener index bracket]
      have oneUp : ([DyckStep.U].count .D, [DyckStep.U].count .U) = (0, 1) := rfl
      simp only [Prod.mk.injEq] at oneUp
      simp only [Option.toList_some, List.length_cons, oneUp]
      omega
    | D =>
      cases opened : scan.opened with
      | nil =>
        rw [visit_of_stray index bracket opened]
        simp [opened, Nat.add_comm]
      | cons opener outer =>
        rw [visit_of_closing index bracket opened]
        simp [Nat.add_comm]

/-- Every opener lies on the stack or is taken from it by an endif, and every other endif
is stray. -/
theorem length_visitAll
    (scan : Scan)
    (index : Nat)
    (program : Program) :
    (scan.visitAll index program).opened.length + program.brackets.count .D +
        scan.stray.length =
      (scan.visitAll index program).stray.length + program.brackets.count .U +
        scan.opened.length := by
  induction program generalizing scan index with
  | nil =>
    rw [visitAll, Program.brackets_nil]
    simp [Nat.add_comm]
  | cons instruction rest inductionHypothesis =>
    have first := scan.length_visit index instruction
    have later := inductionHypothesis (scan.visit index instruction) (index + 1)
    rw [visitAll, Program.brackets_cons, List.count_append, List.count_append]
    omega

end Scan
end Blocks

namespace Program

open Blocks (Scan Issue)

variable {program : Program} {index : Nat}

theorem knows_blockIssues (program : Program) :
    (Scan.initial.visitAll 0 program).Knows program program.length := by
  rw [← Scan.before_length]
  exact Scan.knows_before (Nat.le_refl _)

theorem lt_length_of_bracketAt?
    {step : DyckStep}
    (isBracket : program.bracketAt? index = some step) :
    index < program.length := by
  obtain ⟨instruction, found, -⟩ := Option.bind_eq_some_iff.mp isBracket
  exact (List.getElem?_eq_some_iff.mp found).1

/-- An opener is never closed if it is still open at the end. -/
theorem stillOpen_length_iff :
    program.StillOpen program.length index ↔
      program.bracketAt? index = some .U ∧ ∀ endif, ¬ program.Closes endif index := by
  constructor
  · rintro ⟨-, isOpener, unclosed⟩
    refine ⟨isOpener, fun endif closes => ?_⟩
    exact unclosed endif (lt_length_of_bracketAt? closes.bracketAt?_endif) closes
  · rintro ⟨isOpener, unclosed⟩
    exact ⟨lt_length_of_bracketAt? isOpener, isOpener, fun endif _ => unclosed endif⟩

theorem unmatched_iff_of_endif
    (isEndif : program.bracketAt? index = some .D) :
    program.Unmatched index ↔ ∀ opener, ¬ program.Closes index opener := by
  constructor
  · exact fun unmatched opener => (unmatched opener).1
  · refine fun stray other => ⟨stray other, fun closes => ?_⟩
    have isOpener := closes.bracketAt?_opener
    rw [isEndif] at isOpener
    cases isOpener

theorem unmatched_iff_of_opener
    (isOpener : program.bracketAt? index = some .U) :
    program.Unmatched index ↔ ∀ endif, ¬ program.Closes endif index := by
  constructor
  · exact fun unmatched endif => (unmatched endif).2
  · refine fun unclosed other => ⟨fun closes => ?_, unclosed other⟩
    have isEndif := closes.bracketAt?_endif
    rw [isOpener] at isEndif
    cases isEndif

/-- The check reports the brackets without a partner. -/
theorem mem_blockIssues_iff
    {issue : Issue} :
    issue ∈ program.blockIssues ↔
      program[issue.index]? = some issue.instruction ∧
        program.bracketAt? issue.index = some issue.problem.bracket ∧
        program.Unmatched issue.index := by
  have knows := program.knows_blockIssues
  rw [blockIssues, Scan.mem_issues_iff, knows.stray_iff, knows.opened_iff,
    stillOpen_length_iff]
  cases problem : issue.problem with
  | strayEndif =>
    simp only [Blocks.Problem.bracket, reduceCtorEq, and_true, and_false, or_false]
    constructor
    · rintro ⟨found, -, isEndif, stray⟩
      exact ⟨found, isEndif, (unmatched_iff_of_endif isEndif).mpr stray⟩
    · rintro ⟨found, isEndif, unmatched⟩
      exact ⟨found, lt_length_of_bracketAt? isEndif, isEndif,
        (unmatched_iff_of_endif isEndif).mp unmatched⟩
  | neverClosed =>
    simp only [Blocks.Problem.bracket, reduceCtorEq, and_true, and_false, false_or]
    constructor
    · rintro ⟨found, isOpener, unclosed⟩
      exact ⟨found, isOpener, (unmatched_iff_of_opener isOpener).mpr unclosed⟩
    · rintro ⟨found, isOpener, unmatched⟩
      exact ⟨found, isOpener, (unmatched_iff_of_opener isOpener).mp unmatched⟩

theorem mem_indices_iff :
    index ∈ program.blockIssues.map Issue.index ↔
      (∃ step, program.bracketAt? index = some step) ∧ program.Unmatched index := by
  rw [List.mem_map]
  constructor
  · rintro ⟨issue, reported, rfl⟩
    obtain ⟨-, isBracket, unmatched⟩ := mem_blockIssues_iff.mp reported
    exact ⟨⟨_, isBracket⟩, unmatched⟩
  · rintro ⟨⟨step, isBracket⟩, unmatched⟩
    obtain ⟨instruction, found, -⟩ := Option.bind_eq_some_iff.mp isBracket
    obtain ⟨problem, rfl⟩ : ∃ problem : Blocks.Problem, problem.bracket = step := by
      cases step with
      | U => exact ⟨.neverClosed, rfl⟩
      | D => exact ⟨.strayEndif, rfl⟩
    exact ⟨⟨index, instruction, problem⟩, mem_blockIssues_iff.mpr ⟨found, isBracket, unmatched⟩,
      rfl⟩

/-! ## Balanced programs -/

theorem blockIssues_eq_nil_iff :
    program.blockIssues = [] ↔
      (Scan.initial.visitAll 0 program).stray = [] ∧
        (Scan.initial.visitAll 0 program).opened = [] := by
  simp [blockIssues, Scan.issues]

theorem length_scan (program : Program) :
    (Scan.initial.visitAll 0 program).opened.length + program.brackets.count .D =
      (Scan.initial.visitAll 0 program).stray.length + program.brackets.count .U :=
  Scan.initial.length_visitAll 0 program

/-- Nothing is stray in a beginning of a program if nothing is stray in all of it. -/
theorem stray_of_beginning
    {front : Program}
    (initial : front <+: program)
    (unstray : (Scan.initial.visitAll 0 program).stray = []) :
    (Scan.initial.visitAll 0 front).stray = [] := by
  obtain ⟨back, rfl⟩ := initial
  rw [Scan.visitAll_append] at unstray
  obtain ⟨newer, split, -⟩ :=
    (Scan.initial.visitAll 0 front).exists_stray_visitAll (0 + front.length) back
  rw [unstray] at split
  exact (List.append_eq_nil_iff.mp split.symm).2

/-- In a beginning of a balanced program no more blocks are closed than opened. -/
theorem count_le_of_beginning
    {word : DyckWord}
    {front : Program}
    (word_eq : word.toList = program.brackets)
    (initial : front <+: program) :
    front.brackets.count .D ≤ front.brackets.count .U := by
  have begins : front.brackets <+: program.brackets := initial.filterMap _
  rw [List.prefix_iff_eq_take.mp begins, ← word_eq]
  exact word.count_D_le_count_U _

/-- Outside all blocks there are as many endifs as openers, so that a further endif would
be one too many. -/
theorem stray_of_balanced
    {word : DyckWord}
    {front : Program}
    (word_eq : word.toList = program.brackets)
    (initial : front <+: program) :
    (Scan.initial.visitAll 0 front).stray = [] := by
  induction front using List.reverseRecOn with
  | nil => rfl
  | append_singleton front instruction inductionHypothesis =>
    have unstray := inductionHypothesis ((List.prefix_append _ _).trans initial)
    rw [Scan.visitAll_append, Scan.visitAll, Scan.visitAll, Scan.stray_visit, unstray]
    intro isEndif outside
    have counted := length_scan front
    have few := count_le_of_beginning word_eq initial
    rw [outside, unstray, List.length_nil] at counted
    rw [brackets_append, brackets_singleton, Scan.bracket?_eq_down_iff.mpr isEndif,
      List.count_append, List.count_append] at few
    have oneDown : ([DyckStep.D].count .D, [DyckStep.D].count .U) = (1, 0) := rfl
    simp only [Option.toList_some, Prod.mk.injEq] at few oneDown
    omega

/-- The check reports nothing exactly if the brackets are balanced. -/
theorem blockIssues_eq_nil_iff_balanced :
    program.blockIssues = [] ↔ ∃ word : DyckWord, word.toList = program.brackets := by
  have counted := program.length_scan
  rw [blockIssues_eq_nil_iff]
  constructor
  · rintro ⟨unstray, unopened⟩
    rw [unstray, unopened] at counted
    refine ⟨⟨program.brackets, by simpa using counted.symm, fun count => ?_⟩, rfl⟩
    obtain ⟨front, initial, taken⟩ :=
      List.prefix_filterMap_iff.mp (List.take_prefix count program.brackets)
    have counted_front := length_scan front
    rw [stray_of_beginning initial unstray, List.length_nil, Nat.zero_add] at counted_front
    rw [taken]
    exact Nat.le.intro ((Nat.add_comm _ _).trans counted_front)
  · rintro ⟨word, word_eq⟩
    have unstray := stray_of_balanced word_eq List.prefix_rfl
    have even := word.count_U_eq_count_D
    rw [word_eq] at even
    rw [unstray, List.length_nil, even] at counted
    exact ⟨unstray, List.length_eq_zero_iff.mp (by omega)⟩

/-! ## Without the reported instructions -/

theorem without_concat
    (program : Program)
    (instruction : Instruction)
    (indices : List Nat) :
    without (program ++ [instruction]) indices =
      program.without indices ++ if program.length ∈ indices then [] else [instruction] := by
  by_cases dropped : program.length ∈ indices <;>
    simp [without, List.zipIdx_append, dropped]

/-- The check of a program without some of its instructions has found nothing stray, and
has the openers on its stack that are not left out. -/
structure Keeps (indices : List Nat) (scan shorter : Scan) : Prop where
  unstray : shorter.stray = []
  height_eq : shorter.opened.length = scan.opened.countP fun opener => opener.1 ∉ indices

/-- An instruction that closes nothing is left out, or goes on both stacks, or on none.  An
instruction that closes something is kept, and so is what it closes. -/
theorem Keeps.visit
    {indices : List Nat}
    {scan shorter : Scan}
    {place : Nat}
    {instruction : Instruction}
    (keeps : Keeps indices scan shorter)
    (knows : scan.Knows program place)
    (found : program[place]? = some instruction)
    (reported : ∀ index, index ∈ indices ↔
      (∃ step, program.bracketAt? index = some step) ∧ program.Unmatched index)
    (index : Nat) :
    Keeps indices (scan.visit place instruction)
      (shorter.visitAll index (if place ∈ indices then [] else [instruction])) := by
  obtain ⟨unstray, height_eq⟩ := keeps
  have bracket_eq := bracketAt?_of_getElem? found
  cases bracket : instruction.kind.bracket? with
  | none =>
    have kept : place ∉ indices := by
      rw [reported, bracket_eq, bracket]
      simp
    rw [if_neg kept, Scan.visitAll, Scan.visitAll, Scan.visit_of_bracket?_eq_none _ bracket,
      Scan.visit_of_bracket?_eq_none _ bracket]
    exact ⟨unstray, height_eq⟩
  | some step =>
    rw [bracket] at bracket_eq
    cases step with
    | U =>
      rw [Scan.visit_of_opener place bracket]
      by_cases dropped : place ∈ indices
      · rw [if_pos dropped]
        exact ⟨unstray, by simp [Scan.visitAll, height_eq, dropped]⟩
      · rw [if_neg dropped, Scan.visitAll, Scan.visitAll, Scan.visit_of_opener _ bracket]
        exact ⟨unstray, by simp [height_eq, dropped]⟩
    | D =>
      cases opened : scan.opened with
      | nil =>
        have stray : place ∈ indices := (reported place).mpr
          ⟨⟨_, bracket_eq⟩, (unmatched_iff_of_endif bracket_eq).mpr (knows.not_closes opened)⟩
        rw [Scan.visit_of_stray place bracket opened, if_pos stray]
        exact ⟨unstray, height_eq⟩
      | cons opener outer =>
        have closes := knows.closes_top bracket_eq opened
        have kept : place ∉ indices := fun dropped =>
          (((reported place).mp dropped).2 opener.1).1 closes
        have kept' : opener.1 ∉ indices := fun dropped =>
          (((reported opener.1).mp dropped).2 place).2 closes
        rw [opened, List.countP_cons_of_pos (by simpa using kept')] at height_eq
        obtain ⟨top, below, split⟩ := List.exists_cons_of_length_eq_add_one height_eq
        rw [split, List.length_cons, Nat.add_right_cancel_iff] at height_eq
        rw [if_neg kept, Scan.visitAll, Scan.visitAll, Scan.visit_of_closing place bracket opened,
          Scan.visit_of_closing index bracket split]
        exact ⟨unstray, height_eq⟩

theorem keeps_before
    {indices : List Nat}
    (reported : ∀ index, index ∈ indices ↔
      (∃ step, program.bracketAt? index = some step) ∧ program.Unmatched index)
    {place : Nat}
    (within : place ≤ program.length) :
    Keeps indices (Scan.before program place)
      (Scan.initial.visitAll 0 (without (program.take place) indices)) := by
  induction place with
  | zero => exact ⟨rfl, rfl⟩
  | succ place inductionHypothesis =>
    have found : program[place]? = some program[place] := List.getElem?_eq_getElem within
    have taken : (program.take place).length = place := by
      rw [List.length_take]
      omega
    rw [List.take_add_one, found, Option.toList_some, without_concat, taken,
      Scan.visitAll_append, Scan.before_succ found]
    exact (inductionHypothesis (Nat.le_of_lt within)).visit
      (Scan.knows_before (Nat.le_of_lt within)) found reported _

/-- A program without the reported instructions has no issues. -/
theorem blockIssues_without :
    (program.without (program.blockIssues.map Issue.index)).blockIssues = [] := by
  have keeps := keeps_before (fun index => mem_indices_iff) (Nat.le_refl program.length)
  rw [List.take_length, Scan.before_length] at keeps
  refine blockIssues_eq_nil_iff.mpr ⟨keeps.unstray, List.length_eq_zero_iff.mp ?_⟩
  rw [keeps.height_eq, List.countP_eq_zero]
  intro opener stillOpen
  have reported : ⟨opener.1, opener.2, .neverClosed⟩ ∈ program.blockIssues :=
    Scan.mem_issues_iff.mpr (.inr ⟨stillOpen, rfl⟩)
  have dropped : opener.1 ∈ program.blockIssues.map Issue.index :=
    List.mem_map_of_mem reported
  simpa using dropped

/-- The check reports exactly the brackets without a partner, each once and in the order
of the program, the stray endifs in front of the openers that are never closed.  It
reports nothing exactly if the brackets are balanced, and nothing of a program without
the instructions that it reports. -/
theorem blockIssues_are_unmatched_brackets (program : Program) :
    (∀ issue, issue ∈ program.blockIssues ↔
      program[issue.index]? = some issue.instruction ∧
        program.bracketAt? issue.index = some issue.problem.bracket ∧
        program.Unmatched issue.index) ∧
    (program.blockIssues.map Issue.index).Pairwise (· < ·) ∧
    (∀ stray ∈ program.blockIssues, ∀ unclosed ∈ program.blockIssues,
      stray.problem = .strayEndif -> unclosed.problem = .neverClosed ->
        stray.index < unclosed.index) ∧
    (program.blockIssues = [] ↔ ∃ word : DyckWord, word.toList = program.brackets) ∧
    (program.without (program.blockIssues.map Issue.index)).blockIssues = [] := by
  have knows := program.knows_blockIssues
  refine ⟨fun issue => mem_blockIssues_iff, knows.pairwise_issues, ?_,
    blockIssues_eq_nil_iff_balanced, blockIssues_without⟩
  intro stray isReported unclosed isReported' isStray isUnclosed
  have found := Scan.mem_issues_iff.mp isReported
  have found' := Scan.mem_issues_iff.mp isReported'
  simp only [isStray, isUnclosed, reduceCtorEq, and_true, and_false, or_false, false_or]
    at found found'
  exact knows.stray_lt_opened _ found _ found'

end Program
end GlyphStack
