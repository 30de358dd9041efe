import GlyphStack.Blocks
import GlyphStack.Listing

/-!
# The block structure of the beginning of a program

The check of the blocks and the listing both go through a program once, and both
count the blocks that are open.  This module looks at them in the middle of the
program: the two counts agree everywhere, and what the check has found so far is
part of what it finds in the end.
-/

namespace GlyphStack
namespace Blocks
namespace Scan

theorem visitAll_append
    (scan : Scan)
    (index : Nat)
    (first rest : Program) :
    scan.visitAll index (first ++ rest) =
      (scan.visitAll index first).visitAll (index + first.length) rest := by
  induction first generalizing scan index with
  | nil => rfl
  | cons instruction first inductionHypothesis =>
    have shifted : index + 1 + first.length = index + (instruction :: first).length := by
      rw [List.length_cons]
      omega
    rw [List.cons_append, visitAll, inductionHypothesis, shifted, visitAll]

/-- The check counts open blocks as the listing does. -/
theorem length_opened_visit
    (scan : Scan)
    (index : Nat)
    (instruction : Instruction) :
    (scan.visit index instruction).opened.length =
      Listing.depthAfter scan.opened.length instruction.kind := by
  unfold visit Listing.depthAfter
  cases instruction.kind with
  | endif => cases scan.opened <;> simp
  | _ => rfl

/-- Only an endif outside all blocks is stray. -/
theorem stray_visit
    {scan : Scan}
    {instruction : Instruction}
    (index : Nat)
    (inside : instruction.kind = .endif -> scan.opened ≠ []) :
    (scan.visit index instruction).stray = scan.stray := by
  by_cases isEndif : instruction.kind = .endif
  · obtain ⟨opener, outer, opened⟩ := List.exists_cons_of_ne_nil (inside isEndif)
    simp [visit, isEndif, opened]
  · unfold visit
    split <;> simp_all

theorem stray_visit_endif
    {scan : Scan}
    {instruction : Instruction}
    (index : Nat)
    (isEndif : instruction.kind = .endif)
    (outside : scan.opened = []) :
    (scan.visit index instruction).stray = (index, instruction) :: scan.stray := by
  simp [visit, isEndif, outside]

/-- What was found stray stays so, and what is found later stands later. -/
theorem exists_stray_visitAll
    (scan : Scan)
    (index : Nat)
    (program : Program) :
    ∃ newer, (scan.visitAll index program).stray = newer ++ scan.stray ∧
      ∀ found ∈ newer, index ≤ found.1 := by
  induction program generalizing scan index with
  | nil => exact ⟨[], rfl, by simp⟩
  | cons instruction rest inductionHypothesis =>
    obtain ⟨newer, stray, later⟩ := inductionHypothesis (scan.visit index instruction) (index + 1)
    rw [visitAll, stray]
    by_cases inside : instruction.kind = .endif -> scan.opened ≠ []
    · refine ⟨newer, by rw [stray_visit index inside], ?_⟩
      intro found member
      have after := later found member
      omega
    · obtain ⟨isEndif, outside⟩ : instruction.kind = .endif ∧ scan.opened = [] := by
        simpa using inside
      refine ⟨newer ++ [(index, instruction)], ?_, ?_⟩
      · rw [stray_visit_endif index isEndif outside, List.append_assoc, List.singleton_append]
      · intro found member
        rcases List.mem_append.mp member with isNewer | isFirst
        · have after := later found isNewer
          omega
        · simp [List.mem_singleton.mp isFirst]

/-- What the check knows when it comes to an instruction. -/
def before (program : Program) (index : Nat) : Scan :=
  initial.visitAll 0 (program.take index)

theorem before_succ
    {program : Program}
    {index : Nat}
    {instruction : Instruction}
    (found : program[index]? = some instruction) :
    before program (index + 1) = (before program index).visit index instruction := by
  obtain ⟨inside, here⟩ := List.getElem?_eq_some_iff.mp found
  have position : (program.take index).length = index := by
    rw [List.length_take]
    omega
  rw [before, List.take_add_one, found, Option.toList_some, visitAll_append, position,
    Nat.zero_add]
  rfl

theorem before_length (program : Program) :
    before program program.length = initial.visitAll 0 program := by
  rw [before, List.take_length]

/-- The check finds what it has found so far, and then only what stands later. -/
theorem exists_stray_before
    {program : Program}
    {index : Nat}
    (within : index ≤ program.length) :
    ∃ newer, (initial.visitAll 0 program).stray = newer ++ (before program index).stray ∧
      ∀ found ∈ newer, index ≤ found.1 := by
  have position : (program.take index).length = index := by
    rw [List.length_take]
    omega
  have split := visitAll_append initial 0 (program.take index) (program.drop index)
  rw [List.take_append_drop, position, Nat.zero_add] at split
  rw [split]
  exact exists_stray_visitAll _ _ _

theorem find?_stray_issues (scan : Scan) :
    (scan.issues.find? fun issue => issue.problem = .strayEndif).map Issue.index =
      scan.stray.getLast?.map Prod.fst := by
  unfold issues
  rw [List.find?_append, List.find?_map, List.find?_map, List.getLast?_eq_head?_reverse]
  cases scan.stray.reverse with
  | nil => simp [Function.comp_def]
  | cons found rest => rfl

theorem length_issues (scan : Scan) :
    scan.issues.length = scan.stray.length + scan.opened.length := by
  simp [issues]

end Scan
end Blocks

/-- The index of the first endif that closes nothing. -/
def Program.firstStray? (program : Program) : Option Nat :=
  (program.blockIssues.find? fun issue => issue.problem = .strayEndif).map Blocks.Issue.index

theorem Program.firstStray?_eq (program : Program) :
    program.firstStray? =
      (Blocks.Scan.initial.visitAll 0 program).stray.getLast?.map Prod.fst :=
  Blocks.Scan.find?_stray_issues _

/-- While nothing stray was found, the first stray endif is still to come. -/
theorem Program.le_firstStray?
    {program : Program}
    {index first : Nat}
    (within : index ≤ program.length)
    (unstray : (Blocks.Scan.before program index).stray = [])
    (isFirst : program.firstStray? = some first) :
    index ≤ first := by
  obtain ⟨newer, stray, later⟩ := Blocks.Scan.exists_stray_before within
  rw [firstStray?_eq, stray, unstray, List.append_nil] at isFirst
  obtain ⟨found, isLast, rfl⟩ := Option.map_eq_some_iff.mp isFirst
  exact later found (List.mem_of_getLast? isLast)

/-- The first endif that is met outside all blocks is the first stray one. -/
theorem Program.firstStray?_eq_some
    {program : Program}
    {index : Nat}
    {instruction : Instruction}
    (found : program[index]? = some instruction)
    (unstray : (Blocks.Scan.before program index).stray = [])
    (isEndif : instruction.kind = .endif)
    (outside : (Blocks.Scan.before program index).opened = []) :
    program.firstStray? = some index := by
  obtain ⟨inside, -⟩ := List.getElem?_eq_some_iff.mp found
  obtain ⟨newer, stray, -⟩ :=
    Blocks.Scan.exists_stray_before (show index + 1 ≤ program.length from inside)
  rw [firstStray?_eq, stray, Blocks.Scan.before_succ found,
    Blocks.Scan.stray_visit_endif index isEndif outside, unstray, List.getLast?_concat]
  rfl

theorem Program.firstStray?_eq_none
    {program : Program}
    (unstray : (Blocks.Scan.before program program.length).stray = []) :
    program.firstStray? = none := by
  rw [firstStray?_eq, ← Blocks.Scan.before_length, unstray]
  rfl

namespace Listing

/-- The depth that the listing has reached when it comes to an instruction. -/
def depthBefore (program : Program) (index : Nat) : Nat :=
  (program.take index).foldl (fun depth instruction => depthAfter depth instruction.kind) 0

theorem depthBefore_succ
    {program : Program}
    {index : Nat}
    {instruction : Instruction}
    (found : program[index]? = some instruction) :
    depthBefore program (index + 1) =
      depthAfter (depthBefore program index) instruction.kind := by
  rw [depthBefore, List.take_add_one, found, Option.toList_some, List.foldl_append]
  rfl

theorem lines_append
    (index depth : Nat)
    (first rest : Program) :
    lines index depth (first ++ rest) =
      lines index depth first ++
        lines (index + first.length)
          (first.foldl (fun depth instruction => depthAfter depth instruction.kind) depth)
          rest := by
  induction first generalizing index depth with
  | nil => rfl
  | cons instruction first inductionHypothesis =>
    have shifted : index + 1 + first.length = index + (instruction :: first).length := by
      rw [List.length_cons]
      omega
    rw [List.cons_append, lines, inductionHypothesis, shifted, lines, List.cons_append,
      List.foldl_cons]

/-- The listing comes to an instruction with the depth of the instructions
before it. -/
theorem lines_eq_at
    {program : Program}
    {index : Nat}
    {instruction : Instruction}
    (found : program[index]? = some instruction) :
    lines 0 0 program =
      lines 0 0 (program.take index) ++
        lines index (depthBefore program index) (instruction :: program.drop (index + 1)) := by
  obtain ⟨inside, here⟩ := List.getElem?_eq_some_iff.mp found
  have position : (program.take index).length = index := by
    rw [List.length_take]
    omega
  have rest : program.drop index = instruction :: program.drop (index + 1) := by
    rw [List.drop_eq_getElem_cons inside, here]
  calc lines 0 0 program
      = lines 0 0 (program.take index ++ program.drop index) := by
        rw [List.take_append_drop]
    _ = lines 0 0 (program.take index) ++
          lines (0 + (program.take index).length) (depthBefore program index)
            (program.drop index) := lines_append 0 0 _ _
    _ = _ := by rw [position, Nat.zero_add, rest]

end Listing

/-- The check and the listing count the same open blocks before every
instruction. -/
theorem Blocks.Scan.length_opened_before
    {program : Program}
    {index : Nat}
    (within : index ≤ program.length) :
    (before program index).opened.length = Listing.depthBefore program index := by
  induction index with
  | zero => rfl
  | succ index inductionHypothesis =>
    have found : program[index]? = some program[index] := List.getElem?_eq_getElem within
    rw [before_succ found, length_opened_visit, inductionHypothesis (by omega),
      Listing.depthBefore_succ found]

end GlyphStack
