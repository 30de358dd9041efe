import GlyphStack.Path

/-!
# The way upwards

The way from a path to the directories above it ends: each step that leads anywhere
leads to a shorter path, or to the current directory, where the way ends as well.
-/

namespace GlyphStack
namespace Path

theorem pieces_ne_nil (text : List Char) : pieces text ≠ [] := by
  cases text with
  | nil => simp [pieces]
  | cons c rest =>
    unfold pieces
    split
    · simp
    · split <;> simp

/-- A slash divides the pieces in front of it from those behind. -/
theorem pieces_append_slash (front back : List Char) :
    pieces (front ++ '/' :: back) = pieces front ++ pieces back := by
  induction front with
  | nil => simp [pieces]
  | cons c front inductionHypothesis =>
    rw [List.cons_append, pieces, pieces]
    split
    · rw [inductionHypothesis, List.cons_append]
    · rw [inductionHypothesis]
      cases split_eq : pieces front with
      | nil => exact absurd split_eq (pieces_ne_nil front)
      | cons piece others => rfl

/-- The characters that names take in a path, each with a slash. -/
def extent : (names : List String) -> Nat
  | [] => 0
  | name :: names => name.length + 1 + extent names

theorem extent_cons (name : String) (names : List String) :
    extent (name :: names) = name.length + 1 + extent names := rfl

theorem extent_append (names others : List String) :
    extent (names ++ others) = extent names + extent others := by
  induction names with
  | nil => simp [extent]
  | cons name names inductionHypothesis =>
    rw [List.cons_append, extent_cons, extent_cons, inductionHypothesis]
    omega

theorem extent_pieces (text : List Char) :
    extent ((pieces text).map String.ofList) = text.length + 1 := by
  induction text with
  | nil => rfl
  | cons c text inductionHypothesis =>
    unfold pieces
    split
    · rw [List.map_cons, extent_cons, inductionHypothesis]
      simp
      omega
    · cases split_eq : pieces text with
      | nil => exact absurd split_eq (pieces_ne_nil text)
      | cons piece others =>
        rw [split_eq, List.map_cons, extent_cons] at inductionHypothesis
        rw [List.map_cons, extent_cons]
        simp only [String.length_ofList, List.length_cons] at inductionHypothesis ⊢
        omega

theorem extent_take_le
    (rooted : Bool)
    (names : List String)
    (step : String) :
    extent (take rooted names step) ≤ extent names + (step.length + 1) := by
  unfold take
  split
  · omega
  split
  · next up =>
    subst up
    cases names with
    | nil => cases rooted <;> decide
    | cons name above =>
      dsimp only
      split
      · simp only [extent_cons]
        omega
      · simp only [extent_cons]
        omega
  · rw [extent_cons]
    omega

/-- Steps lead to no more names than they have. -/
theorem extent_foldl_take_le
    (rooted : Bool)
    (names steps : List String) :
    extent (steps.foldl (take rooted) names) ≤ extent names + extent steps := by
  induction steps generalizing names with
  | nil => exact Nat.le_refl _
  | cons step steps inductionHypothesis =>
    have first := extent_take_le rooted names step
    have others := inductionHypothesis (take rooted names step)
    rw [List.foldl_cons, extent_cons]
    omega

theorem length_slash : "/".length = 1 := rfl

theorem length_joined_slash
    {names : List String}
    (nonempty : names ≠ []) :
    (Text.joined "/" names).length + 1 = extent names := by
  induction names with
  | nil => exact absurd rfl nonempty
  | cons name names inductionHypothesis =>
    cases names with
    | nil => simp [Text.joined, extent]
    | cons next rest =>
      have others := inductionHypothesis (by simp)
      rw [extent_cons, ← others]
      simp only [Text.joined, String.length_append, length_slash]
      omega

theorem extent_reverse (names : List String) : extent names.reverse = extent names := by
  induction names with
  | nil => rfl
  | cons name names inductionHypothesis =>
    rw [List.reverse_cons, extent_append, inductionHypothesis, extent_cons, extent_cons]
    simp only [extent]
    omega

/-- A path has something in front of a last slash, or no slash at all. -/
theorem front_cases (path : String) :
    front path = "" ∨ ∃ above last : List Char,
      path = String.ofList (above ++ '/' :: last) ∧
        front path = String.ofList (above ++ ['/']) := by
  have stops := List.head?_dropWhile_not (· != '/') path.toList.reverse
  have split_eq := List.takeWhile_append_dropWhile (p := (· != '/')) (l := path.toList.reverse)
  unfold front
  cases dropped : path.toList.reverse.dropWhile (· != '/') with
  | nil => exact .inl rfl
  | cons c above =>
    rw [dropped] at stops split_eq
    obtain rfl : c = '/' := by simpa using stops
    refine .inr ⟨above.reverse, (path.toList.reverse.takeWhile (· != '/')).reverse, ?_, by simp⟩
    have whole := congrArg (fun text => String.ofList text.reverse) split_eq
    simpa using whole.symm

/-- A path that ends in a slash leads where it leads without the slash. -/
theorem normalNames_slash
    (rooted : Bool)
    (above : List Char) :
    normalNames rooted (String.ofList (above ++ ['/'])) =
      normalNames rooted (String.ofList above) := by
  have steps_eq : steps (String.ofList (above ++ ['/'])) = steps (String.ofList above) ++ [""] := by
    simp [steps, pieces_append_slash, pieces]
  rw [normalNames, steps_eq, List.foldl_append]
  simp [normalNames, take]

theorem extent_normalNames_le
    (rooted : Bool)
    (text : List Char) :
    extent (normalNames rooted (String.ofList text)) ≤ text.length + 1 := by
  have bounded := extent_foldl_take_le rooted [] (steps (String.ofList text))
  rw [steps, String.toList_ofList, extent_pieces] at bounded
  rw [normalNames, extent_reverse, steps, String.toList_ofList]
  simpa [extent] using bounded

/-- The slash at the start of a path takes no room among its names. -/
theorem extent_normalNames_slash_le
    (rooted : Bool)
    (text : List Char) :
    extent (normalNames rooted (String.ofList ('/' :: text))) ≤ text.length + 1 := by
  have steps_eq : steps (String.ofList ('/' :: text)) = "" :: steps (String.ofList text) := by
    simp [steps, pieces]
  have same : normalNames rooted (String.ofList ('/' :: text)) =
      normalNames rooted (String.ofList text) := by
    rw [normalNames, steps_eq, List.foldl_cons]
    simp [normalNames, take]
  rw [same]
  exact extent_normalNames_le rooted text

/-- How far it is at most from a path to where the way upwards ends. -/
def height (path : String) : Nat :=
  if path = "." then 0 else path.length + 1

theorem length_clean_slash_lt
    {above last : List Char}
    (moves : clean (String.ofList (above ++ ['/'])) ≠ String.ofList (above ++ '/' :: last))
    (leads : clean (String.ofList (above ++ ['/'])) ≠ ".") :
    (clean (String.ofList (above ++ ['/']))).length < (above ++ '/' :: last).length := by
  unfold clean at moves leads ⊢
  simp only [normalNames_slash] at moves leads ⊢
  cases above with
  | nil =>
    -- The path is the root or an entry of it.
    have root_eq : ofNames (normalNames true (String.ofList [])) = "/" := by decide
    simp only [isAbsolute, String.toList_ofList, List.nil_append, List.head?_cons, beq_self_eq_true,
      if_true, root_eq] at moves ⊢
    cases last with
    | nil => exact absurd rfl moves
    | cons c last =>
      rw [length_slash]
      simp
  | cons c above =>
    by_cases rooted : c = '/'
    · subst rooted
      have bounded := extent_normalNames_slash_le true above
      have isRooted : isAbsolute (String.ofList ('/' :: above ++ ['/'])) = true := by
        simp [isAbsolute]
      rw [if_pos isRooted, ofNames, String.length_append, length_slash]
      simp only [List.length_append, List.length_cons]
      cases names_eq : normalNames true (String.ofList ('/' :: above)) with
      | nil =>
        simp only [Text.joined, String.length_empty]
        omega
      | cons name names =>
        have measured := length_joined_slash (List.cons_ne_nil name names)
        rw [names_eq] at bounded
        omega
    · have bounded := extent_normalNames_le false (c :: above)
      have notRooted : isAbsolute (String.ofList (c :: above ++ ['/'])) = false := by
        simp [isAbsolute, rooted]
      rw [notRooted] at leads ⊢
      simp only [Bool.false_eq_true, if_false, List.length_append, List.length_cons]
        at bounded leads ⊢
      cases names_eq : normalNames false (String.ofList (c :: above)) with
      | nil =>
        rw [names_eq] at leads
        exact absurd rfl leads
      | cons name names =>
        have measured := length_joined_slash (List.cons_ne_nil name names)
        rw [names_eq] at bounded
        dsimp only
        omega

/-- The directory of a path is the path itself, or closer to the end of the way. -/
theorem height_parent_lt
    {path : String}
    (moves : parent path ≠ path) :
    height (parent path) < height path := by
  have current_eq : clean "" = "." := by decide
  unfold parent at moves ⊢
  rcases front_cases path with front_eq | ⟨above, last, rfl, front_eq⟩
  · rw [front_eq, current_eq] at moves ⊢
    unfold height
    rw [if_pos rfl, if_neg moves.symm]
    omega
  · rw [front_eq] at moves ⊢
    by_cases leads : clean (String.ofList (above ++ ['/'])) = "."
    · rw [leads] at moves ⊢
      unfold height
      rw [if_pos rfl, if_neg moves.symm]
      omega
    · have shorter := length_clean_slash_lt moves leads
      have notCurrent : String.ofList (above ++ '/' :: last) ≠ "." := by
        intro same
        have chars_eq := congrArg String.toList same
        rw [String.toList_ofList] at chars_eq
        have listed : '/' ∈ ".".toList := by
          rw [← chars_eq]
          simp
        exact absurd listed (by decide)
      unfold height
      rw [if_neg leads, if_neg notCurrent, String.length_ofList]
      omega

end Path
end GlyphStack
