/-!
# Stacks

A stack is a sequence that grows and shrinks at one end.  Its view is the list
of its values from the bottom up; each operation below says what it does to
that view.
-/

namespace GlyphStack

/-- A last-in, first-out sequence. -/
structure Stack (α : Type) where
  /-- The values from the top down. -/
  topDown : List α
  deriving DecidableEq, Repr

namespace Stack

variable {α : Type}

/-- The stack without values. -/
def empty : Stack α :=
  { topDown := [] }

instance : Inhabited (Stack α) :=
  ⟨empty⟩

/-- The values from the bottom up. -/
def toList (stack : Stack α) : List α :=
  stack.topDown.reverse

/-- The number of values. -/
def size (stack : Stack α) : Nat :=
  stack.topDown.length

/-- Place a value on top. -/
def push (stack : Stack α) (value : α) : Stack α :=
  { topDown := value :: stack.topDown }

/-- The top value. -/
def peek? (stack : Stack α) : Option α :=
  stack.topDown.head?

/-- The top value and the stack below it. -/
def pop? (stack : Stack α) : Option (α × Stack α) :=
  match stack.topDown with
  | [] => none
  | value :: below => some (value, { topDown := below })

@[simp]
theorem toList_empty : (empty : Stack α).toList = [] :=
  rfl

@[simp]
theorem toList_push (stack : Stack α) (value : α) :
    (stack.push value).toList = stack.toList ++ [value] := by
  simp [toList, push]

@[simp]
theorem length_toList (stack : Stack α) : stack.toList.length = stack.size := by
  simp [toList, size]

@[simp]
theorem peek?_push (stack : Stack α) (value : α) :
    (stack.push value).peek? = some value :=
  rfl

@[simp]
theorem pop?_push (stack : Stack α) (value : α) :
    (stack.push value).pop? = some (value, stack) :=
  rfl

/-- Only the empty stack has nothing to pop. -/
theorem pop?_eq_none_iff (stack : Stack α) :
    stack.pop? = none ↔ stack = empty := by
  cases stack with
  | mk topDown => cases topDown <;> simp [pop?, empty]

/-- What can be popped was on top. -/
theorem eq_push_of_pop?_eq_some
    {stack below : Stack α}
    {value : α}
    (popped : stack.pop? = some (value, below)) :
    stack = below.push value := by
  cases stack with
  | mk topDown =>
    cases topDown with
    | nil => simp [pop?] at popped
    | cons top rest =>
      simp only [pop?, Option.some.injEq, Prod.mk.injEq] at popped
      obtain ⟨rfl, rfl⟩ := popped
      rfl

end Stack

end GlyphStack
