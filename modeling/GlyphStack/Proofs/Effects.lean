import GlyphStack.Effect

/-!
# Effects in closed form

An action on a machine is a sequence of smaller actions.  Here each of them is
written as one case distinction on the machine that it starts from: what it
returns or why it fails, and which machine it leaves behind.  Later arguments
use these equations and never look inside an action.
-/

namespace GlyphStack

/-- A sequence of two actions hands the state of the first to the second. -/
theorem bind_apply
    {ε σ α β : Type}
    (first : EStateM ε σ α)
    (next : α -> EStateM ε σ β)
    (state : σ) :
    (first >>= next) state =
      match first state with
      | .ok result after => next result after
      | .error fault after => .error fault after := by
  rfl

/-- Reading the state leaves it as it is. -/
theorem get_bind_apply
    {ε σ β : Type}
    (next : σ -> EStateM ε σ β)
    (state : σ) :
    (get >>= next) state = next state state := by
  rfl

namespace Machine

theorem push_apply
    (value : Int64)
    (machine : Machine) :
    push value machine =
      match machine.width.check value with
      | .ok () => .ok () { machine with stack := machine.stack.push value }
      | .error overflow => .error (.overflow overflow) machine := by
  rw [push, get_bind_apply]
  cases machine.width.check value <;> rfl

theorem pop_apply (machine : Machine) :
    pop machine =
      match machine.stack.pop? with
      | none => .error .stackUnderflow machine
      | some (value, below) => .ok value { machine with stack := below } := by
  rw [pop, get_bind_apply]
  cases machine.stack.pop? <;> rfl

theorem peek_apply (machine : Machine) :
    peek machine =
      match machine.stack.peek? with
      | none => .error .stackUnderflow machine
      | some value => .ok value machine := by
  rw [peek, get_bind_apply]
  cases machine.stack.peek? <;> rfl

theorem save_apply (machine : Machine) :
    save machine =
      match machine.stack.peek? with
      | none => .error .stackUnderflow machine
      | some value => .ok () { machine with register := some value } := by
  rw [save, bind_apply, peek_apply]
  cases machine.stack.peek? <;> rfl

theorem load_apply (machine : Machine) :
    load machine =
      match machine.register with
      | none => .error .unsetRegister machine
      | some value => .ok () { machine with stack := machine.stack.push value } := by
  obtain ⟨stack, returns, outcomes, register, width⟩ := machine
  rw [load, get_bind_apply]
  cases register <;> rfl

end Machine

namespace Effect

theorem unary_apply
    (operation : Int64 -> Except Fault Int64)
    (machine : Machine) :
    unary operation machine =
      match machine.stack.pop? with
      | none => .error .stackUnderflow machine
      | some (a, below) =>
        match operation a with
        | .ok result => Machine.push result { machine with stack := below }
        | .error fault => .error fault { machine with stack := below } := by
  rw [unary, bind_apply, Machine.pop_apply]
  cases machine.stack.pop? with
  | none => rfl
  | some popped =>
    dsimp only
    cases operation popped.1 <;> rfl

theorem binary_apply
    (operation : Int64 -> Int64 -> Except Fault Int64)
    (machine : Machine) :
    binary operation machine =
      match machine.stack.topDown with
      | b :: a :: below =>
        match operation a b with
        | .ok result => Machine.push result { machine with stack := { topDown := below } }
        | .error fault => .error fault { machine with stack := { topDown := below } }
      | _ => .error .stackUnderflow machine := by
  obtain ⟨⟨values⟩, returns, outcomes, register, width⟩ := machine
  match values with
  | [] => rfl
  | [_] => rfl
  | b :: a :: below =>
    have enough : ¬ Stack.size { topDown := b :: a :: below } < 2 := by
      simp [Stack.size]
    rw [binary, get_bind_apply]
    simp only [if_neg enough]
    rw [bind_apply, Machine.pop_apply]
    simp only [Stack.pop?]
    rw [bind_apply, Machine.pop_apply]
    simp only [Stack.pop?]
    cases operation a b <;> rfl

theorem chr_apply (machine : Machine) :
    chr machine =
      match machine.stack.peek? with
      | none => .error .stackUnderflow machine
      | some value =>
        match character? value with
        | some c => .ok (String.singleton c) machine
        | none => .error (.invalidCodePoint value) machine := by
  rw [chr, bind_apply, Machine.peek_apply]
  cases machine.stack.peek? with
  | none => rfl
  | some value =>
    dsimp only
    cases character? value <;> rfl

theorem toText_apply (machine : Machine) :
    toText machine =
      match characters machine.stack.toList with
      | .ok text => .ok (textOf text) machine
      | .error fault => .error fault machine := by
  rw [toText, get_bind_apply]
  cases characters machine.stack.toList <;> rfl

/-- Push a computed value, unless the computation or the check fails. -/
def pushResult (machine : Machine) :
    Except Fault Int64 -> EStateM.Result Fault Machine (Option String)
  | .ok value =>
    match machine.width.check value with
    | .ok () => .ok none { machine with stack := machine.stack.push value }
    | .error overflow => .error (.overflow overflow) machine
  | .error fault => .error fault machine

section Apply

variable {instruction : Instruction} (machine : Machine)

theorem apply_push (isPush : instruction.kind = .push) :
    apply instruction machine =
      match machine.width.check instruction.value with
      | .ok () => .ok none { machine with stack := machine.stack.push instruction.value }
      | .error overflow => .error (.overflow overflow) machine := by
  simp only [apply, isPush]
  rw [bind_apply, Machine.push_apply]
  cases machine.width.check instruction.value <;> rfl

theorem apply_pop (isPop : instruction.kind = .pop) :
    apply instruction machine =
      match machine.stack.pop? with
      | none => .error .stackUnderflow machine
      | some (value, below) =>
        .ok (some (toString value.toInt)) { machine with stack := below } := by
  simp only [apply, isPop]
  rw [bind_apply, Machine.pop_apply]
  cases machine.stack.pop? <;> rfl

theorem apply_peek (isPeek : instruction.kind = .peek) :
    apply instruction machine =
      match machine.stack.peek? with
      | none => .error .stackUnderflow machine
      | some value => .ok (some (toString value.toInt)) machine := by
  simp only [apply, isPeek]
  rw [bind_apply, Machine.peek_apply]
  cases machine.stack.peek? <;> rfl

theorem apply_clear (isClear : instruction.kind = .clear) :
    apply instruction machine = .ok none { machine with stack := .empty } := by
  simp only [apply, isClear]
  rfl

theorem apply_nonOp (isNonOp : instruction.kind = .nonOp) :
    apply instruction machine = .ok none machine := by
  simp only [apply, isNonOp]
  rfl

theorem apply_chr (isChr : instruction.kind = .chr) :
    apply instruction machine =
      match machine.stack.peek? with
      | none => .error .stackUnderflow machine
      | some value =>
        match character? value with
        | some c => .ok (some (String.singleton c)) machine
        | none => .error (.invalidCodePoint value) machine := by
  simp only [apply, isChr]
  rw [bind_apply, chr_apply]
  cases machine.stack.peek? with
  | none => rfl
  | some value =>
    dsimp only
    cases character? value <;> rfl

theorem apply_copy (isCopy : instruction.kind = .copy) :
    apply instruction machine =
      match machine.stack.peek? with
      | none => .error .stackUnderflow machine
      | some value => .ok none { machine with stack := machine.stack.push value } := by
  simp only [apply, isCopy]
  rw [bind_apply, Machine.peek_apply]
  cases machine.stack.peek? <;> rfl

theorem apply_toText (isToText : instruction.kind = .toText) :
    apply instruction machine =
      match characters machine.stack.toList with
      | .ok text => .ok (some (textOf text)) machine
      | .error fault => .error fault machine := by
  simp only [apply, isToText]
  rw [bind_apply, toText_apply]
  cases characters machine.stack.toList <;> rfl

theorem apply_unary
    {operation : Int64 -> Except Fault Int64}
    (isUnary : Arithmetic.unary? instruction.kind = some operation) :
    apply instruction machine =
      match machine.stack.pop? with
      | none => .error .stackUnderflow machine
      | some (a, below) => pushResult { machine with stack := below } (operation a) := by
  have opened : apply instruction machine = (do unary operation; return none) machine := by
    cases kind : instruction.kind <;> simp_all [apply, Arithmetic.unary?]
  rw [opened, bind_apply, unary_apply]
  cases machine.stack.pop? with
  | none => rfl
  | some popped =>
    cases computed : operation popped.1 with
    | error fault => simp [computed, pushResult]
    | ok result =>
      simp only [computed, Machine.push_apply, pushResult]
      cases machine.width.check result <;> rfl

theorem apply_binary
    {operation : Int64 -> Int64 -> Except Fault Int64}
    (isBinary : Arithmetic.binary? instruction.kind = some operation) :
    apply instruction machine =
      match machine.stack.topDown with
      | b :: a :: below =>
        pushResult { machine with stack := { topDown := below } } (operation a b)
      | _ => .error .stackUnderflow machine := by
  have opened : apply instruction machine = (do binary operation; return none) machine := by
    cases kind : instruction.kind <;> simp_all [apply, Arithmetic.unary?, Arithmetic.binary?]
  rw [opened, bind_apply, binary_apply]
  match machine.stack.topDown with
  | [] => rfl
  | [_] => rfl
  | b :: a :: below =>
    cases computed : operation a b with
    | error fault => simp [computed, pushResult]
    | ok result =>
      simp only [computed, Machine.push_apply, pushResult]
      cases machine.width.check result <;> rfl

theorem apply_other
    (isOther : instruction.kind.isControl ∨ ∃ code, instruction.kind = .undefined code) :
    apply instruction machine = .error (.noEffect instruction.kind) machine := by
  cases kind : instruction.kind <;>
    simp_all [apply, Kind.isControl, Kind.classOf, Arithmetic.unary?, Arithmetic.binary?] <;>
    rfl

end Apply

/-- The families of kinds whose effects have one closed form each. -/
inductive Family (kind : Kind) : Prop
  | push (isPush : kind = .push)
  | pop (isPop : kind = .pop)
  | peek (isPeek : kind = .peek)
  | clear (isClear : kind = .clear)
  | nonOp (isNonOp : kind = .nonOp)
  | chr (isChr : kind = .chr)
  | copy (isCopy : kind = .copy)
  | toText (isToText : kind = .toText)
  | unary
      (operation : Int64 -> Except Fault Int64)
      (isUnary : Arithmetic.unary? kind = some operation)
  | binary
      (operation : Int64 -> Int64 -> Except Fault Int64)
      (isBinary : Arithmetic.binary? kind = some operation)
  | other (isOther : kind.isControl ∨ ∃ code, kind = .undefined code)

/-- Every kind belongs to a family. -/
theorem family (kind : Kind) : Family kind := by
  cases kind with
  | push => exact .push rfl
  | pop => exact .pop rfl
  | peek => exact .peek rfl
  | clear => exact .clear rfl
  | nonOp => exact .nonOp rfl
  | chr => exact .chr rfl
  | copy => exact .copy rfl
  | toText => exact .toText rfl
  | not | negate => exact .unary _ rfl
  | add | subtract | multiply | divide | modulo | and | or | equality | greaterThan
  | lessThan => exact .binary _ rfl
  | ifOpen | endif | elseOpen | mark | jump | jumpIf | save | load => exact .other (.inl rfl)
  | undefined code => exact .other (.inr ⟨code, rfl⟩)

end Effect

/-- Change the machine that an action leaves behind. -/
def Action.leaving
    {α : Type}
    (change : Machine -> Machine) :
    EStateM.Result Fault Machine α -> EStateM.Result Fault Machine α
  | .ok result machine => .ok result (change machine)
  | .error fault machine => .error fault (change machine)

@[simp] theorem Action.leaving_leaving
    {α : Type}
    (first second : Machine -> Machine)
    (result : EStateM.Result Fault Machine α) :
    leaving second (leaving first result) = leaving (fun after => second (first after)) result := by
  cases result <;> rfl

theorem Effect.pushResult_frame
    (machine other : Machine)
    (sameStack : other.stack = machine.stack)
    (sameWidth : other.width = machine.width)
    (result : Except Fault Int64) :
    pushResult other result =
      Action.leaving (fun after => { other with stack := after.stack })
        (pushResult machine result) := by
  obtain ⟨stack, returns, outcomes, register, width⟩ := other
  dsimp only at sameStack sameWidth
  subst sameStack sameWidth
  cases result with
  | error fault => rfl
  | ok value =>
    cases checked : machine.width.check value <;>
      simp [pushResult, checked, Action.leaving]

/-- An effect depends on nothing but the stack and the width, and it changes
nothing but the stack. -/
theorem Effect.apply_frame
    (instruction : Instruction)
    (machine other : Machine)
    (sameStack : other.stack = machine.stack)
    (sameWidth : other.width = machine.width) :
    apply instruction other =
      Action.leaving (fun after => { other with stack := after.stack })
        (apply instruction machine) := by
  obtain ⟨stack, returns, outcomes, register, width⟩ := other
  dsimp only at sameStack sameWidth
  subst sameStack sameWidth
  cases family instruction.kind with
  | push isPush =>
    rw [apply_push _ isPush, apply_push _ isPush]
    cases machine.width.check instruction.value <;> rfl
  | pop isPop =>
    rw [apply_pop _ isPop, apply_pop _ isPop]
    cases machine.stack.pop? <;> rfl
  | peek isPeek =>
    rw [apply_peek _ isPeek, apply_peek _ isPeek]
    cases machine.stack.peek? <;> rfl
  | clear isClear => rw [apply_clear _ isClear, apply_clear _ isClear, Action.leaving]
  | nonOp isNonOp => rw [apply_nonOp _ isNonOp, apply_nonOp _ isNonOp, Action.leaving]
  | chr isChr =>
    rw [apply_chr _ isChr, apply_chr _ isChr]
    cases machine.stack.peek? with
    | none => rfl
    | some value => cases read : character? value <;> simp only [read, Action.leaving]
  | copy isCopy =>
    rw [apply_copy _ isCopy, apply_copy _ isCopy]
    cases machine.stack.peek? <;> rfl
  | toText isToText =>
    rw [apply_toText _ isToText, apply_toText _ isToText]
    cases characters machine.stack.toList <;> rfl
  | unary operation isUnary =>
    rw [apply_unary _ isUnary, apply_unary _ isUnary]
    cases machine.stack.pop? with
    | none => rfl
    | some popped => exact pushResult_frame _ _ (by rfl) (by rfl) _
  | binary operation isBinary =>
    rw [apply_binary _ isBinary, apply_binary _ isBinary]
    match machine.stack.topDown with
    | [] => rfl
    | [_] => rfl
    | b :: a :: below => exact pushResult_frame _ _ (by rfl) (by rfl) _
  | other isOther => rw [apply_other _ isOther, apply_other _ isOther, Action.leaving]

end GlyphStack
