import Rill.Proofs.Joining.InStep

/-!
# Programs in step

Every expression and every statement that a recast suits is run in step with the recast one, by
induction on the effort, and so is every program.
-/

namespace Rill.Run

variable {p : Pairing} {m m' : Machine} {r : Recast} {host : Hosting} {evaluate : Expr → Run Value}
  {execute : Stmt → Run Flow}

/-! ## Expressions -/

theorem operate_inStep (agree : p.Agree m m') {result result' : Except OperandRule Value}
    (alike : ResultsAlike p.likeness result result') {lines : Nat} (lowers : p.Lowers lines)
    (line : Nat) :
    InStep p p.Alike (operate line result m) (operate (line + lines) result' m') := by
  cases alike with
  | ok alike => exact InStep.ok agree alike
  | error rule => exact InStep.refuse agree lowers _ _

theorem asObject_inStep (agree : p.Agree m m') {value value' : Value}
    (alike : p.Alike value value') {lines : Nat} (lowers : p.Lowers lines) (line : Nat) :
    InStep p (Object.Alike p.likeness) (asObject line value m)
      (asObject (line + lines) value' m') := by
  cases alike with
  | object objects => exact InStep.ok agree objects
  | _ => exact InStep.refuse agree lowers _ _

/-- Expressions are evaluated in step if their parts are. -/
theorem evaluateWith_inStep (hosts : AnswersInStep p host)
    (evaluates : EvaluatesInStep p evaluate) (executes : ExecutesInStep p execute) {e : Expr}
    (agree : p.Agree m m') (suits : p.Suits r e.mentions) :
    InStep p p.Alike (evaluateWith host evaluate execute e m)
      (evaluateWith host evaluate execute (e.recast r) m') := by
  cases e with
  | literal value =>
      refine InStep.ok agree ?_
      cases value with
      | number value => exact .number value
      | string text => exact .string text
      | bool value => exact .bool value
      | nil => exact .nil
  | group inner => exact evaluates agree suits
  | unary operator operand line =>
      refine InStep.bind (evaluates agree suits) ?_
      intro value value' n n' agree₁ alike
      exact operate_inStep agree₁ (operator.apply_alike alike) suits.lowers line
  | binary left operator right line =>
      obtain ⟨suitsLeft, suitsRight⟩ := Pairing.suits_append.mp suits
      apply InStep.bind (evaluates agree suitsLeft)
      intro a a' n n' agree₁ first
      apply InStep.bind (evaluates agree₁ suitsRight)
      intro b b' n n' agree₂ second
      exact operate_inStep agree₂ (operator.apply_alike first second) suits.lowers line
  | logical left operator right =>
      obtain ⟨suitsLeft, suitsRight⟩ := Pairing.suits_append.mp suits
      apply InStep.bind (evaluates agree suitsLeft)
      intro value value' n n' agree₁ alike
      rw [← operator.isDecidedBy_eq alike]
      by_cases decided : operator.isDecidedBy value = true
      · rw [if_pos decided, if_pos decided]
        exact InStep.ok agree₁ alike
      · rw [if_neg decided, if_neg decided]
        exact evaluates agree₁ suitsRight
  | var id name =>
      exact lookUp_inStep agree (suits.binds id (by simp [Expr.mentions])).2 suits.lowers _ _
  | assign id name value =>
      obtain ⟨suitsValue, suitsName⟩ := Pairing.suits_append.mp suits
      apply InStep.bind (evaluates agree suitsValue)
      intro value value' n n' agree₁ alike
      refine InStep.bind (assign_inStep agree₁ (suitsName.binds id (by simp)).2 suits.lowers
        name.name alike name.line) ?_
      intro _ _ n n' agree₂ _
      exact InStep.ok agree₂ alike
  | call callee arguments line =>
      obtain ⟨suitsCallee, suitsArguments⟩ := Pairing.suits_append.mp suits
      apply InStep.bind (evaluates agree suitsCallee)
      intro value value' n n' agree₁ alike
      exact callValue_inStep hosts evaluates executes agree₁ alike suitsArguments line
  | get object name =>
      refine InStep.bind (evaluates agree suits) ?_
      intro value value' n n' agree₁ alike
      apply InStep.bind (asObject_inStep agree₁ alike suits.lowers name.line)
      intro o o' n n' agree₂ objects
      exact getProperty_inStep agree₂ objects suits.lowers name
  | set object name value =>
      obtain ⟨suitsObject, suitsValue⟩ := Pairing.suits_append.mp suits
      apply InStep.bind (evaluates agree suitsObject)
      intro value value' n n' agree₁ alike
      apply InStep.bind (asObject_inStep agree₁ alike suits.lowers name.line)
      intro o o' n n' agree₂ objects
      apply InStep.bind (evaluates agree₂ suitsValue)
      intro given given' n n' agree₃ alike'
      apply InStep.bind (setProperty_inStep agree₃ objects name.name alike')
      intro _ _ n n' agree₄ _
      exact InStep.ok agree₄ alike'
  | selfRef id line =>
      exact lookUp_inStep agree (suits.binds id (by simp [Expr.mentions])).2 suits.lowers _ _

/-! ## Classes -/

/-- Two tables of methods have twins under the same names. -/
def MethodsAlike (p : Pairing) (table table' : Table Closure) : Prop :=
  ∀ name : String, Option.Rel p.Twins table[name]? table'[name]?

theorem MethodsAlike.insert {table table' : Table Closure} (alike : MethodsAlike p table table')
    (name : String) {c c' : Closure} (twins : p.Twins c c') :
    MethodsAlike p (table.insert name c) (table'.insert name c') :=
  optionRel_insert alike name twins

theorem makeMethods_inStep {methods : List Routine} (agree : p.Agree m m') (frame : FrameId)
    {table table' : Table Closure} (alike : MethodsAlike p table table')
    (suits : p.Suits r (Stmt.mentionsMethods methods)) :
    InStep p (MethodsAlike p) (makeMethods frame table methods m)
      (makeMethods frame table' (Stmt.recastMethods r methods) m') := by
  induction methods generalizing m m' table table' with
  | nil => exact InStep.ok agree alike
  | cons routine rest ih =>
      obtain ⟨suitsBody, others⟩ := Pairing.suits_append.mp suits
      rw [Stmt.recastMethods_cons, makeMethods, makeMethods]
      apply InStep.bind (newIdentity_inStep agree)
      intro identity _ n n' agree₁ same
      subst same
      exact ih agree₁ (alike.insert _ ⟨rfl, rfl, rfl, r, suitsBody, rfl⟩) others

/-! ## Loops -/

theorem goesOn_inStep (evaluates : EvaluatesInStep p evaluate) {condition : Option Expr}
    (agree : p.Agree m m') (suits : p.Suits r (Expr.mentionsOption condition)) :
    InStep p (· = ·) (goesOn evaluate condition m)
      (goesOn evaluate (condition.map (Expr.recast r)) m') := by
  cases condition with
  | none => exact InStep.ok agree rfl
  | some condition =>
      apply InStep.bind (evaluates agree suits)
      intro value value' n n' agree₁ alike
      exact InStep.ok agree₁ alike.isTruthy_eq

theorem startLoop_inStep (evaluates : EvaluatesInStep p evaluate) {counter : Option LoopVar}
    (agree : p.Agree m m') (suits : p.Suits r (LoopVar.mentionsOption counter)) :
    InStep p (fun _ _ => True) (startLoop evaluate counter m)
      (startLoop evaluate (counter.map (LoopVar.recast r)) m') := by
  cases counter with
  | none => exact InStep.ok agree trivial
  | some counter =>
      apply InStep.bind (evaluates agree suits)
      intro value value' n n' agree₁ alike
      exact define_inStep agree₁ counter.name.name alike

theorem repeatLoop_inStep (evaluates : EvaluatesInStep p evaluate)
    (executes : ExecutesInStep p execute) {condition increment : Option Expr} {body : List Stmt}
    (suitsCondition : p.Suits r (Expr.mentionsOption condition))
    (suitsIncrement : p.Suits r (Expr.mentionsOption increment))
    (suitsBody : p.Suits r (Stmt.mentionsAll body)) (effort : Nat) (agree : p.Agree m m') :
    InStep p (FlowsAlike p) (repeatLoop evaluate execute condition increment body effort m)
      (repeatLoop evaluate execute (condition.map (Expr.recast r))
        (increment.map (Expr.recast r)) (Stmt.recastAll r body) effort m') := by
  induction effort generalizing m m' with
  | zero => exact InStep.spent agree
  | succ effort ih =>
      rw [repeatLoop, repeatLoop]
      apply InStep.bind (goesOn_inStep evaluates agree suitsCondition)
      intro goesOn _ n n' agree₁ same
      subst same
      cases goesOn with
      | false => exact InStep.ok agree₁ .next
      | true =>
          rw [if_pos rfl, if_pos rfl]
          apply InStep.bind (block_inStep executes agree₁ suitsBody)
          intro flow flow' n n' agree₂ flows
          cases flows with
          | exit alike => exact InStep.ok agree₂ (.exit alike)
          | next =>
              apply InStep.bind (evaluateOption_inStep evaluates agree₂ suitsIncrement)
              intro _ _ n n' agree₃ _
              exact ih agree₃

/-! ## Statements -/

/-- Statements are executed in step if their parts are. -/
theorem executeWith_inStep (evaluates : EvaluatesInStep p evaluate)
    (executes : ExecutesInStep p execute) (effort : Nat) {s : Stmt} (agree : p.Agree m m')
    (suits : p.Suits r s.mentions) :
    InStep p (FlowsAlike p) (executeWith evaluate execute effort s m)
      (executeWith evaluate execute effort (s.recast r) m') := by
  cases s with
  | expression e =>
      apply InStep.bind (evaluates agree suits)
      intro _ _ n n' agree₁ _
      exact InStep.ok agree₁ .next
  | print e =>
      apply InStep.bind (evaluates agree suits)
      intro value value' n n' agree₁ alike
      apply InStep.bind (print_inStep agree₁ alike)
      intro _ _ n n' agree₂ _
      exact InStep.ok agree₂ .next
  | declare name initializer =>
      apply InStep.bind (evaluateOption_inStep evaluates agree suits)
      intro value value' n n' agree₁ alike
      apply InStep.bind (define_inStep agree₁ name.name alike)
      intro _ _ n n' agree₂ _
      exact InStep.ok agree₂ .next
  | block body => exact block_inStep executes agree suits
  | function routine =>
      rw [Stmt.recast_function, executeWith, executeWith]
      apply InStep.bind (newIdentity_inStep agree)
      intro identity _ n n' agree₁ same
      subst same
      rw [get_bind, get_bind, ← agree₁.current_eq]
      refine InStep.bind (define_inStep agree₁ routine.name.name
        (.closure ⟨rfl, rfl, rfl, r, suits, rfl⟩)) ?_
      intro _ _ n n' agree₂ _
      exact InStep.ok agree₂ .next
  | branch condition thenBody elseBody =>
      cases elseBody with
      | none =>
          obtain ⟨suitsCondition, suitsThen⟩ := Pairing.suits_append.mp suits
          apply InStep.bind (evaluates agree suitsCondition)
          intro value value' n n' agree₁ alike
          rw [← alike.isTruthy_eq]
          by_cases holds : value.isTruthy = true
          · rw [if_pos holds, if_pos holds]
            exact block_inStep executes agree₁ suitsThen
          · rw [if_neg holds, if_neg holds]
            exact InStep.ok agree₁ .next
      | some body =>
          obtain ⟨suitsFront, suitsElse⟩ := Pairing.suits_append.mp suits
          obtain ⟨suitsCondition, suitsThen⟩ := Pairing.suits_append.mp suitsFront
          apply InStep.bind (evaluates agree suitsCondition)
          intro value value' n n' agree₁ alike
          rw [← alike.isTruthy_eq]
          by_cases holds : value.isTruthy = true
          · rw [if_pos holds, if_pos holds]
            exact block_inStep executes agree₁ suitsThen
          · rw [if_neg holds, if_neg holds]
            exact block_inStep executes agree₁ suitsElse
  | loop counter condition increment body =>
      obtain ⟨suitsHead, suitsBody⟩ := Pairing.suits_append.mp suits
      obtain ⟨suitsFront, suitsIncrement⟩ := Pairing.suits_append.mp suitsHead
      obtain ⟨suitsCounter, suitsCondition⟩ := Pairing.suits_append.mp suitsFront
      refine inNewFrame_inStep agree ?_
      intro n n' agree₁
      apply InStep.bind (startLoop_inStep evaluates agree₁ suitsCounter)
      intro _ _ n n' agree₂ _
      exact repeatLoop_inStep evaluates executes suitsCondition suitsIncrement suitsBody effort
        agree₂
  | exit line value =>
      apply InStep.bind (evaluateOption_inStep evaluates agree suits)
      intro value value' n n' agree₁ alike
      exact InStep.ok agree₁ (.exit alike)
  | classDef name methods =>
      rw [Stmt.recast, executeWith, executeWith, get_bind, get_bind, ← agree.current_eq]
      refine InStep.bind (makeMethods_inStep agree m.current ?_ suits) ?_
      · intro name
        rw [Std.TreeMap.getElem?_emptyc]
        exact .none
      · intro table table' n n' agree₁ alike
        apply InStep.bind (newIdentity_inStep agree₁)
        intro identity _ n n' agree₂ same
        subst same
        refine InStep.bind (define_inStep agree₂ name.name (.cls ⟨rfl, rfl, alike⟩)) ?_
        intro _ _ n n' agree₃ _
        exact InStep.ok agree₃ .next

/-! ## All effort -/

/-- Whatever the effort, code is run in step with the code that is recast. -/
theorem inStep_of_effort (hosts : AnswersInStep p host) (effort : Nat) :
    EvaluatesInStep p (Run.evaluate host effort) ∧ ExecutesInStep p (Run.execute host effort) := by
  induction effort with
  | zero =>
      constructor
      · intro m m' r e agree _
        exact InStep.spent agree
      · intro m m' r s agree _
        exact InStep.spent agree
  | succ effort ih =>
      constructor
      · intro m m' r e agree suits
        exact evaluateWith_inStep hosts ih.1 ih.2 agree suits
      · intro m m' r s agree suits
        exact executeWith_inStep ih.1 ih.2 effort agree suits

/-! ## Programs -/

/-- A program is run in step with the one that is recast. -/
theorem runProgram_inStep (hosts : AnswersInStep p host) (effort : Nat) {program : List Stmt}
    (agree : p.Agree m m') (suits : p.Suits r (Stmt.mentionsAll program)) :
    InStep p (fun _ _ => True) (runProgram host effort program m)
      (runProgram host effort (Stmt.recastAll r program) m') := by
  induction program generalizing m m' with
  | nil => exact InStep.ok agree trivial
  | cons s rest ih =>
      obtain ⟨first, others⟩ := Pairing.suits_append.mp suits
      rw [Stmt.recastAll, runProgram, runProgram]
      apply InStep.bind ((inStep_of_effort hosts effort).2 agree first)
      intro flow flow' n n' agree₁ flows
      cases flows with
      | next => exact ih agree₁ others
      | exit alike =>
          dsimp only
          rw [alike.text_eq]
          exact InStep.breach agree₁ _

end Rill.Run
