import Rill.Proofs.Counterpart.Steps

/-!
# Programs side by side

Akin expressions and statements are run side by side, by induction on the effort, and so are akin
programs, with the flushing of their output.
-/

namespace Rill.Run

variable {l : Ledgers} {p : Places} {frame : FrameId} {Γ : Spellings} {m m' : Machine}
  {host : Hosting} {evaluate : Expr → Run Value} {execute : Stmt → Run Flow}

/-! ## Expressions -/

theorem operate_together (stand : l.Stand p frame Γ m m')
    {result result' : Except OperandRule Value}
    (alike : ResultsAlike (l.likeness p) result result') (line : Nat) :
    Together l p frame Γ l.Alike (operate line result m) (operate line result' m') := by
  cases alike with
  | ok alike => exact Together.ok stand alike
  | error rule => exact Together.refuse stand _ _

theorem asObject_together (stand : l.Stand p frame Γ m m') {v v' : Value}
    (alike : l.Alike p v v') (line : Nat) :
    Together l p frame Γ (fun q => Object.Alike (l.likeness q)) (asObject line v m)
      (asObject line v' m') := by
  cases alike with
  | object objects => exact Together.ok stand objects
  | _ => exact Together.refuse stand _ _

/-- Expressions are evaluated side by side if their parts are. -/
theorem evaluateWith_together (hosts : AnswersTogether l host)
    (evaluates : EvaluatesTogether l evaluate) (executes : ExecutesTogether l execute)
    {e e' : Expr} (stand : l.Stand p frame Γ m m') (akin : Expr.Akin l Γ e e') :
    Together l p frame Γ l.Alike (evaluateWith host evaluate execute e m)
      (evaluateWith host evaluate execute e' m') := by
  cases akin with
  | literal value =>
      refine Together.ok stand ?_
      cases value with
      | number value => exact .number value
      | string text => exact .string text
      | bool value => exact .bool value
      | nil => exact .nil
  | group inner => exact evaluates stand inner
  | unary operator line operand =>
      apply Together.bind (evaluates stand operand)
      intro q value value' n n' _ stand₁ alike
      exact operate_together stand₁ (operator.apply_alike alike) line
  | binary operator line left right =>
      apply Together.bind (evaluates stand left)
      intro q₁ a a' n n' _ stand₁ first
      apply Together.bind (evaluates stand₁ right)
      intro q₂ b b' n n' grows stand₂ second
      exact operate_together stand₂
        (operator.apply_alike (first.imp (Ledgers.implies_of_grows grows)) second) line
  | logical operator left right =>
      apply Together.bind (evaluates stand left)
      intro q value value' n n' _ stand₁ alike
      rw [← operator.isDecidedBy_eq alike]
      by_cases decided : operator.isDecidedBy value = true
      · rw [if_pos decided, if_pos decided]
        exact Together.ok stand₁ alike
      · rw [if_neg decided, if_neg decided]
        exact evaluates stand₁ right
  | var matched spells =>
      rw [evaluateWith, evaluateWith, spells.name_eq, spells.line_eq]
      exact lookUp_together stand matched _ _
  | assign matched spells value =>
      rw [evaluateWith, evaluateWith, spells.name_eq, spells.line_eq]
      apply Together.bind (evaluates stand value)
      intro q₁ given given' n n' _ stand₁ alike
      apply Together.bind (assign_together stand₁ matched _ alike _)
      intro q₂ _ _ n n' grows stand₂ _
      exact Together.ok stand₂ (alike.imp (Ledgers.implies_of_grows grows))
  | call line callee arguments =>
      apply Together.bind (evaluates stand callee)
      intro q value value' n n' _ stand₁ alike
      exact callValue_together hosts evaluates executes stand₁ alike arguments line
  | get name object =>
      apply Together.bind (evaluates stand object)
      intro q₁ value value' n n' _ stand₁ alike
      apply Together.bind (asObject_together stand₁ alike name.line)
      intro q₂ o o' n n' _ stand₂ objects
      exact getProperty_together stand₂ objects name
  | set name object value =>
      apply Together.bind (evaluates stand object)
      intro q₁ held held' n n' _ stand₁ alike
      apply Together.bind (asObject_together stand₁ alike name.line)
      intro q₂ o o' n n' _ stand₂ objects
      apply Together.bind (evaluates stand₂ value)
      intro q₃ given given' n n' grows₃ stand₃ alike'
      apply Together.bind (setProperty_together stand₃
        (objects.imp (Ledgers.implies_of_grows grows₃)) name.name alike')
      intro q₄ _ _ n n' grows₄ stand₄ _
      exact Together.ok stand₄ (alike'.imp (Ledgers.implies_of_grows grows₄))
  | selfRef line matched =>
      have found := lookUp_together stand matched "self" line
      rw [Spelling.self_eq] at found
      exact found

/-! ## Classes -/

/-- Two tables of methods have twins under the same names. -/
def MethodsTogether (l : Ledgers) (p : Places) (table table' : Table Closure) : Prop :=
  ∀ name : String, Option.Rel (l.Twins p [.same]) table[name]? table'[name]?

theorem makeMethods_together {methods methods' : List Routine} (stand : l.Stand p frame Γ m m')
    {table table' : Table Closure} (alike : MethodsTogether l p table table')
    (akin : Stmt.AkinMethods l (.same :: Γ) methods methods') :
    Together l p frame Γ (MethodsTogether l) (makeMethods frame table methods m)
      (makeMethods frame table' methods' m') := by
  induction methods generalizing p m m' table table' methods' with
  | nil =>
      cases akin
      exact Together.ok stand alike
  | cons routine rest ih =>
      cases akin with
      | @cons _ _ routine' _ _ first others =>
          have initializes : routine.isInitializer = routine'.isInitializer := by
            rw [RoutineOf.isInitializer, RoutineOf.isInitializer, first.name_eq]
          rw [makeMethods, makeMethods, ← initializes, ← first.name_eq]
          apply Together.bind (newIdentity_together stand)
          intro q identity _ n n' grows stand₁ same
          subst same
          have twins : l.Twins q [.same] ⟨identity, routine, frame, routine.isInitializer⟩
              ⟨identity, routine', frame, routine.isInitializer⟩ :=
            ⟨rfl, rfl, rfl, Γ, stand₁.place, first⟩
          have kept (name : String) : Option.Rel (l.Twins q [.same]) table[name]? table'[name]? :=
            optionRel_mono (alike name) fun twins => twins.extend (.refl l) grows
          exact ih stand₁ (optionRel_insert kept routine.name.name twins) others

/-! ## Loops -/

theorem goesOn_together (evaluates : EvaluatesTogether l evaluate)
    {condition condition' : Option Expr} (stand : l.Stand p frame Γ m m')
    (akin : Expr.AkinOption l Γ condition condition') :
    Together l p frame Γ (fun _ goes goes' => goes = goes') (goesOn evaluate condition m)
      (goesOn evaluate condition' m') := by
  cases akin with
  | none => exact Together.ok stand rfl
  | some akin =>
      apply Together.bind (evaluates stand akin)
      intro q value value' n n' _ stand₁ alike
      exact Together.ok stand₁ alike.isTruthy_eq

theorem startLoop_together (evaluates : EvaluatesTogether l evaluate)
    {counter counter' : Option LoopVar} (stand : l.Stand p frame Γ m m')
    (akin : Option.Rel (LoopVar.Akin l Γ) counter counter') :
    Together l p frame Γ (fun _ _ _ => True) (startLoop evaluate counter m)
      (startLoop evaluate counter' m') := by
  cases akin with
  | none => exact Together.ok stand trivial
  | some akin =>
      rw [startLoop, startLoop, akin.name.name_eq]
      apply Together.bind (evaluates stand akin.value)
      intro q value value' n n' _ stand₁ alike
      exact define_together stand₁ _ alike

theorem repeatLoop_together (evaluates : EvaluatesTogether l evaluate)
    (executes : ExecutesTogether l execute)
    {condition condition' increment increment' : Option Expr}
    {body body' : List Stmt} {ρ : Spelling}
    (akinCondition : Expr.AkinOption l Γ condition condition')
    (akinIncrement : Expr.AkinOption l Γ increment increment')
    (akinBody : Stmt.AkinAll l (ρ :: Γ) body body') (effort : Nat)
    (stand : l.Stand p frame Γ m m') :
    Together l p frame Γ (FlowsTogether l)
      (repeatLoop evaluate execute condition increment body effort m)
      (repeatLoop evaluate execute condition' increment' body' effort m') := by
  induction effort generalizing p m m' with
  | zero => exact Together.error stand (.same _)
  | succ effort ih =>
      rw [repeatLoop, repeatLoop]
      apply Together.bind (goesOn_together evaluates stand akinCondition)
      intro q₁ goesOn _ n n' _ stand₁ same
      subst same
      cases goesOn with
      | false => exact Together.ok stand₁ .next
      | true =>
          rw [if_pos rfl, if_pos rfl]
          apply Together.bind (block_together executes stand₁ akinBody)
          intro q₂ flow flow' n n' _ stand₂ flows
          cases flows with
          | exit alike => exact Together.ok stand₂ (.exit alike)
          | next =>
              apply Together.bind (evaluateOption_together evaluates stand₂ akinIncrement)
              intro q₃ _ _ n n' _ stand₃ _
              exact ih stand₃

/-! ## Statements -/

/-- Statements are executed side by side if their parts are. -/
theorem executeWith_together (evaluates : EvaluatesTogether l evaluate)
    (executes : ExecutesTogether l execute) (effort : Nat) {s s' : Stmt}
    (stand : l.Stand p frame Γ m m') (akin : Stmt.Akin l Γ s s') :
    Together l p frame Γ (FlowsTogether l) (executeWith evaluate execute effort s m)
      (executeWith evaluate execute effort s' m') := by
  cases akin with
  | expression value =>
      apply Together.bind (evaluates stand value)
      intro q _ _ n n' _ stand₁ _
      exact Together.ok stand₁ .next
  | print value =>
      apply Together.bind (evaluates stand value)
      intro q₁ given given' n n' _ stand₁ alike
      apply Together.bind (print_together stand₁ alike)
      intro q₂ _ _ n n' _ stand₂ _
      exact Together.ok stand₂ .next
  | declare spells initializer =>
      rw [executeWith, executeWith, spells.name_eq]
      apply Together.bind (evaluateOption_together evaluates stand initializer)
      intro q₁ value value' n n' _ stand₁ alike
      apply Together.bind (define_together stand₁ _ alike)
      intro q₂ _ _ n n' _ stand₂ _
      exact Together.ok stand₂ .next
  | block ρ body => exact block_together executes stand body
  | @function _ routine routine' kept akin =>
      rw [executeWith, executeWith]
      apply Together.bind (newIdentity_together stand)
      intro q₁ identity _ n n' _ stand₁ same
      subst same
      rw [get_bind, get_bind, stand₁.current_eq, stand₁.current_eq', Closure.name, Closure.name,
        ← akin.name_eq]
      have twins : l.Twins q₁ [] ⟨identity, routine, frame, false⟩
          ⟨identity, routine', frame, false⟩ := ⟨rfl, rfl, rfl, Γ, stand₁.place, akin⟩
      have defined := define_together stand₁ routine.name.name (.closure twins)
      rw [kept] at defined
      apply Together.bind defined
      intro q₂ _ _ n n' _ stand₂ _
      exact Together.ok stand₂ .next
  | branch ρ condition thenBody elseBody =>
      apply Together.bind (evaluates stand condition)
      intro q value value' n n' _ stand₁ alike
      rw [← alike.isTruthy_eq]
      by_cases holds : value.isTruthy = true
      · rw [if_pos holds, if_pos holds]
        exact block_together executes stand₁ thenBody
      · rw [if_neg holds, if_neg holds]
        cases elseBody with
        | absent => exact Together.ok stand₁ .next
        | present ρ body => exact block_together executes stand₁ body
  | loop ρ σ counter condition increment body =>
      refine inNewFrame_together stand ρ ?_
      intro q new n n' _ inner
      apply Together.bind (startLoop_together evaluates inner counter)
      intro q₁ _ _ n n' _ inner₁ _
      exact repeatLoop_together evaluates executes condition increment body effort inner₁
  | exit line value =>
      apply Together.bind (evaluateOption_together evaluates stand value)
      intro q given given' n n' _ stand₁ alike
      exact Together.ok stand₁ (.exit alike)
  | @classDef _ methods methods' name kept akin =>
      rw [executeWith, executeWith, get_bind, get_bind, stand.current_eq, stand.current_eq']
      refine Together.bind (makeMethods_together stand ?_ akin) ?_
      · intro name
        rw [Std.TreeMap.getElem?_emptyc]
        exact .none
      · intro q₁ table table' n n' _ stand₁ alike
        apply Together.bind (newIdentity_together stand₁)
        intro q₂ identity _ n n' grows stand₂ same
        subst same
        have classes : Class.Alike (l.likeness q₂) ⟨identity, name.name, table⟩
            ⟨identity, name.name, table'⟩ :=
          ⟨rfl, rfl, fun key =>
            optionRel_mono (alike key) fun twins => twins.extend (.refl l) grows⟩
        have defined := define_together stand₂ name.name (.cls classes)
        rw [kept] at defined
        apply Together.bind defined
        intro q₃ _ _ n n' _ stand₃ _
        exact Together.ok stand₃ .next

/-! ## All effort -/

/-- Whatever the effort, akin code is run side by side. -/
theorem together_of_effort (hosts : AnswersTogether l host) (effort : Nat) :
    EvaluatesTogether l (Run.evaluate host effort) ∧
      ExecutesTogether l (Run.execute host effort) := by
  induction effort with
  | zero =>
      constructor
      · intro p frame Γ m m' e e' stand _
        exact Together.error stand (.same _)
      · intro p frame Γ m m' s s' stand _
        exact Together.error stand (.same _)
  | succ effort ih =>
      constructor
      · intro p frame Γ m m' e e' stand akin
        exact evaluateWith_together hosts ih.1 ih.2 stand akin
      · intro p frame Γ m m' s s' stand akin
        exact executeWith_together ih.1 ih.2 effort stand akin

/-! ## Programs -/

theorem runProgram_together (hosts : AnswersTogether l host) (effort : Nat)
    {program program' : List Stmt} (stand : l.Stand p frame Γ m m')
    (akin : Stmt.AkinAll l Γ program program') :
    Together l p frame Γ (fun _ _ _ => True) (runProgram host effort program m)
      (runProgram host effort program' m') := by
  induction program generalizing p m m' program' with
  | nil =>
      cases akin
      exact Together.ok stand trivial
  | cons s rest ih =>
      cases akin with
      | cons first others =>
          rw [runProgram, runProgram]
          apply Together.bind ((together_of_effort hosts effort).2 stand first)
          intro q flow flow' n n' _ stand₁ flows
          cases flows with
          | next => exact ih stand₁ others
          | exit alike => exact Together.breach stand₁ _ _

/-- Output is flushed in both runs or in neither, and a fault of flushing counts in both. -/
theorem interpret_together (hosts : AnswersTogether l host) (effort : Nat)
    {program program' : List Stmt} (stand : l.Stand p frame Γ m m')
    (akin : Stmt.AkinAll l Γ program program') :
    Together l p frame Γ (fun _ _ _ => True) (interpret host effort program m)
      (interpret host effort program' m') := by
  have ran := runProgram_together hosts effort stand akin
  unfold interpret
  revert ran
  generalize runProgram host effort program m = r
  generalize runProgram host effort program' m' = r'
  intro ran
  cases ran with
  | ok ended =>
      obtain ⟨q, grows, stand₁, _⟩ := ended
      exact (flush_together stand₁).weaken grows
  | @error halt _ n n' ended =>
      obtain ⟨⟨q, grows, stand₁⟩, alike⟩ := ended
      cases alike with
      | breach breach breach' => exact (Together.breach stand₁ breach breach').weaken grows
      | same =>
          cases halt with
          | breach | spent => exact (Together.error stand₁ (.same _)).weaken grows
          | fault | output =>
              have flushed := flush_together stand₁
              dsimp only
              revert flushed
              generalize flush n = f
              generalize flush n' = f'
              intro flushed
              cases flushed with
              | ok ended =>
                  obtain ⟨o, later, stand₂, _⟩ := ended
                  exact (Together.error stand₂ (.same _)).weaken (grows.trans later)
              | error ended =>
                  obtain ⟨⟨o, later, stand₂⟩, alike⟩ := ended
                  exact (Together.error stand₂ alike).weaken (grows.trans later)

end Rill.Run
