import Rill.Proofs.Relabelling.Steps

/-!
# Code under other identities

Every expression and every statement is carried to itself, whatever it calls and however far its
effort gets. So a program that is run on machines that agree comes to the same end on both, and
leaves machines that agree.
-/

namespace Rill

namespace Run

open Relabelling

variable {π : Relabelling} {next : Identity} {host : Hosting} {evaluate : Expr → Run Value}
  {execute : Stmt → Run Flow}

/-! ## Parts -/

/-- Every expression is carried to itself. -/
def EvaluatesCarried (π : Relabelling) (evaluate : Expr → Run Value) : Prop :=
  ∀ (next : Identity) (e : Expr),
    π.Carries next (Value.Relabelled π) (evaluate e) (evaluate e)

/-- Every statement is carried to itself. -/
def ExecutesCarried (π : Relabelling) (execute : Stmt → Run Flow) : Prop :=
  ∀ (next : Identity) (s : Stmt),
    π.Carries next (Flow.Relabelled π) (execute s) (execute s)

/-- Functions of the host do not tell relabelled values apart. -/
def AnswersCarried (π : Relabelling) (host : Hosting) : Prop :=
  ∀ {next : Identity} (call : Nat) (f : Native) {values values' : List Value},
    ValuesRelabelled π next values values' →
      (∃ v v', host.answer call f values = .ok v ∧ host.answer call f values' = .ok v' ∧
        v.Relabelled π next v') ∨
      ∃ message, host.answer call f values = .error message ∧
        host.answer call f values' = .error message

section Parts

variable (hosts : AnswersCarried π host) (evaluates : EvaluatesCarried π evaluate)
  (executes : ExecutesCarried π execute)

/-! ## Sequences -/

include executes in
theorem executeAll_carries (body : List Stmt) :
    π.Carries next (Flow.Relabelled π) (executeAll execute body) (executeAll execute body) := by
  induction body generalizing next with
  | nil => exact .pure fun _ => .next
  | cons s rest ih =>
      refine .bind (executes next s) fun _ flows => ?_
      cases flows with
      | next => exact ih
      | exit related => exact .pure fun le => .exit (related.cover (π.covers_of_le le))

include executes in
theorem block_carries (body : List Stmt) :
    π.Carries next (Flow.Relabelled π) (inNewFrame (executeAll execute body))
      (inNewFrame (executeAll execute body)) :=
  inNewFrame_carries (executeAll_carries executes body)

include evaluates in
theorem evaluateAll_carries (arguments : List Expr) :
    π.Carries next (ValuesRelabelled π) (evaluateAll evaluate arguments)
      (evaluateAll evaluate arguments) := by
  induction arguments generalizing next with
  | nil => exact .pure fun _ => .nil
  | cons e rest ih =>
      refine .bind (evaluates next e) fun _ first => .bind ih fun le others => ?_
      exact .pure fun le' => .cons (first.cover (π.covers_of_le (Nat.le_trans le le')))
        (others.cover (π.covers_of_le le'))

include evaluates in
theorem evaluateOption_carries (value : Option Expr) :
    π.Carries next (Value.Relabelled π) (evaluateOption evaluate value)
      (evaluateOption evaluate value) := by
  cases value with
  | none => exact return_carries .nil
  | some e => exact evaluates next e

/-! ## Calls -/

theorem bindParams_carries (frame : FrameId) (params : List Ident) {values values' : List Value}
    (related : ValuesRelabelled π next values values') :
    π.Carries next (fun _ _ _ => True) (bindParams frame params values)
      (bindParams frame params values') := by
  induction params generalizing next values values' with
  | nil => exact .pure fun _ => trivial
  | cons name names ih =>
      cases related with
      | nil => exact .pure fun _ => trivial
      | cons first others =>
          exact .bind (defineIn_carries frame name.name first) fun le _ =>
            ih (others.cover (π.covers_of_le le))

include executes in
theorem callClosure_carries {c c' : Closure} (closures : c.Relabelled π next c')
    {values values' : List Value} (arguments : ValuesRelabelled π next values values') :
    π.Carries next (Value.Relabelled π) (callClosure execute c values)
      (callClosure execute c' values') := by
  obtain ⟨_, rfl⟩ := closures
  refine .bind (newFrame_carries c.environment) ?_
  rintro first frame _ before rfl
  refine .bind (bindParams_carries frame c.routine.params
    (arguments.cover (π.covers_of_le before))) fun _ _ => ?_
  refine .bind (.inFrame frame (executeAll_carries executes c.routine.body)) fun _ flows => ?_
  refine .ite (.read fun {m m'} _ agree => ?_) ?_
  · rcases agree.getAt c.environment 0 "self" with
      ⟨value, value', here, here', alike⟩ | ⟨breach, broken, broken'⟩
    · rw [here, here']
      exact return_carries alike
    · rw [broken, broken']
      exact .throw _
  · cases flows with
    | next => exact return_carries .nil
    | exit related => exact return_carries related

include executes in
theorem instantiate_carries {c c' : Class} (classes : c.Relabelled π next c')
    {values values' : List Value} (arguments : ValuesRelabelled π next values values') :
    π.Carries next (Value.Relabelled π) (instantiate execute c values)
      (instantiate execute c' values') := by
  refine .bind (newObject_carries classes) fun before objects => ?_
  rcases optionRel_cases classes.initializer? with
    ⟨method, method', found, found', methods⟩ | ⟨absent, absent'⟩
  · rw [found, found']
    refine .bind (bind_carries (methods.cover (π.covers_of_le before)) objects) fun le bound => ?_
    refine .bind (callClosure_carries executes bound
      (arguments.cover (π.covers_of_le (Nat.le_trans before le)))) fun le' _ => ?_
    exact return_carries (.object (objects.cover (π.covers_of_le (Nat.le_trans le le'))))
  · rw [absent, absent']
    exact return_carries (.object objects)

include hosts in
theorem callNative_carries (f : Native) {values values' : List Value}
    (arguments : ValuesRelabelled π next values values') (line : Nat) :
    π.Carries next (Value.Relabelled π) (callNative host f values line)
      (callNative host f values' line) := by
  refine .bind countHostCall_carries ?_
  rintro later call _ before rfl
  rcases hosts call f (arguments.cover (π.covers_of_le before)) with
    ⟨v, v', answered, answered', related⟩ | ⟨message, failed, failed'⟩
  · rw [answered, answered']
    exact return_carries related
  · rw [failed, failed']
    exact .refuse _ _

include hosts executes in
theorem callWith_carries {values values' : List Value}
    (arguments : ValuesRelabelled π next values values') (line : Nat) {callee callee' : Value}
    (callees : callee.Relabelled π next callee') :
    π.Carries next (Value.Relabelled π) (callWith host execute values line callee)
      (callWith host execute values' line callee') := by
  cases callees with
  | closure closures => exact callClosure_carries executes closures arguments
  | native f => exact callNative_carries hosts f arguments line
  | cls classes => exact instantiate_carries executes classes arguments
  | _ => exact .refuse _ _

include hosts evaluates executes in
theorem callValue_carries {callee callee' : Value} (callees : callee.Relabelled π next callee')
    (arguments : List Expr) (line : Nat) :
    π.Carries next (Value.Relabelled π) (callValue host evaluate execute callee arguments line)
      (callValue host evaluate execute callee' arguments line) := by
  unfold callValue
  rw [← callees.arity?_eq]
  cases arity? callee with
  | none => exact .refuse _ _
  | some arity =>
      refine .bind (evaluateAll_carries evaluates arguments) fun le values => ?_
      rw [← values.length_eq]
      exact .ite (callWith_carries hosts executes values line
        (callees.cover (π.covers_of_le le))) (.refuse _ _)

/-! ## Expressions -/

theorem operate_carries {result result' : Except OperandRule Value}
    (results : ResultsRelabelled π next result result') (line : Nat) :
    π.Carries next (Value.Relabelled π) (operate line result) (operate line result') := by
  cases results with
  | ok related => exact return_carries related
  | error rule => exact .refuse _ _

theorem asObject_carries {v v' : Value} (related : v.Relabelled π next v') (line : Nat) :
    π.Carries next (Object.Relabelled π) (asObject line v) (asObject line v') := by
  cases related with
  | object objects => exact .pure fun le => objects.cover (π.covers_of_le le)
  | _ => exact .refuse _ _

include hosts evaluates executes in
/-- Expressions are carried to themselves if their parts are. -/
theorem evaluateWith_carries (e : Expr) :
    π.Carries next (Value.Relabelled π) (evaluateWith host evaluate execute e)
      (evaluateWith host evaluate execute e) := by
  cases e with
  | literal value => exact return_carries (.ofLiteral value)
  | group inner => exact evaluates next inner
  | unary operator operand line =>
      exact .bind (evaluates next operand) fun _ related =>
        operate_carries (operator.apply_relabelled related) line
  | binary left operator right line =>
      refine .bind (evaluates next left) fun _ first => ?_
      refine .bind (evaluates _ right) fun le second => ?_
      exact operate_carries
        (operator.apply_relabelled (first.cover (π.covers_of_le le)) second) line
  | logical left operator right =>
      refine .bind (evaluates next left) fun _ related => ?_
      rw [← operator.isDecidedBy_relabelled related]
      exact .ite (return_carries related) (evaluates _ right)
  | var id name => exact lookUp_carries id name.name name.line
  | assign id name value =>
      refine .bind (evaluates next value) fun _ related => ?_
      exact .bind (assign_carries id name.name related name.line) fun le _ =>
        return_carries (related.cover (π.covers_of_le le))
  | call callee arguments line =>
      exact .bind (evaluates next callee) fun _ callees =>
        callValue_carries hosts evaluates executes callees arguments line
  | get object name =>
      refine .bind (evaluates next object) fun _ related => ?_
      exact .bind (asObject_carries related name.line) fun _ objects =>
        getProperty_carries objects name
  | set object name value =>
      refine .bind (evaluates next object) fun _ held => ?_
      refine .bind (asObject_carries held name.line) fun _ objects => ?_
      refine .bind (evaluates _ value) fun le related => ?_
      exact .bind (setProperty_carries (objects.cover (π.covers_of_le le)) name.name related)
        fun le' _ => return_carries (related.cover (π.covers_of_le le'))
  | selfRef id line => exact lookUp_carries id "self" line

/-! ## Statements -/

theorem makeMethods_carries (frame : FrameId) {table table' : Table Closure}
    (methods : MethodsRelabelled π next table table') (routines : List Routine) :
    π.Carries next (MethodsRelabelled π) (makeMethods frame table routines)
      (makeMethods frame table' routines) := by
  induction routines generalizing next table table' with
  | nil => exact .pure fun le => methods.cover (π.covers_of_le le)
  | cons routine rest ih =>
      refine .bind newIdentity_carries ?_
      rintro later identity _ le ⟨given, rfl⟩
      exact ih ((methods.cover (π.covers_of_le le)).insert routine.name.name ⟨given, rfl⟩)

include evaluates in
theorem goesOn_carries (condition : Option Expr) :
    π.Carries next (fun _ => Eq) (goesOn evaluate condition) (goesOn evaluate condition) := by
  cases condition with
  | none => exact .pure fun _ => rfl
  | some e =>
      exact .bind (evaluates next e) fun _ related => .pure fun _ => related.isTruthy_eq

include evaluates executes in
theorem repeatLoop_carries (condition increment : Option Expr) (body : List Stmt) (effort : Nat) :
    π.Carries next (Flow.Relabelled π)
      (repeatLoop evaluate execute condition increment body effort)
      (repeatLoop evaluate execute condition increment body effort) := by
  induction effort generalizing next with
  | zero => exact .throw _
  | succ effort ih =>
      refine .bind (goesOn_carries evaluates condition) ?_
      rintro later goes _ _ rfl
      refine .ite (.bind (block_carries executes body) fun _ flows => ?_) (.pure fun _ => .next)
      cases flows with
      | next => exact .bind (evaluateOption_carries evaluates increment) fun _ _ => ih
      | exit related => exact .pure fun le => .exit (related.cover (π.covers_of_le le))

include evaluates in
theorem startLoop_carries (counter : Option LoopVar) :
    π.Carries next (fun _ _ _ => True) (startLoop evaluate counter)
      (startLoop evaluate counter) := by
  cases counter with
  | none => exact .pure fun _ => trivial
  | some counter =>
      exact .bind (evaluates next counter.value) fun _ related => define_carries _ related

include evaluates executes in
/-- Statements are carried to themselves if their parts are. -/
theorem executeWith_carries (effort : Nat) (s : Stmt) :
    π.Carries next (Flow.Relabelled π) (executeWith evaluate execute effort s)
      (executeWith evaluate execute effort s) := by
  cases s with
  | expression e => exact .bind (evaluates next e) fun _ _ => .pure fun _ => .next
  | print e =>
      exact .bind (evaluates next e) fun _ related =>
        .bind (print_carries related) fun _ _ => .pure fun _ => .next
  | declare name initializer =>
      exact .bind (evaluateOption_carries evaluates initializer) fun _ related =>
        .bind (define_carries name.name related) fun _ _ => .pure fun _ => .next
  | block body => exact block_carries executes body
  | function routine =>
      refine .bind newIdentity_carries ?_
      rintro first identity _ _ ⟨given, rfl⟩
      refine .read fun {m m'} le agree => ?_
      rw [← agree.current_eq]
      have made : Value.Relabelled π m.nextIdentity
          (.closure ⟨identity, routine, m.current, false⟩)
          (.closure ⟨π.label identity, routine, m.current, false⟩) :=
        .closure ⟨Nat.lt_of_lt_of_le given le, rfl⟩
      exact .bind (define_carries _ made) fun _ _ => .pure fun _ => .next
  | branch condition thenBody elseBody =>
      refine .bind (evaluates next condition) fun _ related => ?_
      rw [← related.isTruthy_eq]
      refine .ite (block_carries executes thenBody) ?_
      cases elseBody with
      | none => exact .pure fun _ => .next
      | some body => exact block_carries executes body
  | loop counter condition increment body =>
      exact inNewFrame_carries (.bind (startLoop_carries evaluates counter) fun _ _ =>
        repeatLoop_carries evaluates executes condition increment body effort)
  | exit line value =>
      exact .bind (evaluateOption_carries evaluates value) fun _ related =>
        .pure fun le => .exit (related.cover (π.covers_of_le le))
  | classDef name methods =>
      refine .read fun {m m'} _ agree => ?_
      rw [← agree.current_eq]
      refine .bind (makeMethods_carries m.current methodsRelabelled_empty methods)
        fun _ tables => ?_
      refine .bind newIdentity_carries ?_
      rintro later identity _ le ⟨given, rfl⟩
      have made : Class.Relabelled π later ⟨identity, name.name, _⟩
          ⟨π.label identity, name.name, _⟩ :=
        ⟨given, rfl, rfl, tables.cover (π.covers_of_le le)⟩
      exact .bind (define_carries name.name (.cls made)) fun _ _ => .pure fun _ => .next

end Parts

/-! ## All effort -/

/-- Whatever the effort, every expression and every statement is carried to itself. -/
theorem carried_of_effort (hosts : AnswersCarried π host) (effort : Nat) :
    EvaluatesCarried π (Run.evaluate host effort) ∧
      ExecutesCarried π (Run.execute host effort) := by
  induction effort with
  | zero => exact ⟨fun _ _ => .throw _, fun _ _ => .throw _⟩
  | succ effort ih =>
      obtain ⟨evaluates, executes⟩ := ih
      exact ⟨fun _ => evaluateWith_carries hosts evaluates executes,
        fun _ => executeWith_carries evaluates executes effort⟩

/-! ## Programs -/

theorem runProgram_carries (hosts : AnswersCarried π host) (effort : Nat)
    (program : List Stmt) :
    π.Carries next (fun _ _ _ => True) (runProgram host effort program)
      (runProgram host effort program) := by
  induction program generalizing next with
  | nil => exact .pure fun _ => trivial
  | cons s rest ih =>
      refine .bind ((carried_of_effort hosts effort).2 next s) fun _ flows => ?_
      cases flows with
      | next => exact ih
      | exit related =>
          dsimp only
          rw [related.text_eq]
          exact .throw _

end Run

/-! ## Ends -/

/-- Two programs came to the same end, on machines that agree. -/
def Relabelling.SameEnd (π : Relabelling) :
    EStateM.Result Halt Machine Unit → EStateM.Result Halt Machine Unit → Prop :=
  EndsAlike (fun _ n _ n' => π.Agree n n') fun halt n halt' n' => halt = halt' ∧ π.Agree n n'

namespace Run

open Relabelling

variable {π : Relabelling} {host : Hosting} {effort : Nat} {program program' : List Stmt}
  {m m' : Machine}

theorem runProgram_sameEnd (hosts : AnswersCarried π host) (effort : Nat) (program : List Stmt)
    (agree : π.Agree m m') :
    π.SameEnd (runProgram host effort program m) (runProgram host effort program m') :=
  (runProgram_carries hosts effort program m m' (Nat.le_refl _) agree).mono (·.2.1) id

theorem flush_sameEnd (agree : π.Agree m m') : π.SameEnd (flush m) (flush m') :=
  (flush_carries m m' (Nat.le_refl _) agree).mono (·.2.1) id

/-- Output is flushed in both runs or in neither, and a fault of flushing counts in both. -/
theorem interpret_sameEnd
    (ends : π.SameEnd (runProgram host effort program m) (runProgram host effort program' m')) :
    π.SameEnd (interpret host effort program m) (interpret host effort program' m') := by
  unfold interpret
  rcases ends.ok_or_error with
    ⟨_, n, _, n', ran, ran', agree⟩ | ⟨halt, n, _, n', ran, ran', rfl, agree⟩
  · rw [ran, ran']
    exact flush_sameEnd agree
  · rw [ran, ran']
    cases halt with
    | breach | spent => exact .error ⟨rfl, agree⟩
    | fault | output =>
        dsimp only
        rcases (flush_sameEnd agree).ok_or_error with
          ⟨_, k, _, k', flushed, flushed', agree⟩ | ⟨_, k, _, k', flushed, flushed', rfl, agree⟩
        · rw [flushed, flushed']
          exact .error ⟨rfl, agree⟩
        · rw [flushed, flushed']
          exact .error ⟨rfl, agree⟩

end Run

end Rill
