import Rill.Proofs.Joining.Pairing
import Rill.Proofs.Machine.Lockstep
import Rill.Proofs.Machine.Variables

/-!
# Runs in step

Two runs are in step if, on paired machines, they give alike answers or halt for the same reason,
and leave paired machines. Whatever reads or changes a machine does so in step with its counterpart,
and so do calls, if the statements of functions do.
-/

namespace Rill

variable {α α' β β' : Type}

/-- Two runs were in step. -/
def InStep (p : Pairing) (related : α → β → Prop) :
    EStateM.Result Halt Machine α → EStateM.Result Halt Machine β → Prop :=
  EndsAlike (fun a m b m' => p.Agree m m' ∧ related a b)
    (fun halt m halt' m' => p.Agree m m' ∧ p.HaltsAlike halt halt')

namespace InStep

variable {p : Pairing} {m m' : Machine} {related : α → β → Prop} {between : α' → β' → Prop}

theorem ok {a : α} {b : β} (agree : p.Agree m m') (alike : related a b) :
    InStep p related (.ok a m) (.ok b m') :=
  EndsAlike.ok ⟨agree, alike⟩

theorem breach (agree : p.Agree m m') (breach : Breach) :
    InStep p related (.error (.breach breach) m) (.error (.breach breach) m') :=
  EndsAlike.error ⟨agree, .breach breach⟩

theorem spent (agree : p.Agree m m') : InStep p related (.error .spent m) (.error .spent m') :=
  EndsAlike.error ⟨agree, .spent⟩

theorem refuse (agree : p.Agree m m') {lines : Nat} (lowers : p.Lowers lines) (line : Nat)
    (cause : RuntimeCause) :
    InStep p related (Run.refuse line cause m) (Run.refuse (line + lines) cause m') :=
  EndsAlike.error ⟨agree, .fault line cause lowers⟩

/-- What follows is compared on the machines that the first parts leave. -/
theorem bind {x : Run α'} {y : Run β'} {f : α' → Run α} {g : β' → Run β}
    (first : InStep p between (x m) (y m'))
    (next : ∀ {a b n n'}, p.Agree n n' → between a b → InStep p related (f a n) (g b n')) :
    InStep p related ((x >>= f) m) ((y >>= g) m') :=
  EndsAlike.bind first fun ended => next ended.1 ended.2

end InStep

namespace Run

variable {p : Pairing} {m m' : Machine} {related : α → β → Prop} {r : Recast}

/-! ## Frames and variables -/

theorem newFrame_inStep (agree : p.Agree m m') (enclosing : FrameId) :
    InStep p (· = ·) (newFrame enclosing m) (newFrame enclosing m') :=
  InStep.ok (agree.addFrame enclosing) agree.nextId_eq

theorem newIdentity_inStep (agree : p.Agree m m') :
    InStep p (· = ·) (newIdentity m) (newIdentity m') :=
  InStep.ok agree.newIdentity agree.nextIdentity_eq

theorem countHostCall_inStep (agree : p.Agree m m') :
    InStep p (· = ·) (countHostCall m) (countHostCall m') :=
  InStep.ok agree.countHostCall agree.hostCalls_eq

theorem defineIn_inStep (agree : p.Agree m m') (frame : FrameId) (name : String)
    {value value' : Value} (alike : p.Alike value value') :
    InStep p (fun _ _ => True) (defineIn frame name value m) (defineIn frame name value' m') :=
  InStep.ok (agree.define frame name alike) trivial

theorem define_inStep (agree : p.Agree m m') (name : String) {value value' : Value}
    (alike : p.Alike value value') :
    InStep p (fun _ _ => True) (define name value m) (define name value' m') := by
  have after := agree.define m.current name alike
  have frames : m'.forest.define m.current name value' =
      m'.forest.define m'.current name value' := by rw [agree.current_eq]
  rw [frames] at after
  exact InStep.ok after trivial

/-- A frame is current for a while in both runs. -/
theorem inFrame_inStep (agree : p.Agree m m') (frame : FrameId) {body : Run α} {body' : Run β}
    (runs : ∀ {n n'}, p.Agree n n' → InStep p related (body n) (body' n')) :
    InStep p related (inFrame frame body m) (inFrame frame body' m') := by
  have ended := runs (agree.setCurrent frame)
  unfold inFrame
  rw [← agree.current_eq]
  revert ended
  dsimp only
  generalize body { m with current := frame } = result
  generalize body' { m' with current := frame } = result'
  intro ended
  cases ended with
  | ok ended => exact InStep.ok (ended.1.setCurrent m.current) ended.2
  | error ended => exact EndsAlike.error ⟨ended.1.setCurrent m.current, ended.2⟩

theorem inNewFrame_inStep (agree : p.Agree m m') {body : Run α} {body' : Run β}
    (runs : ∀ {n n'}, p.Agree n n' → InStep p related (body n) (body' n')) :
    InStep p related (inNewFrame body m) (inNewFrame body' m') := by
  rw [inNewFrame, inNewFrame, get_bind, get_bind, ← agree.current_eq]
  apply InStep.bind (newFrame_inStep agree m.current)
  intro frame _ n n' agree' same
  subst same
  exact inFrame_inStep agree' frame runs

/-- A name is read where it is bound, or from the globals. -/
theorem lookUp_inStep (agree : p.Agree m m') {id id' : Occurrence}
    (bound : p.ledger.bindings[id]? = p.table[id']?) {lines : Nat} (lowers : p.Lowers lines)
    (name : String) (line : Nat) :
    InStep p p.Alike (lookUp id name line m) (lookUp id' name (line + lines) m') := by
  rw [← agree.bindings_eq, ← agree.table_eq] at bound
  cases found : m.bindings[id]? with
  | some depth =>
      rw [lookUp, lookUp, get_bind, get_bind, ← bound, found, ← agree.current_eq]
      dsimp only
      rcases agree.getAt m.current depth name with
        ⟨value, value', here, here', alike⟩ | ⟨breach, broken, broken'⟩
      · rw [here, here']
        exact InStep.ok agree alike
      · rw [broken, broken']
        exact InStep.breach agree breach
  | none =>
      rw [found] at bound
      rcases optionRel_cases (agree.slots Machine.globals name) with
        ⟨value, value', here, here', alike⟩ | ⟨absent, absent'⟩
      · rw [lookUp_of_global found here, lookUp_of_global bound.symm here']
        exact InStep.ok agree alike
      · rw [lookUp_of_undefined found absent, lookUp_of_undefined bound.symm absent']
        exact EndsAlike.error ⟨agree, .fault line _ lowers⟩

/-- A name is written where it is bound, or among the globals. -/
theorem assign_inStep (agree : p.Agree m m') {id id' : Occurrence}
    (bound : p.ledger.bindings[id]? = p.table[id']?) {lines : Nat} (lowers : p.Lowers lines)
    (name : String) {value value' : Value} (alike : p.Alike value value') (line : Nat) :
    InStep p (fun _ _ => True) (assign id name value line m)
      (assign id' name value' (line + lines) m') := by
  rw [← agree.bindings_eq, ← agree.table_eq] at bound
  cases found : m.bindings[id]? with
  | some depth =>
      rw [assign, assign, get_bind, get_bind, ← bound, found, ← agree.current_eq]
      dsimp only
      rw [← agree.ownerAt_eq]
      cases m.forest.ownerAt m.current depth with
      | ok owner => exact defineIn_inStep agree owner name alike
      | error breach => exact InStep.breach agree breach
  | none =>
      rw [found] at bound
      rcases optionRel_cases (agree.slots Machine.globals name) with
        ⟨old, old', here, here', _⟩ | ⟨absent, absent'⟩
      · rw [assign_of_global found here, assign_of_global bound.symm here']
        exact InStep.ok (agree.define Machine.globals name alike) trivial
      · rw [assign_of_undefined found absent, assign_of_undefined bound.symm absent']
        exact EndsAlike.error ⟨agree, .fault line _ lowers⟩

/-! ## Output -/

theorem write_inStep (agree : p.Agree m m') (text : String) :
    InStep p (fun _ _ => True) (write text m) (write text m') := by
  unfold write
  rw [get_bind, get_bind, ← agree.sink_eq, agree.neverFails.write_eq]
  exact InStep.ok (agree.setSink (agree.neverFails.take _)) trivial

theorem print_inStep (agree : p.Agree m m') {value value' : Value}
    (alike : p.Alike value value') :
    InStep p (fun _ _ => True) (print value m) (print value' m') := by
  rw [print, print, alike.text_eq]
  apply InStep.bind (write_inStep agree _)
  intro _ _ n n' agree' _
  exact write_inStep agree' "\n"

/-! ## Instances -/

theorem newObject_inStep (agree : p.Agree m m') {c c' : Class} (alike : c.Alike p.likeness c') :
    InStep p (Object.Alike p.likeness) (newObject c m) (newObject c' m') := by
  apply InStep.bind (newIdentity_inStep agree)
  intro identity _ n n' agree' same
  subst same
  exact InStep.ok (agree'.setFields identity tablesAlike_empty) ⟨rfl, alike⟩

/-- A method that is bound to an instance is a function of its own in both runs. -/
theorem bind_inStep (agree : p.Agree m m') {method method' : Closure}
    (twins : p.Twins method method') {o o' : Object} (objects : o.Alike p.likeness o') :
    InStep p p.Twins (Run.bind method o m) (Run.bind method' o' m') := by
  rw [Run.bind, Run.bind, ← twins.environment_eq]
  apply InStep.bind (newFrame_inStep agree method.environment)
  intro frame _ n n' agree₁ same
  subst same
  apply InStep.bind (defineIn_inStep agree₁ frame "self" (.object objects))
  intro _ _ n n' agree₂ _
  apply InStep.bind (newIdentity_inStep agree₂)
  intro identity _ n n' agree₃ same
  subst same
  exact InStep.ok agree₃ ⟨rfl, rfl, twins.isInitializer_eq, twins.recast⟩

theorem getProperty_inStep (agree : p.Agree m m') {o o' : Object}
    (objects : o.Alike p.likeness o') {lines : Nat} (lowers : p.Lowers lines) (name : Ident) :
    InStep p p.Alike (getProperty o name m) (getProperty o' (name.lower lines) m') := by
  rw [getProperty, getProperty, get_bind, get_bind, Ident.lower_name]
  rcases optionRel_cases (agree.fieldsOf objects name.name) with
    ⟨value, value', here, here', alike⟩ | ⟨absent, absent'⟩
  · rw [here, here']
    exact InStep.ok agree alike
  · rw [absent, absent']
    dsimp only
    rcases optionRel_cases (objects.cls.methods name.name) with
      ⟨method, method', found, found', twins⟩ | ⟨unknown, unknown'⟩
    · rw [found, found']
      apply InStep.bind (bind_inStep agree twins objects)
      intro c c' n n' agree' twins'
      exact InStep.ok agree' (.closure twins')
    · rw [unknown, unknown']
      exact InStep.refuse agree lowers _ _

theorem setProperty_inStep (agree : p.Agree m m') {o o' : Object}
    (objects : o.Alike p.likeness o') (name : String) {value value' : Value}
    (alike : p.Alike value value') :
    InStep p (fun _ _ => True) (setProperty o name value m) (setProperty o' name value' m') := by
  have after := agree.setFields o.identity ((agree.fieldsOf objects).insert name alike)
  refine InStep.ok ?_ trivial
  rw [← objects.identity_eq]
  exact after

/-! ## Calls -/

/-- Two statements ended alike. -/
inductive FlowsAlike (p : Pairing) : Flow → Flow → Prop
  | next : FlowsAlike p .next .next
  | exit {v v' : Value} : p.Alike v v' → FlowsAlike p (.exit v) (.exit v')

/-- Expressions that a recast suits are evaluated in step with the recast ones. -/
def EvaluatesInStep (p : Pairing) (evaluate : Expr → Run Value) : Prop :=
  ∀ {m m' : Machine} {r : Recast} {e : Expr}, p.Agree m m' → p.Suits r e.mentions →
    InStep p p.Alike (evaluate e m) (evaluate (e.recast r) m')

/-- Statements that a recast suits are executed in step with the recast ones. -/
def ExecutesInStep (p : Pairing) (execute : Stmt → Run Flow) : Prop :=
  ∀ {m m' : Machine} {r : Recast} {s : Stmt}, p.Agree m m' → p.Suits r s.mentions →
    InStep p (FlowsAlike p) (execute s m) (execute (s.recast r) m')

/-- What a host answers has no code in it. -/
def AnswersInStep (p : Pairing) (host : Hosting) : Prop :=
  ∀ (call : Nat) (f : Native) {values values' : List Value}, ValuesAlike p.likeness values values' →
    (∃ value value', host.answer call f values = .ok value ∧
      host.answer call f values' = .ok value' ∧ p.Alike value value') ∨
    ∃ message, host.answer call f values = .error message ∧
      host.answer call f values' = .error message

variable {host : Hosting} {evaluate : Expr → Run Value} {execute : Stmt → Run Flow}

theorem executeAll_inStep (executes : ExecutesInStep p execute) {body : List Stmt}
    (agree : p.Agree m m') (suits : p.Suits r (Stmt.mentionsAll body)) :
    InStep p (FlowsAlike p) (executeAll execute body m)
      (executeAll execute (Stmt.recastAll r body) m') := by
  induction body generalizing m m' with
  | nil => exact InStep.ok agree .next
  | cons s rest ih =>
      obtain ⟨first, others⟩ := Pairing.suits_append.mp suits
      rw [Stmt.recastAll, executeAll, executeAll]
      apply InStep.bind (executes agree first)
      intro flow flow' n n' agree' flows
      cases flows with
      | next => exact ih agree' others
      | exit alike => exact InStep.ok agree' (.exit alike)

theorem block_inStep (executes : ExecutesInStep p execute) {body : List Stmt}
    (agree : p.Agree m m') (suits : p.Suits r (Stmt.mentionsAll body)) :
    InStep p (FlowsAlike p) (inNewFrame (executeAll execute body) m)
      (inNewFrame (executeAll execute (Stmt.recastAll r body)) m') :=
  inNewFrame_inStep agree fun agree' => executeAll_inStep executes agree' suits

theorem bindParams_inStep (agree : p.Agree m m') (frame : FrameId) (lines : Nat)
    {values values' : List Value} (alike : ValuesAlike p.likeness values values')
    (params : List Ident) :
    InStep p (fun _ _ => True) (bindParams frame params values m)
      (bindParams frame (params.map (Ident.lower lines)) values' m') := by
  induction alike generalizing params m m' with
  | nil => cases params <;> exact InStep.ok agree trivial
  | cons first _ ih =>
      cases params with
      | nil => exact InStep.ok agree trivial
      | cons name names =>
          rw [List.map_cons, bindParams, bindParams, Ident.lower_name]
          apply InStep.bind (defineIn_inStep agree frame name.name first)
          intro _ _ n n' agree' _
          exact ih agree' names

/-- A function is called in step with its twin. -/
theorem callClosure_inStep (executes : ExecutesInStep p execute) (agree : p.Agree m m')
    {c c' : Closure} (twins : p.Twins c c') {values values' : List Value}
    (arguments : ValuesAlike p.likeness values values') :
    InStep p p.Alike (callClosure execute c values m) (callClosure execute c' values' m') := by
  obtain ⟨r, suits, recast⟩ := twins.recast
  rw [callClosure, callClosure, ← twins.environment_eq, ← twins.isInitializer_eq, recast]
  apply InStep.bind (newFrame_inStep agree c.environment)
  intro frame _ n n' agree₁ same
  subst same
  apply InStep.bind (bindParams_inStep agree₁ frame r.lines arguments c.routine.params)
  intro _ _ n n' agree₂ _
  refine InStep.bind (inFrame_inStep agree₂ frame
    fun agree' => executeAll_inStep executes agree' suits) ?_
  intro flow flow' n n' agree₃ flows
  by_cases initializes : c.isInitializer = true
  · rw [if_pos initializes, if_pos initializes, get_bind, get_bind]
    rcases agree₃.getAt c.environment 0 "self" with
      ⟨value, value', here, here', alike⟩ | ⟨breach, broken, broken'⟩
    · rw [here, here']
      exact InStep.ok agree₃ alike
    · rw [broken, broken']
      exact InStep.breach agree₃ breach
  · rw [if_neg initializes, if_neg initializes]
    cases flows with
    | next => exact InStep.ok agree₃ .nil
    | exit alike => exact InStep.ok agree₃ alike

theorem instantiate_inStep (executes : ExecutesInStep p execute) (agree : p.Agree m m')
    {c c' : Class} (alike : c.Alike p.likeness c') {values values' : List Value}
    (arguments : ValuesAlike p.likeness values values') :
    InStep p p.Alike (instantiate execute c values m) (instantiate execute c' values' m') := by
  rw [instantiate, instantiate]
  apply InStep.bind (newObject_inStep agree alike)
  intro o o' n n' agree₁ objects
  rcases optionRel_cases alike.initializer? with
    ⟨method, method', found, found', twins⟩ | ⟨absent, absent'⟩
  · rw [found, found']
    apply InStep.bind (bind_inStep agree₁ twins objects)
    intro bound bound' n n' agree₂ boundTwins
    apply InStep.bind (callClosure_inStep executes agree₂ boundTwins arguments)
    intro _ _ n n' agree₃ _
    exact InStep.ok agree₃ (.object objects)
  · rw [absent, absent']
    exact InStep.ok agree₁ (.object objects)

theorem callNative_inStep (hosts : AnswersInStep p host) (agree : p.Agree m m') (f : Native)
    {values values' : List Value} (arguments : ValuesAlike p.likeness values values')
    {lines : Nat} (lowers : p.Lowers lines) (line : Nat) :
    InStep p p.Alike (callNative host f values line m)
      (callNative host f values' (line + lines) m') := by
  rw [callNative, callNative]
  apply InStep.bind (countHostCall_inStep agree)
  intro call _ n n' agree' same
  subst same
  rcases hosts call f arguments with
    ⟨value, value', answer, answer', alike⟩ | ⟨message, answer, answer'⟩
  · rw [answer, answer']
    exact InStep.ok agree' alike
  · rw [answer, answer']
    exact InStep.refuse agree' lowers _ _

theorem callWith_inStep (hosts : AnswersInStep p host) (executes : ExecutesInStep p execute)
    (agree : p.Agree m m') {callee callee' : Value} (alike : p.Alike callee callee')
    {values values' : List Value} (arguments : ValuesAlike p.likeness values values')
    {lines : Nat} (lowers : p.Lowers lines) (line : Nat) :
    InStep p p.Alike (callWith host execute values line callee m)
      (callWith host execute values' (line + lines) callee' m') := by
  cases alike with
  | closure twins => exact callClosure_inStep executes agree twins arguments
  | native f => exact callNative_inStep hosts agree f arguments lowers line
  | cls classes => exact instantiate_inStep executes agree classes arguments
  | _ => exact InStep.refuse agree lowers _ _

theorem evaluateAll_inStep (evaluates : EvaluatesInStep p evaluate) {arguments : List Expr}
    (agree : p.Agree m m') (suits : p.Suits r (Expr.mentionsAll arguments)) :
    InStep p (ValuesAlike p.likeness) (evaluateAll evaluate arguments m)
      (evaluateAll evaluate (Expr.recastAll r arguments) m') := by
  induction arguments generalizing m m' with
  | nil => exact InStep.ok agree .nil
  | cons e rest ih =>
      obtain ⟨first, others⟩ := Pairing.suits_append.mp suits
      rw [Expr.recastAll, evaluateAll, evaluateAll]
      apply InStep.bind (evaluates agree first)
      intro value value' n n' agree₁ alike
      apply InStep.bind (ih agree₁ others)
      intro values values' n n' agree₂ given
      exact InStep.ok agree₂ (.cons alike given)

theorem evaluateOption_inStep (evaluates : EvaluatesInStep p evaluate) {value : Option Expr}
    (agree : p.Agree m m') (suits : p.Suits r (Expr.mentionsOption value)) :
    InStep p p.Alike (evaluateOption evaluate value m)
      (evaluateOption evaluate (value.map (Expr.recast r)) m') := by
  cases value with
  | none => exact InStep.ok agree .nil
  | some e => exact evaluates agree suits

/-- What is called, and with what, is the same in both runs. -/
theorem callValue_inStep (hosts : AnswersInStep p host) (evaluates : EvaluatesInStep p evaluate)
    (executes : ExecutesInStep p execute) (agree : p.Agree m m') {callee callee' : Value}
    (alike : p.Alike callee callee') {arguments : List Expr}
    (suits : p.Suits r (Expr.mentionsAll arguments)) (line : Nat) :
    InStep p p.Alike (callValue host evaluate execute callee arguments line m)
      (callValue host evaluate execute callee' (Expr.recastAll r arguments) (line + r.lines)
        m') := by
  rw [callValue, callValue, ← alike.arity?_eq]
  cases arity? callee with
  | none => exact InStep.refuse agree suits.lowers _ _
  | some arity =>
      apply InStep.bind (evaluateAll_inStep evaluates agree suits)
      intro values values' n n' agree' given
      rw [← given.length_eq]
      by_cases enough : values.length = arity
      · rw [if_pos enough, if_pos enough]
        exact callWith_inStep hosts executes agree' alike given suits.lowers line
      · rw [if_neg enough, if_neg enough]
        exact InStep.refuse agree' suits.lowers _ _

end Run

end Rill
