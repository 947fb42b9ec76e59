import Rill.Proofs.Lexical.Declarations

/-!
# Calls alongside each other

A call runs the same code in both ways: in a new frame inside the one that the function was declared
in, and with new locations beside the names in force there. What statements do to each other's
variables is taken as given here, so that calls come before the statements they execute.
-/

namespace Rill.Lexical

open World

/-- Two statements ended alike, at a return only if they are part of a routine. -/
inductive FlowsAlike (inRoutine : Bool) (w : World) : Flow → Flow Env → Prop
  | next : FlowsAlike inRoutine w .next .next
  | exit {v : Value} {v' : Value Env} : inRoutine = true → w.Alike v v' →
      FlowsAlike inRoutine w (.exit v) (.exit v')

/-- A statement ended alike in both ways and left a context that fits what follows. -/
structure Leaves (inRoutine : Bool) (scopes : Scopes) (frame : FrameId) (w : World) (flow : Flow)
    (left : Context × Flow Env) : Prop where
  around : w.Around scopes frame left.1
  flows : FlowsAlike inRoutine w flow left.2

/-- Expressions that are bound are evaluated alongside each other. -/
def EvaluatesAlike (evaluate : Expr → Rill.Run Value) (evaluate' : Env → Expr → Run (Value Env)) :
    Prop :=
  ∀ {w : World} {current : FrameId} {m : Machine} {s : Store} {scopes : Scopes} {env : Env}
    {e : Expr}, w.Meets current m s → w.Sees scopes current env → e.Bound w.ledger scopes →
    Alongside w none current World.Alike (evaluate e m) (evaluate' env e s)

/-- Statements that are bound are executed alongside each other. -/
def ExecutesAlike (execute : Stmt → Rill.Run Flow)
    (execute' : Context → Stmt → Run (Context × Flow Env)) : Prop :=
  ∀ {w : World} {current : FrameId} {m : Machine} {s : Store} {scopes : Scopes}
    {context : Context} {inRoutine : Bool} {st : Stmt}, w.Meets current m s →
    w.Around scopes current context → st.Bound w.ledger inRoutine scopes →
    Alongside w (some current) current (Leaves inRoutine (st.behind scopes) current)
      (execute st m) (execute' context st s)

variable {w : World} {opened : Option FrameId} {scopes : Scopes} {frame current : FrameId}
  {env : Env} {context : Context} {inRoutine : Bool} {m : Machine} {s : Store}
  {execute : Stmt → Rill.Run Flow} {execute' : Context → Stmt → Run (Context × Flow Env)}

/-! ## Scopes -/

/-- Statements that share a scope are executed alongside each other. -/
theorem executeAll_alongside (executes : ExecutesAlike execute execute') {body : List Stmt}
    (meets : w.Meets current m s) (around : w.Around scopes current context)
    (bound : Stmt.BoundAll w.ledger inRoutine scopes body) :
    Alongside w (some current) current (FlowsAlike inRoutine)
      (Rill.Run.executeAll execute body m) (Run.executeAll execute' context body s) := by
  induction body generalizing w m s scopes context with
  | nil => exact Alongside.ok meets .next
  | cons st rest ih =>
      rw [Rill.Run.executeAll, Run.executeAll]
      refine Alongside.bind (executes meets around bound.1) ?_
      rintro w' m' s' flow ⟨context', flow'⟩ becomes meets' ⟨around', flows⟩
      cases flows with
      | next => exact ih meets' around' (bound.2.extend becomes.ledger)
      | exit returns alike => exact Alongside.ok meets' (.exit returns alike)

/-- A new frame may be open to what follows it, and is no frame of the world in front. -/
theorem newFrame_alongside {α β : Type} {related : World → α → β → Prop}
    {f : FrameId → Rill.Run α} {r' : EStateM.Result Halt Store β} (meets : w.Meets current m s)
    (enclosing : FrameId)
    (runs : ∀ {m'}, (w.addFrame enclosing).Meets current m' s →
      Alongside (w.addFrame enclosing) (some w.size) current related (f w.size m') r') :
    Alongside w none current related ((Rill.Run.newFrame enclosing >>= f) m) r' := by
  have opened : Alongside w (some w.size) current related
      ((Rill.Run.newFrame enclosing >>= f) m) r' := by
    refine Alongside.behind ((Becomes.addFrame w enclosing).weaken _) ?_
    refine EndsAlike.bind_left (a := m.forest.nextId) rfl ?_
    rw [meets.agree.nextId_eq]
    exact runs ⟨meets.agree.addFrame enclosing, meets.current_eq⟩
  exact opened.close (Nat.le_refl _)

/-- A scope of its own is a new frame inside the current one. -/
theorem inNewFrame_alongside {α β : Type} {related : World → α → β → Prop} {body : Rill.Run α}
    {r' : EStateM.Result Halt Store β} (meets : w.Meets current m s)
    (fits : w.Fits scopes current env) (settled : scopes.Settled)
    (runs : ∀ {w' frame m'}, w.Becomes none w' → w'.Meets frame m' s →
      w'.Around ([] :: scopes) frame (.within env) →
      Alongside w' (some frame) frame related (body m') r') :
    Alongside w none current related (Rill.Run.inNewFrame body m) r' := by
  rw [Rill.Run.inNewFrame, Rill.Run.get_bind, meets.current_eq]
  refine newFrame_alongside meets current ?_
  intro m' meets'
  refine inFrame_alongside meets'.current_eq ?_
  exact runs (.addFrame w current) ⟨meets'.agree.setCurrent w.size, rfl⟩
    (.enter meets.agree fits settled)

/-- A block has a scope of its own. -/
theorem block_alongside (executes : ExecutesAlike execute execute') {body : List Stmt}
    (meets : w.Meets current m s) (fits : w.Fits scopes current env) (settled : scopes.Settled)
    (bound : Stmt.BoundAll w.ledger inRoutine ([] :: scopes) body) :
    Alongside w none current (FlowsAlike inRoutine)
      (Rill.Run.inNewFrame (Rill.Run.executeAll execute body) m)
      (Run.executeAll execute' (.within env) body s) := by
  refine inNewFrame_alongside meets fits settled ?_
  intro w' frame m' becomes meets' around
  exact executeAll_alongside executes meets' around (bound.extend becomes.ledger)

/-! ## Methods and instances -/

/-- A method that is bound to an instance has a scope with `self` around its parameters. -/
theorem bind_alongside (meets : w.Meets current m s) {method : Closure}
    {method' : Closure Env} (alike : w.likeness.methods method method') {o : Object}
    {o' : Object Env} (objects : o.Alike w.likeness o') :
    Alongside w none current
      (fun w' c c' => w'.likeness.closures c c' ∧ c.routine = method.routine)
      (Rill.Run.bind method o m) (Run.bind method' o' s) := by
  obtain ⟨scopes, twins, bound⟩ := alike
  rw [Rill.Run.bind, Run.bind]
  refine newFrame_alongside meets method.environment ?_
  intro m' meets'
  have around := Around.enter meets.agree twins.fits twins.settled
  obtain ⟨context', v, s', w', ran, becomes, meets'', declared⟩ :=
    exists_declared "self" meets' around rfl
  cases ran
  refine EndsAlike.bind_right (b := s.nextLocation) rfl (Alongside.behind becomes ?_)
  have lasting : w.likeness.Implies (w'.fill w.size "self").likeness :=
    (((w.leadsTo_addFrame _).weaken _).trans
      (becomes.toLeadsTo.trans ((w'.leadsTo_fill _ _).weaken _))).implies
  refine Alongside.bind
    (store_alongside meets'' declared (.object (objects.imp lasting))) ?_
  intro w'' m'' s'' _ _ leads meetsLast ended
  obtain ⟨declaredLast, filled⟩ := ended
  refine Alongside.bind (newIdentity_alongside meetsLast) ?_
  intro last mLast sLast identity _ leads' meetsEnd same
  subst same
  refine Alongside.ok meetsEnd ⟨⟨[("self", .defined)] :: scopes, ?_, ?_, ?_⟩, rfl⟩
  · exact ⟨rfl, twins.routine_eq, twins.isInitializer_eq,
      (declaredLast.fits filled).mono leads'.toLeadsTo, (Scopes.settled_empty scopes).mark "self"⟩
  · have ledgers : last.ledger = w.ledger := by
      rw [leads'.ledger_eq, leads.ledger_eq, becomes.ledger_eq]
      rfl
    rw [ledgers]
    exact bound
  · exact fun _ => ⟨scopes, rfl⟩

theorem newObject_alongside (meets : w.Meets current m s) {c : Class} {c' : Class Env}
    (alike : c.Alike w.likeness c') :
    Alongside w opened current (fun w' => Object.Alike w'.likeness) (Rill.Run.newObject c m)
      (Run.newObject c' s) := by
  rw [Rill.Run.newObject, Run.newObject]
  refine Alongside.bind (newIdentity_alongside meets) ?_
  intro w' m' s' identity _ becomes meets' same
  subst same
  refine EndsAlike.bind_left rfl (EndsAlike.bind_right rfl ?_)
  exact Alongside.ok ⟨meets'.agree.setFields identity tablesAlike_empty, meets'.current_eq⟩
    ⟨rfl, alike.imp becomes.implies⟩

theorem setProperty_alongside (meets : w.Meets current m s) {o : Object} {o' : Object Env}
    (objects : o.Alike w.likeness o') (name : String) {value : Value} {value' : Value Env}
    (alike : w.Alike value value') :
    Alongside w opened current (fun _ _ _ => True) (Rill.Run.setProperty o name value m)
      (Run.setProperty o' name value' s) := by
  have fields := (meets.agree.fieldsOf objects).insert name alike
  have after := meets.agree.setFields o.identity fields
  refine Alongside.ok (w := w) ⟨?_, meets.current_eq⟩ trivial
  rw [← objects.identity_eq]
  exact after

/-- A property is a field, or else a method that is bound to the instance. -/
theorem getProperty_alongside (meets : w.Meets current m s) {o : Object} {o' : Object Env}
    (objects : o.Alike w.likeness o') (name : Ident) :
    Alongside w none current World.Alike (Rill.Run.getProperty o name m)
      (Run.getProperty o' name s) := by
  rw [Rill.Run.getProperty, Run.getProperty, Rill.Run.get_bind, Rill.Run.get_bind]
  rcases optionRel_cases (meets.agree.fieldsOf objects name.name) with
    ⟨value, value', here, here', alike⟩ | ⟨absent, absent'⟩
  · rw [here, here']
    exact Alongside.ok meets alike
  · rw [absent, absent']
    dsimp only
    rcases optionRel_cases (objects.cls.methods name.name) with
      ⟨method, method', found, found', alike⟩ | ⟨unknown, unknown'⟩
    · rw [found, found']
      refine Alongside.bind (bind_alongside meets alike objects) ?_
      intro w' m' s' c c' _ meets' ended
      obtain ⟨closures, _⟩ := ended
      exact Alongside.ok meets' (.closure closures)
    · rw [unknown, unknown']
      exact Alongside.refuse meets _ _

/-! ## Calls -/

/-- The instance that an initializer works on is found in both ways. -/
theorem instance_alongside (meets : w.Meets current m s) {c : Closure} {c' : Closure Env}
    {outer : Scopes} (fits : w.Fits ([("self", .defined)] :: outer) c.environment c'.environment) :
    ∃ value value', m.forest.getAt c.environment 0 "self" = .ok value ∧
      Run.instanceOf c' s = .ok value' s ∧ w.Alike value value' := by
  obtain ⟨owner, location, reached, placed, found, filled⟩ :=
    fits.exists_owner (show Scopes.depth? _ "self" = some 0 from rfl)
  cases reached
  have slots := meets.agree.shares.slots placed
  have had := meets.agree.shares.filled (filled rfl)
  rcases optionRel_cases slots with ⟨value, value', slot, cell, alike⟩ | ⟨slot, _⟩
  · refine ⟨value, value', Forest.getAt_of_ancestor? rfl slot, ?_, alike⟩
    rw [Run.instanceOf, Rill.Run.get_bind, found, Option.bind_some, cell]
    rfl
  · rw [slot] at had
    cases had

/-- A function is called alongside its counterpart. -/
theorem callClosure_alongside (executes : ExecutesAlike execute execute')
    (meets : w.Meets current m s) {c : Closure} {c' : Closure Env}
    (alike : w.likeness.closures c c') {values : List Value} {values' : List (Value Env)}
    (arguments : ValuesAlike w.likeness values values')
    (length : values.length = c.routine.params.length) :
    Alongside w none current World.Alike (Rill.Run.callClosure execute c values m)
      (Run.callClosure execute' c' values' s) := by
  obtain ⟨scopes, twins, bound, initializes⟩ := alike
  rw [Rill.Run.callClosure, Run.callClosure, ← twins.routine_eq, ← twins.isInitializer_eq]
  refine newFrame_alongside meets c.environment ?_
  intro m' meets'
  have entered := (w.leadsTo_addFrame c.environment).implies
  refine Alongside.bind (bindParams_alongside meets'
    (.enter meets.agree twins.fits twins.settled) bound.1 (arguments.imp entered) length) ?_
  intro w₁ m₁ s₁ _ env becomes₁ meets₁ around
  refine Alongside.bind (inFrame_alongside meets₁.current_eq
    (executeAll_alongside executes ⟨meets₁.agree.setCurrent w.size, rfl⟩ around
      (bound.2.extend becomes₁.ledger))) ?_
  intro w₂ m₂ s₂ flow flow' becomes₂ meets₂ flows
  cases initializer : c.isInitializer with
  | true =>
      obtain ⟨outer, rfl⟩ := initializes initializer
      have leads : w.LeadsTo (some w.size) w₂ :=
        ((w.leadsTo_addFrame c.environment).weaken _).trans
          (becomes₁.toLeadsTo.trans becomes₂.toLeadsTo)
      obtain ⟨value, value', found, found', alike⟩ :=
        instance_alongside meets₂ (twins.fits.mono leads)
      rw [if_pos rfl, if_pos rfl, Rill.Run.get_bind, found, found']
      exact Alongside.ok meets₂ alike
  | false =>
      rw [if_neg Bool.false_ne_true, if_neg Bool.false_ne_true]
      cases flows with
      | next => exact Alongside.ok meets₂ .nil
      | exit _ alike => exact Alongside.ok meets₂ alike

/-- Calling a class makes an instance and runs its initializer, if it has one. -/
theorem instantiate_alongside (executes : ExecutesAlike execute execute')
    (meets : w.Meets current m s) {c : Class} {c' : Class Env} (alike : c.Alike w.likeness c')
    {values : List Value} {values' : List (Value Env)}
    (arguments : ValuesAlike w.likeness values values') (length : values.length = c.arity) :
    Alongside w none current World.Alike (Rill.Run.instantiate execute c values m)
      (Run.instantiate execute' c' values' s) := by
  rw [Rill.Run.instantiate, Run.instantiate]
  refine Alongside.bind (newObject_alongside meets alike) ?_
  intro w₁ m₁ s₁ o o' becomes₁ meets₁ objects
  rcases optionRel_cases (alike.imp becomes₁.implies).initializer? with
    ⟨method, method', found, found', methods⟩ | ⟨absent, absent'⟩
  · rw [Class.arity, found] at length
    rw [found, found']
    refine Alongside.bind (bind_alongside meets₁ methods objects) ?_
    intro w₂ m₂ s₂ bound bound' becomes₂ meets₂ ended
    obtain ⟨closures, sameRoutine⟩ := ended
    have lasting := becomes₁.implies.trans becomes₂.implies
    refine Alongside.bind (callClosure_alongside executes meets₂ closures
      (arguments.imp lasting) ?_) ?_
    · rw [sameRoutine]
      exact length
    · intro w₃ m₃ s₃ _ _ becomes₃ meets₃ _
      exact Alongside.ok meets₃
        (.object (objects.imp (becomes₂.implies.trans becomes₃.implies)))
  · rw [absent, absent']
    exact Alongside.ok meets₁ (.object objects)

/-- Hosts answer alike if what they answer has no code in it. -/
def HostsAlike (host : Hosting) (host' : Hosting Env) : Prop :=
  ∀ (w : World) (call : Nat) (f : Native) {values : List Value} {values' : List (Value Env)},
    ValuesAlike w.likeness values values' →
    (∃ value value', host.answer call f values = .ok value ∧
      host'.answer call f values' = .ok value' ∧ w.Alike value value') ∨
    ∃ message, host.answer call f values = .error message ∧
      host'.answer call f values' = .error message

variable {host : Hosting} {host' : Hosting Env}

theorem callNative_alongside (hosts : HostsAlike host host') (meets : w.Meets current m s)
    (f : Native) {values : List Value} {values' : List (Value Env)}
    (arguments : ValuesAlike w.likeness values values') (line : Nat) :
    Alongside w opened current World.Alike (Rill.Run.callNative host f values line m)
      (Run.callNative host' f values' line s) := by
  rw [Rill.Run.callNative, Run.callNative]
  refine Alongside.bind (countHostCall_alongside meets) ?_
  intro w' m' s' call _ becomes meets' same
  subst same
  rcases hosts w' call f (arguments.imp becomes.implies) with
    ⟨value, value', answer, answer', alike⟩ | ⟨message, answer, answer'⟩
  · rw [answer, answer']
    exact Alongside.ok meets' alike
  · rw [answer, answer']
    exact Alongside.refuse meets' _ _

/-- Values that take as many arguments as there are can be called alongside each other. -/
theorem callWith_alongside (hosts : HostsAlike host host')
    (executes : ExecutesAlike execute execute') (meets : w.Meets current m s) {callee : Value}
    {callee' : Value Env} (alike : w.Alike callee callee') {values : List Value}
    {values' : List (Value Env)} (arguments : ValuesAlike w.likeness values values')
    (arity : Rill.Run.arity? callee = some values.length) (line : Nat) :
    Alongside w none current World.Alike
      (Rill.Run.callWith host execute values line callee m)
      (Run.callWith host' execute' values' line callee' s) := by
  cases alike with
  | closure closures =>
      exact callClosure_alongside executes meets closures arguments (Option.some.inj arity).symm
  | native f => exact callNative_alongside hosts meets f arguments line
  | cls classes =>
      exact instantiate_alongside executes meets classes arguments (Option.some.inj arity).symm
  | _ => cases arity

variable {evaluate : Expr → Rill.Run Value} {evaluate' : Env → Expr → Run (Value Env)}

theorem evaluateAll_alongside (evaluates : EvaluatesAlike evaluate evaluate')
    {arguments : List Expr} (meets : w.Meets current m s) (sees : w.Sees scopes current env)
    (bound : Expr.BoundAll w.ledger scopes arguments) :
    Alongside w none current (fun w' => ValuesAlike w'.likeness)
      (Rill.Run.evaluateAll evaluate arguments m)
      (Run.evaluateAll (evaluate' env) arguments s) := by
  induction arguments generalizing w m s with
  | nil => exact Alongside.ok meets .nil
  | cons e rest ih =>
      rw [Rill.Run.evaluateAll, Run.evaluateAll]
      refine Alongside.bind (evaluates meets sees bound.1) ?_
      intro w₁ m₁ s₁ value value' becomes₁ meets₁ first
      refine Alongside.bind
        (ih meets₁ (sees.mono becomes₁.toLeadsTo) (bound.2.extend becomes₁.ledger)) ?_
      intro w₂ m₂ s₂ values values' becomes₂ meets₂ others
      exact Alongside.ok meets₂ (.cons (first.imp becomes₂.implies) others)

theorem evaluateOption_alongside (evaluates : EvaluatesAlike evaluate evaluate')
    {value : Option Expr} (meets : w.Meets current m s) (sees : w.Sees scopes current env)
    (bound : Expr.BoundOption w.ledger scopes value) :
    Alongside w none current World.Alike (Rill.Run.evaluateOption evaluate value m)
      (Run.evaluateOption (evaluate' env) value s) := by
  cases value with
  | none => exact Alongside.ok meets .nil
  | some e => exact evaluates meets sees bound

/-- What is called, and with what, is the same in both ways. -/
theorem callValue_alongside (hosts : HostsAlike host host')
    (evaluates : EvaluatesAlike evaluate evaluate') (executes : ExecutesAlike execute execute')
    (meets : w.Meets current m s) (sees : w.Sees scopes current env) {callee : Value}
    {callee' : Value Env} (alike : w.Alike callee callee') {arguments : List Expr}
    (bound : Expr.BoundAll w.ledger scopes arguments) (line : Nat) :
    Alongside w none current World.Alike
      (Rill.Run.callValue host evaluate execute callee arguments line m)
      (Run.callValue host' (evaluate' env) execute' callee' arguments line s) := by
  rw [Rill.Run.callValue, Run.callValue, ← alike.arity?_eq]
  cases takes : Rill.Run.arity? callee with
  | none => exact Alongside.refuse meets _ _
  | some arity =>
      refine Alongside.bind (evaluateAll_alongside evaluates meets sees bound) ?_
      intro w' m' s' values values' becomes meets' given
      rw [← given.length_eq]
      by_cases enough : values.length = arity
      · rw [if_pos enough, if_pos enough]
        exact callWith_alongside hosts executes meets' (alike.imp becomes.implies) given
          (enough ▸ takes) line
      · rw [if_neg enough, if_neg enough]
        exact Alongside.refuse meets' _ _

end Rill.Lexical
