import Rill.Proofs.Globals.Watching
import Rill.Proofs.Machine.Declarations
import Rill.Proofs.Receiver.Following

/-!
# Code that a register is right about

Every expression, statement and call of bound code runs just the same when it is inspected by a
register that is right in the end. Rules are taken one by one, given the same of the parts that they
are put together from; effort ties them together.
-/

namespace Rill

/-! ## Values without code -/

/-- A value that has neither code nor fields. -/
def Value.Plain : Value → Prop
  | .number _ | .string _ | .bool _ | .nil | .native _ => True
  | .closure _ | .cls _ | .object _ => False

theorem Value.plain_ofLiteral (value : Literal) : (Value.ofLiteral value).Plain := by
  cases value <;> trivial

theorem UnaryOp.plain_apply {operator : UnaryOp} {v result : Value}
    (applied : operator.apply v = .ok result) : result.Plain := by
  cases operator with
  | minus => cases v <;> cases applied; trivial
  | bang => cases applied; trivial

theorem BinaryOp.plain_apply {operator : BinaryOp} {v u result : Value}
    (applied : operator.apply v u = .ok result) : result.Plain := by
  unfold BinaryOp.apply at applied
  split at applied <;> cases applied
  · trivial
  · trivial
  · trivial
  · cases operator <;> trivial

/-- A host answers with values that have no code. -/
def Hosting.Plain (host : Hosting) : Prop :=
  ∀ {call : Nat} {f : Native} {values : List Value} {answer : Value},
    host.answer call f values = .ok answer → answer.Plain

theorem Hosting.plain_withClock (readings : Nat → Except String Number) :
    (Hosting.withClock readings).Plain := by
  intro call f values answer answered
  dsimp only [Hosting.withClock] at answered
  split at answered
  · cases reading : readings call with
    | ok value =>
        rw [reading] at answered
        cases answered
        trivial
    | error message =>
        rw [reading] at answered
        cases answered
  · cases answered

/-! ## Scopes behind declarations -/

namespace Roster

variable {R : Roster} {m : Machine} {home : FrameId} {forest : Forest} {scopes : Scopes}
  {frame : FrameId} {v : Value}

theorem admits_of_plain (plain : v.Plain) : R.Admits forest v := by
  cases v <;> trivial

/-- Statements leave scopes behind that statements may stand in. -/
theorem Stands.behind (stands : R.Stands m home scopes) {s : Stmt} (selfless : Selfless s.atoms) :
    R.Stands m home (s.behind scopes) := by
  cases s with
  | declare name initializer => exact (stands.mark selfless.name_ne _).mark selfless.name_ne _
  | function routine => exact stands.mark selfless.name_ne _
  | classDef name methods => exact stands.mark selfless.name_ne _
  | branch condition thenBody elseBody => cases elseBody <;> exact stands
  | _ => exact stands

/-- The frame of a call fits the scope of its parameters. -/
theorem seated_params {params : List Ident} (seated : forest.Seated scopes frame)
    (isOpen : scopes.Open) (selfless : Selfless (Ident.atoms params)) :
    forest.Seated (paramScopes scopes params) frame ∧ (paramScopes scopes params).Open := by
  induction params generalizing scopes with
  | nil => exact ⟨seated, isOpen⟩
  | cons name rest ih =>
      have other := selfless.name_ne
      exact ih (seated.mark isOpen other .defined) (isOpen.mark other .defined)
        (selfless_cons.mp selfless).2

end Roster

namespace Run

open Roster

variable {R : Roster} {m : Machine} {home : FrameId} {scopes : Scopes} {frame : FrameId} {v : Value}
  {inRoutine : Bool} {host : Hosting} {evaluate : Expr → Run Value}
  {evaluate' : Inspector → FrameId → Expr → Run Value} {execute : Stmt → Run Flow}
  {execute' : Inspector → FrameId → Stmt → Run Flow}

/-! ## Sequences and calls -/

section Calls

variable (executes : ExecutesInspected execute' execute)

include executes

/-- Statements in a scope are executed one after the other. -/
theorem executeAll_follows {body : List Stmt} (stands : R.Stands m home scopes)
    (bound : Stmt.BoundAll R.ledger inRoutine scopes body)
    (selfless : Selfless (Stmt.atomsAll body)) :
    R.Follows m AdmitsFlow (fun p => executeAll (execute' p home) body m)
      (executeAll execute body m) := by
  induction body generalizing R m scopes with
  | nil => exact .ok stands.toMeets trivial
  | cons s rest ih =>
      obtain ⟨first, others⟩ := selfless_append.mp selfless
      refine Follows.bind (executes stands bound.1 first) ?_
      intro R' n flow leads meets admits
      cases flow with
      | exit v => exact .ok meets admits
      | next =>
          exact ih ((stands.lead leads meets).behind first) (bound.2.extend leads.ledger) others

theorem block_follows {body : List Stmt} (stands : R.Stands m home scopes)
    (bound : Stmt.BoundAll R.ledger inRoutine ([] :: scopes) body)
    (selfless : Selfless (Stmt.atomsAll body)) :
    R.Follows m AdmitsFlow (fun p => inNewFrame (executeAll (execute' p home) body) m)
      (inNewFrame (executeAll execute body) m) :=
  inNewFrame_follows stands fun ledger inner =>
    executeAll_follows executes inner (bound.extend ledger) selfless

omit executes in
/-- Parameters get their arguments in a frame where the code of a function is about to stand. -/
theorem bindParams_follows {params : List Ident} {values : List Value} (meets : R.Meets m)
    (seated : m.forest.Seated scopes frame) (isOpen : scopes.Open)
    (selfless : Selfless (Ident.atoms params)) (admits : ∀ v ∈ values, R.Admits m.forest v) :
    R.Follows m (fun _ _ _ => True) (fun _ => bindParams frame params values m)
      (bindParams frame params values m) := by
  induction params generalizing R m values with
  | nil => exact .ok meets trivial
  | cons name names ih =>
      cases values with
      | nil => exact .ok meets trivial
      | cons v values =>
          obtain ⟨first, others⟩ := List.forall_mem_cons.mp admits
          have tidy := meets.holds.tidy
          refine Follows.bind (defineIn_follows meets (seated.lt_size tidy)
            (seated.vacant tidy isOpen) selfless.name_ne first) ?_
          intro R' n _ leads meets' _
          exact ih meets' (seated.mono leads.stays) (selfless_cons.mp selfless).2 fun v present =>
            (others v present).lead leads

/-- An initializer answers with the instance that its frame holds. -/
theorem callClosure_follows (meets : R.Meets m) {c : Closure}
    (admits : R.AdmitsClosure m.forest c) {values : List Value}
    (arguments : ∀ v ∈ values, R.Admits m.forest v) :
    R.Follows m (fun R' forest v => R'.Admits forest v ∧ (c.isInitializer = true →
        ∃ o, forest.instance? c.environment = some o ∧ v = .object o))
      (fun p => callClosure (execute' p c.environment) c values m)
      (callClosure execute c values m) := by
  obtain ⟨scopes, seated, bound, selfless, initializes⟩ := admits
  obtain ⟨inParams, inBody⟩ := selfless_append.mp (selfless_cons.mp selfless).2
  refine Follows.bind (newFrame_follows meets seated) ?_
  rintro R₁ n₁ new leads₁ meets₁ ⟨entered, encloses⟩
  refine Follows.bind (bindParams_follows meets₁ entered (Scopes.open_enter scopes) inParams
    fun v present => (arguments v present).lead leads₁) ?_
  intro R₂ n₂ _ leads₂ meets₂ _
  have leads := leads₁.trans leads₂
  obtain ⟨inside, isOpen⟩ := Roster.seated_params (entered.mono leads₂.stays)
    (Scopes.open_enter scopes) inParams
  have still : n₂.forest.enclosing? new = some c.environment :=
    (leads₂.stays.enclosing?_eq new (Forest.lt_size_of_enclosing? encloses)).trans encloses
  have ready : R₂.Meets { n₂ with current := new } := ⟨meets₂.holds, meets₂.bindings_eq⟩
  -- The body has the frame of the function for surroundings.
  have inside := ready.stands_inside inside isOpen still
    ((seated.mono leads.stays).lt_size meets₂.tidy) rfl
  refine Follows.bind (.inFrame (executeAll_follows executes inside
    (bound.2.extend leads.ledger) inBody)) ?_
  intro R₃ n₃ flow leads₃ meets₃ flows
  by_cases initializer : c.isInitializer = true
  · obtain ⟨outer, rfl⟩ := initializes initializer
    rw [if_pos initializer, get_bind]
    cases got : n₃.forest.getAt c.environment 0 "self" with
    | error breach => exact .halt meets₃
    | ok v =>
        obtain ⟨owner, reached, found⟩ := Forest.exists_of_getAt got
        cases reached
        obtain ⟨o, rfl, is⟩ := meets₃.holds.tidy.instance?_eq_some found
        exact .ok meets₃ ⟨meets₃.holds.slots found, fun _ => ⟨o, is, rfl⟩⟩
  · rw [if_neg initializer]
    cases flow with
    | next => exact .ok meets₃ ⟨trivial, fun initializes => absurd initializes initializer⟩
    | exit v => exact .ok meets₃ ⟨flows, fun initializes => absurd initializes initializer⟩

/-- A class answers with a new instance, whatever its initializer does. -/
theorem instantiate_follows (meets : R.Meets m) {c : Class} (admits : R.AdmitsClass m.forest c)
    {values : List Value} (arguments : ∀ v ∈ values, R.Admits m.forest v) :
    R.Follows m (fun R' forest v => R'.Admits forest v ∧ v = .object ⟨m.nextIdentity, c⟩)
      (fun p => instantiateInspected p.inspection p.alarm (execute' p) c values m)
      (instantiate execute c values m) := by
  refine Follows.bind (newObject_follows meets admits) ?_
  rintro R₁ n₁ o leads₁ meets₁ ⟨rfl, object⟩
  cases found : c.initializer? with
  | none => exact .ok meets₁ ⟨object, rfl⟩
  | some initializer =>
      refine Follows.bind (bindInspected_follows meets₁ found object) ?_
      intro R₂ n₂ bound leads₂ meets₂ closure
      refine Follows.bind (callClosure_follows executes meets₂ closure fun v present =>
        ((arguments v present).lead leads₁).lead leads₂) ?_
      intro R₃ n₃ _ leads₃ meets₃ _
      exact .ok meets₃ ⟨Roster.Admits.lead (v := .object _) (leads₂.trans leads₃) object, rfl⟩

omit executes in
theorem callNative_follows (plain : host.Plain) (meets : R.Meets m) (f : Native)
    (values : List Value) (line : Nat) :
    R.Follows m Admits (fun _ => callNative host f values line m)
      (callNative host f values line m) := by
  rw [callNative]
  have counted : R.Follows m (fun _ _ _ => True) (fun _ => countHostCall m) (countHostCall m) :=
    .change (.refl _) rfl (Nat.le_refl _) rfl ⟨meets.holds, meets.bindings_eq⟩ trivial
  refine Follows.bind counted ?_
  intro R' n call _ meets' _
  cases answered : host.answer call f values with
  | ok v => exact .ok meets' (Roster.admits_of_plain (plain answered))
  | error message => exact .halt meets'

/-- Under inspection, a value is called just the same. -/
theorem callWith_follows (plain : host.Plain) (meets : R.Meets m) {callee : Value}
    (admits : R.Admits m.forest callee) {values : List Value}
    (arguments : ∀ v ∈ values, R.Admits m.forest v) (line : Nat) :
    R.Follows m Admits
      (fun p => inspect (p.inspection.call callee) p.alarm
        (callWithInspected p.inspection p.alarm host (execute' p) values line callee) m)
      (callWith host execute values line callee m) := by
  have describes {R'} {n : Machine} (leads : R.Leads m R' n) {p : Inspector}
      (agrees : p.register.Agrees R' n) :=
    (agrees.earlier leads meets).describes meets.holds
  cases callee with
  | closure c =>
      refine .mono (.inspect (callClosure_follows executes meets admits arguments) ?_)
        fun ended => ended.1
      intro R' leads meets' ended p agrees
      refine p.asks.call ⟨describes leads agrees, fun v n ran initializes => ?_⟩
      obtain ⟨o, is, rfl⟩ := (ended v n ran).2 initializes
      obtain ⟨scopes, seated, -⟩ := admits
      rw [ran] at leads meets' agrees
      have present := (seated.mono leads.stays).lt_size meets'.holds.tidy
      exact ⟨o, (agrees.instanceOf_eq _ present).trans is, rfl⟩
  | native f =>
      refine .inspect (callNative_follows plain meets f values line) ?_
      intro R' leads _ _ p agrees
      exact p.asks.call ⟨describes leads agrees, fun _ _ _ => trivial⟩
  | cls c =>
      refine .mono (.inspect (instantiate_follows executes meets admits arguments) ?_)
        fun ended => ended.1
      intro R' leads _ ended p agrees
      exact p.asks.call ⟨describes leads agrees, fun v n ran => (ended v n ran).2⟩
  | _ =>
      refine .inspect (.halt meets) ?_
      intro R' leads _ _ p agrees
      exact p.asks.call ⟨describes leads agrees, fun _ _ _ => trivial⟩

end Calls

/-! ## Expressions -/

section Expressions

variable (evaluates : EvaluatesInspected evaluate' evaluate)

include evaluates

theorem evaluateAll_follows {arguments : List Expr} (stands : R.Stands m home scopes)
    (bound : Expr.BoundAll R.ledger scopes arguments)
    (selfless : Selfless (Expr.atomsAll arguments)) :
    R.Follows m (fun R' forest values => ∀ v ∈ values, R'.Admits forest v)
      (fun p => evaluateAll (evaluate' p home) arguments m) (evaluateAll evaluate arguments m) := by
  induction arguments generalizing R m with
  | nil => exact .ok stands.toMeets fun _ absent => absurd absent List.not_mem_nil
  | cons e rest ih =>
      obtain ⟨first, others⟩ := selfless_append.mp selfless
      refine Follows.bind (evaluates stands bound.1 first) ?_
      intro R₁ n₁ v leads₁ meets₁ admits
      refine Follows.bind (ih (stands.lead leads₁ meets₁) (bound.2.extend leads₁.ledger) others) ?_
      intro R₂ n₂ values leads₂ meets₂ admitted
      exact .ok meets₂ (List.forall_mem_cons.mpr ⟨admits.lead leads₂, admitted⟩)

theorem evaluateOption_follows {value : Option Expr} (stands : R.Stands m home scopes)
    (bound : Expr.BoundOption R.ledger scopes value)
    (selfless : Selfless (Expr.atomsOption value)) :
    R.Follows m Admits (fun p => evaluateOption (evaluate' p home) value m)
      (evaluateOption evaluate value m) := by
  cases value with
  | none => exact .ok stands.toMeets trivial
  | some e => exact evaluates stands bound selfless

/-- The arguments are there when the call is inspected. -/
theorem callInspected_follows (plain : host.Plain) (executes : ExecutesInspected execute' execute)
    (stands : R.Stands m home scopes) {callee : Value} (admits : R.Admits m.forest callee)
    {arguments : List Expr} (bound : Expr.BoundAll R.ledger scopes arguments)
    (selfless : Selfless (Expr.atomsAll arguments)) (line : Nat) :
    R.Follows m Admits
      (fun p => callInspected p.inspection p.alarm host (evaluate' p home) (execute' p) callee
        arguments line m)
      (callValue host evaluate execute callee arguments line m) := by
  unfold callInspected callValue
  cases arity? callee with
  | none => exact .halt stands.toMeets
  | some arity =>
      refine Follows.bind (evaluateAll_follows evaluates stands bound selfless) ?_
      intro R' n values leads meets admitted
      split
      · exact callWith_follows executes plain meets (admits.lead leads) admitted line
      · exact .halt meets

omit evaluates in
theorem operate_follows (meets : R.Meets m) {result : Except OperandRule Value}
    (plain : ∀ v, result = .ok v → v.Plain) (line : Nat) :
    R.Follows m Admits (fun _ => operate line result m) (operate line result m) := by
  cases result with
  | error rule => exact .halt meets
  | ok v => exact .ok meets (Roster.admits_of_plain (plain v rfl))

omit evaluates in
theorem asObject_follows (meets : R.Meets m) (admits : R.Admits m.forest v) (line : Nat) :
    R.Follows m (fun R' forest o => R'.Admits forest (.object o))
      (fun _ => asObject line v m) (asObject line v m) := by
  cases v with
  | object o => exact .ok meets admits
  | _ => exact .halt meets

/-- Under inspection, an expression is evaluated just the same from its parts. -/
theorem evaluateInspectedWith_follows (plain : host.Plain)
    (executes : ExecutesInspected execute' execute) {e : Expr} (stands : R.Stands m home scopes)
    (bound : e.Bound R.ledger scopes) (selfless : Selfless e.atoms) :
    R.Follows m Admits
      (fun p => evaluateInspectedWith p.inspection p.alarm host home (evaluate' p home)
        (execute' p) e m)
      (evaluateWith host evaluate execute e m) := by
  cases e with
  | literal value =>
      exact .ok stands.toMeets (Roster.admits_of_plain (Value.plain_ofLiteral value))
  | group inner => exact evaluates stands bound selfless
  | unary operator operand line =>
      refine Follows.bind (evaluates (e := operand) stands bound selfless) ?_
      intro R' n v _ meets _
      exact operate_follows meets (fun _ applied => UnaryOp.plain_apply applied) line
  | binary left operator right line =>
      obtain ⟨first, second⟩ := selfless_append.mp selfless
      refine Follows.bind (evaluates stands bound.1 first) ?_
      intro R₁ n₁ a leads₁ meets₁ _
      refine Follows.bind
        (evaluates (stands.lead leads₁ meets₁) (bound.2.extend leads₁.ledger) second) ?_
      intro R₂ n₂ b _ meets₂ _
      exact operate_follows meets₂ (fun _ applied => BinaryOp.plain_apply applied) line
  | logical left operator right =>
      obtain ⟨first, second⟩ := selfless_append.mp selfless
      refine Follows.bind (evaluates stands bound.1 first) ?_
      intro R' n v leads meets admits
      split
      · exact .ok meets admits
      · exact evaluates (stands.lead leads meets) (bound.2.extend leads.ledger) second
  | var id name => exact lookUp_follows stands id name.name name.line
  | assign id name value =>
      refine Follows.bind (evaluates stands bound.1 (selfless_cons.mp selfless).2) ?_
      intro R₁ n₁ v leads₁ meets₁ admits
      refine Follows.bind (assign_follows (stands.lead leads₁ meets₁) selfless.name_ne
        (bound.2.extend leads₁.ledger) admits name.line) ?_
      intro R₂ n₂ _ leads₂ meets₂ _
      exact .ok meets₂ (admits.lead leads₂)
  | call callee arguments line =>
      obtain ⟨first, others⟩ := selfless_append.mp selfless
      refine Follows.bind (evaluates stands bound.1 first) ?_
      intro R' n v leads meets admits
      exact callInspected_follows evaluates plain executes (stands.lead leads meets) admits
        (bound.2.extend leads.ledger) others line
  | get object name =>
      refine Follows.bind
        (evaluates (e := object) stands bound (selfless_append.mp selfless).1) ?_
      intro R₁ n₁ v _ meets₁ admits
      refine Follows.bind (asObject_follows meets₁ admits name.line) ?_
      intro R₂ n₂ o _ meets₂ held
      exact getInspected_follows meets₂ held name
  | set object name value =>
      obtain ⟨first, named⟩ := selfless_append.mp selfless
      refine Follows.bind (evaluates stands bound.1 first) ?_
      intro R₁ n₁ v leads₁ meets₁ admits
      refine Follows.bind (asObject_follows meets₁ admits name.line) ?_
      intro R₂ n₂ o leads₂ meets₂ held
      have leads := leads₁.trans leads₂
      refine Follows.bind (evaluates (stands.lead leads meets₂) (bound.2.extend leads.ledger)
        (selfless_cons.mp named).2) ?_
      intro R₃ n₃ given leads₃ meets₃ admitted
      refine Follows.bind (setInspected_follows meets₃ (held.lead leads₃) admitted name.name) ?_
      intro R₄ n₄ _ leads₄ meets₄ _
      exact .ok meets₄ (admitted.lead leads₄)
  | selfRef id line => exact lookUp_follows stands id "self" line

end Expressions

/-! ## Statements -/

section Statements

variable (evaluates : EvaluatesInspected evaluate' evaluate)

omit evaluates in
theorem routine_bound {methods : List Routine} {ledger : Ledger}
    (bound : Stmt.BoundMethods ledger scopes methods)
    (selfless : Selfless (Stmt.atomsMethods methods)) {routine : Routine}
    (present : routine ∈ methods) : routine.Bound ledger scopes ∧ Selfless routine.atoms := by
  induction methods with
  | nil => cases present
  | cons other rest ih =>
      obtain ⟨here, others⟩ := Stmt.boundMethods_cons.mp bound
      obtain ⟨first, named⟩ := selfless_append.mp selfless
      rcases List.mem_cons.mp present with rfl | later
      · exact ⟨here, first⟩
      · exact ih others named later

omit evaluates in
/-- The class that is declared is new, and its methods are bound where it is declared. -/
theorem classDef_follows {name : Ident} {methods : List Routine} (meets : R.Meets m)
    (seated : m.forest.Seated scopes m.current)
    (bound : Stmt.BoundMethods R.ledger (selfScope :: scopes) methods)
    (selfless : Selfless (Stmt.atomsMethods methods)) :
    R.Follows m Admits (fun p => declaredValue (evaluate' p home) (.classDef name methods) m)
      (declaredValue evaluate (.classDef name methods) m) := by
  simp only [declaredValue_classDef]
  let d := m.declares name methods
  have new : m.nextIdentity ≤ d.made.identity := Nat.le_add_right _ _
  have known : R.Extends (R.declare d) := meets.holds.extends_declare new
  have leads : R.Leads m (R.declare d) { m with nextIdentity := d.made.identity + 1 } :=
    ⟨.refl _, rfl, id, known.declarationOf_eq, Nat.le_succ_of_le new, rfl⟩
  refine .step leads ⟨meets.holds.declare new, meets.bindings_eq⟩
    (fun _ => Inspector.spares_of_fields rfl) ⟨⟨d, R.declare_self d, rfl⟩, fun found => ?_⟩
  obtain ⟨inside, named⟩ := routine_bound bound selfless (ClassDeclaration.mem_of_made found)
  refine ⟨scopes, ?_, inside, named⟩
  rw [(ClassDeclaration.made_closure found).1]
  exact seated

include evaluates

theorem goesOn_follows {condition : Option Expr} (stands : R.Stands m home scopes)
    (bound : Expr.BoundOption R.ledger scopes condition)
    (selfless : Selfless (Expr.atomsOption condition)) :
    R.Follows m (fun _ _ _ => True) (fun p => goesOn (evaluate' p home) condition m)
      (goesOn evaluate condition m) := by
  cases condition with
  | none => exact .ok stands.toMeets trivial
  | some e =>
      refine Follows.bind (evaluates stands bound selfless) ?_
      intro R' n v _ meets _
      exact .ok meets trivial

/-- The variable of a loop is defined in a frame of its own. -/
theorem startLoop_follows {counter : Option LoopVar} (stands : R.Stands m home ([] :: scopes))
    (bound : LoopVar.BoundOption R.ledger scopes counter)
    (selfless : Selfless (LoopVar.atomsOption counter)) :
    R.Follows m (fun _ _ _ => True) (fun p => startLoop (evaluate' p home) counter m)
      (startLoop evaluate counter m) := by
  cases counter with
  | none => exact .ok stands.toMeets trivial
  | some counter =>
      refine Follows.bind (evaluates (stands.mark selfless.name_ne .declared) bound.2
        (selfless_cons.mp selfless).2) ?_
      intro R' n v leads meets admits
      exact define_follows (stands.lead leads meets) selfless.name_ne admits

omit evaluates in
theorem stands_counter {counter : Option LoopVar} (stands : R.Stands m home ([] :: scopes))
    (selfless : Selfless (LoopVar.atomsOption counter)) :
    R.Stands m home (counterScopes scopes counter) := by
  cases counter with
  | none => exact stands
  | some counter => exact (stands.mark selfless.name_ne .declared).mark selfless.name_ne .defined

theorem repeatLoop_follows (executes : ExecutesInspected execute' execute)
    {condition increment : Option Expr} {body : List Stmt} (effort : Nat)
    (stands : R.Stands m home scopes) (boundCondition : Expr.BoundOption R.ledger scopes condition)
    (boundIncrement : Expr.BoundOption R.ledger scopes increment)
    (boundBody : Stmt.BoundAll R.ledger inRoutine ([] :: scopes) body)
    (selflessCondition : Selfless (Expr.atomsOption condition))
    (selflessIncrement : Selfless (Expr.atomsOption increment))
    (selflessBody : Selfless (Stmt.atomsAll body)) :
    R.Follows m AdmitsFlow
      (fun p => repeatLoop (evaluate' p home) (execute' p home) condition increment body effort m)
      (repeatLoop evaluate execute condition increment body effort m) := by
  induction effort generalizing R m with
  | zero => exact .halt stands.toMeets
  | succ effort ih =>
      refine Follows.bind (goesOn_follows evaluates stands boundCondition selflessCondition) ?_
      intro R₁ n₁ goesOn leads₁ meets₁ _
      have stands₁ := stands.lead leads₁ meets₁
      split
      · refine Follows.bind (block_follows executes stands₁ (boundBody.extend leads₁.ledger)
          selflessBody) ?_
        intro R₂ n₂ flow leads₂ meets₂ flows
        have stands₂ := stands₁.lead leads₂ meets₂
        have leads := leads₁.trans leads₂
        cases flow with
        | exit v => exact .ok meets₂ flows
        | next =>
            refine Follows.bind (evaluateOption_follows evaluates stands₂
              (boundIncrement.extend leads.ledger) selflessIncrement) ?_
            intro R₃ n₃ _ leads₃ meets₃ _
            have ledger := (leads.trans leads₃).ledger
            exact ih (stands₂.lead leads₃ meets₃) (boundCondition.extend ledger)
              (boundIncrement.extend ledger) (boundBody.extend ledger)
      · exact .ok meets₁ trivial

theorem declaredValue_follows {s : Stmt} {name : String} (stands : R.Stands m home scopes)
    (bound : s.Bound R.ledger inRoutine scopes) (selfless : Selfless s.atoms)
    (declared : s.declared? = some name) :
    R.Follows m Admits (fun p => declaredValue (evaluate' p home) s m)
      (declaredValue evaluate s m) := by
  cases s with
  | declare name initializer =>
      exact evaluateOption_follows evaluates (stands.mark selfless.name_ne .declared) bound.2.2
        (selfless_cons.mp selfless).2
  | function routine =>
      refine Follows.bind (newIdentity_follows stands.toMeets) ?_
      intro R' n identity leads meets _
      rw [get_bind]
      have inside := (stands.lead leads meets).mark selfless.name_ne .defined
      exact .ok meets ⟨_, inside.seated, (Stmt.bound_function.mp bound).2.extend leads.ledger,
        selfless, fun impossible => (nomatch impossible)⟩
  | classDef name methods =>
      exact classDef_follows stands.toMeets (stands.mark selfless.name_ne .defined).seated bound.2
        (selfless_cons.mp selfless).2
  | _ => cases declared

omit evaluates in
theorem name_ne_of_declared {s : Stmt} {name : String} (selfless : Selfless s.atoms)
    (declared : s.declared? = some name) : name ≠ "self" := by
  cases s <;> cases declared <;> exact selfless.name_ne

theorem declaration_follows {s : Stmt} {name : String} (effort : Nat)
    (stands : R.Stands m home scopes) (bound : s.Bound R.ledger inRoutine scopes)
    (selfless : Selfless s.atoms) (declared : s.declared? = some name) :
    R.Follows m AdmitsFlow (fun p => executeWith (evaluate' p home) (execute' p home) effort s m)
      (executeWith evaluate execute effort s m) := by
  simp only [executeWith_declared effort declared]
  refine Follows.bind (declaredValue_follows evaluates stands bound selfless declared) ?_
  intro R₁ n₁ v leads₁ meets₁ admits
  refine Follows.bind (define_follows (stands.lead leads₁ meets₁)
    (name_ne_of_declared selfless declared) admits) ?_
  intro R₂ n₂ _ _ meets₂ _
  exact .ok meets₂ trivial

/-- Under inspection, a statement is executed just the same from its parts. -/
theorem executeWith_follows (executes : ExecutesInspected execute' execute) (effort : Nat)
    {s : Stmt} (stands : R.Stands m home scopes) (bound : s.Bound R.ledger inRoutine scopes)
    (selfless : Selfless s.atoms) :
    R.Follows m AdmitsFlow (fun p => executeWith (evaluate' p home) (execute' p home) effort s m)
      (executeWith evaluate execute effort s m) := by
  cases s with
  | expression e =>
      refine Follows.bind (evaluates (e := e) stands bound selfless) ?_
      intro R' n _ _ meets _
      exact .ok meets trivial
  | print e =>
      refine Follows.bind (evaluates (e := e) stands bound selfless) ?_
      intro R' n v _ meets _
      refine Follows.bind (print_follows meets v) ?_
      intro R'' n' _ _ meets' _
      exact .ok meets' trivial
  | declare name initializer => exact declaration_follows evaluates effort stands bound selfless rfl
  | block body => exact block_follows executes stands bound selfless
  | function routine => exact declaration_follows evaluates effort stands bound selfless rfl
  | branch condition thenBody elseBody =>
      obtain ⟨boundCondition, boundThen, boundElse⟩ := Stmt.bound_branch.mp bound
      cases elseBody with
      | none =>
          obtain ⟨first, second⟩ := selfless_append.mp selfless
          refine Follows.bind (evaluates stands boundCondition first) ?_
          intro R' n v leads meets _
          split
          · exact block_follows executes (stands.lead leads meets)
              (boundThen.extend leads.ledger) second
          · exact .ok meets trivial
      | some body =>
          obtain ⟨front, third⟩ := selfless_append.mp selfless
          obtain ⟨first, second⟩ := selfless_append.mp front
          refine Follows.bind (evaluates stands boundCondition first) ?_
          intro R' n v leads meets _
          have stands' := stands.lead leads meets
          split
          · exact block_follows executes stands' (boundThen.extend leads.ledger) second
          · exact block_follows executes stands' ((boundElse body rfl).extend leads.ledger) third
  | loop counter condition increment body =>
      obtain ⟨boundCounter, boundCondition, boundIncrement, boundBody⟩ := bound
      obtain ⟨head, inBody⟩ := selfless_append.mp selfless
      obtain ⟨front, inIncrement⟩ := selfless_append.mp head
      obtain ⟨inCounter, inCondition⟩ := selfless_append.mp front
      refine inNewFrame_follows stands ?_
      intro R₁ n₁ ledger₁ stands₁
      refine Follows.bind (startLoop_follows evaluates stands₁ (boundCounter.extend ledger₁)
        inCounter) ?_
      intro R₂ n₂ _ leads₂ meets₂ _
      have ledger := ledger₁.trans leads₂.ledger
      exact repeatLoop_follows evaluates executes effort
        (stands_counter (stands₁.lead leads₂ meets₂) inCounter) (boundCondition.extend ledger)
        (boundIncrement.extend ledger) (boundBody.extend ledger) inCondition inIncrement inBody
  | exit line value =>
      refine Follows.bind (evaluateOption_follows evaluates stands bound.2 selfless) ?_
      intro R' n v _ meets admits
      exact .ok meets admits
  | classDef name methods => exact declaration_follows evaluates effort stands bound selfless rfl

end Statements

/-! ## Surroundings -/

/-- A function that is declared keeps the frame of its declaration. -/
theorem function_nested {r : Register} (stands : R.Stands m home scopes) (agrees : r.Agrees R m)
    (effort : Nat) {routine : Routine} :
    ∃ c n, executeWith evaluate execute effort (.function routine) m = .ok .next n ∧
      n.forest.slot? m.current routine.name.name = some (.closure c) ∧ c.routine = routine ∧
      r.selfFrameOf c.environment = r.selfFrameOf home := by
  refine ⟨⟨m.nextIdentity, routine, m.current, false⟩, _, rfl, ?_, rfl, ?_⟩
  · exact (Forest.slot?_define _ _ _ _ stands.lt_size _ _).trans (if_pos ⟨rfl, rfl⟩)
  · exact (agrees.selfFrameOf_eq m.current stands.lt_size).trans (agrees.nearest stands)

/-! ## All effort -/

/-- Whatever the effort, all bound code runs just the same under inspection, until it is stopped. -/
theorem follows_of_effort (plain : host.Plain) (stops : Stops) (effort : Nat) :
    EvaluatesInspected (fun p => evaluateInspected p.inspection p.alarm stops host effort)
        (evaluateStopping stops host effort) ∧
      ExecutesInspected (fun p => executeInspected p.inspection p.alarm stops host effort)
        (executeStopping stops host effort) := by
  induction effort with
  | zero => exact ⟨fun stands _ _ => .halt stands.toMeets, fun stands _ _ => .halt stands.toMeets⟩
  | succ effort ih =>
      obtain ⟨evaluates, executes⟩ := ih
      constructor
      · intro R m home scopes e stands bound selfless
        refine .stopping stands.toMeets (.inspect (evaluateInspectedWith_follows evaluates plain
          executes stands bound selfless) ?_)
        intro R' leads meets admits p agrees
        have before := agrees.earlier leads stands.toMeets
        refine p.asks.expression ⟨before.describes stands.holds, agrees.describes meets.holds, ?_,
          before.nearest stands, ?_⟩
        · intro v n ended
          have admitted := admits _ _ ended
          rw [ended] at meets agrees
          exact agrees.knows meets.holds admitted
        · rintro id line rfl
          exact lookUp_self stands bound before line
      · intro R m home scopes inRoutine s stands bound selfless
        refine .stopping stands.toMeets
          (.inspect (executeWith_follows evaluates executes effort stands bound selfless) ?_)
        intro R' leads meets _ p agrees
        have before := agrees.earlier leads stands.toMeets
        refine p.asks.statement ⟨before.describes stands.holds, agrees.describes meets.holds,
          before.nearest stands, ?_⟩
        rintro routine rfl
        exact function_nested stands before effort

/-- A program that is not stopped runs to its end. -/
theorem runAll_never (host : Hosting) (effort : Nat) (program : List Stmt) :
    runAll (executeStopping .never host effort) program = runProgram host effort program := by
  rw [(stopping_never_of_effort host effort).2, runAll_execute]

/-- Statements outside all scopes run just the same under inspection. -/
theorem runAll_follows (executes : ExecutesInspected execute' execute) {program : List Stmt}
    (stands : R.Stands m home []) (bound : Stmt.BoundAll R.ledger inRoutine [] program)
    (selfless : Selfless (Stmt.atomsAll program)) :
    R.Follows m (fun _ _ _ => True) (fun p => runAll (execute' p home) program m)
      (runAll execute program m) := by
  induction program generalizing R m with
  | nil => exact .ok stands.toMeets trivial
  | cons s rest ih =>
      obtain ⟨first, others⟩ := selfless_append.mp selfless
      refine Follows.bind (executes stands bound.1 first) ?_
      intro R' n flow leads meets _
      cases flow with
      | exit v => exact .halt meets
      | next =>
          have behind := bound.2
          rw [Stmt.behind_nil] at behind
          exact ih (stands.lead leads meets) (behind.extend leads.ledger) others

end Run

end Rill
