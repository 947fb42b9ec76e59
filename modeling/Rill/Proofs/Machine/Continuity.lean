import Rill.Machine.Evaluation
import Rill.Proofs.Machine.Variables

/-!
# What no run changes

However a part of a run ends, the frame that was current in front of it is current behind it, and
the bindings are the same. Frames are only added: each goes on to be enclosed by the frame that it
was made in, and to have the names that it has had. Identities are given out in order. Nothing is
asked of the machine for that, so it holds of every statement, expression and call from every state.
-/

namespace Rill

/-- The machine that a run leaves. -/
def Machine.ofResult {α : Type} : EStateM.Result Halt Machine α → Machine
  | .ok _ m => m
  | .error _ m => m

/-- One machine goes on as another one. -/
structure Machine.Continues (m m' : Machine) : Prop where
  current_eq : m'.current = m.current
  bindings_eq : m'.bindings = m.bindings
  size_le : m.forest.frames.size ≤ m'.forest.frames.size
  enclosing?_eq : ∀ frame < m.forest.frames.size,
    m'.forest.enclosing? frame = m.forest.enclosing? frame
  slot?_isSome : ∀ {frame name}, (m.forest.slot? frame name).isSome →
    (m'.forest.slot? frame name).isSome
  nextIdentity_le : m.nextIdentity ≤ m'.nextIdentity

namespace Machine.Continues

variable {m m₁ m₂ : Machine}

theorem refl (m : Machine) : m.Continues m where
  current_eq := rfl
  bindings_eq := rfl
  size_le := Nat.le_refl _
  enclosing?_eq _ _ := rfl
  slot?_isSome had := had
  nextIdentity_le := Nat.le_refl _

theorem trans (former : m.Continues m₁) (latter : m₁.Continues m₂) : m.Continues m₂ where
  current_eq := latter.current_eq.trans former.current_eq
  bindings_eq := latter.bindings_eq.trans former.bindings_eq
  size_le := Nat.le_trans former.size_le latter.size_le
  enclosing?_eq frame old := by
    rw [latter.enclosing?_eq frame (Nat.lt_of_lt_of_le old former.size_le),
      former.enclosing?_eq frame old]
  slot?_isSome had := latter.slot?_isSome (former.slot?_isSome had)
  nextIdentity_le := Nat.le_trans former.nextIdentity_le latter.nextIdentity_le

theorem grows (continues : m.Continues m₁) : m.forest.Grows m₁.forest :=
  ⟨continues.size_le, continues.enclosing?_eq, continues.slot?_isSome⟩

/-- A change of the frames alone goes on as the machine if the frames do. -/
theorem of_grows (m : Machine) {forest : Forest} (grows : m.forest.Grows forest) :
    m.Continues { m with forest := forest } where
  current_eq := rfl
  bindings_eq := rfl
  size_le := grows.size_le
  enclosing?_eq := grows.enclosing?_eq
  slot?_isSome := grows.slot?_isSome
  nextIdentity_le := Nat.le_refl _

theorem addFrame (m : Machine) (enclosing : Option FrameId) :
    m.Continues { m with forest := m.forest.add enclosing } :=
  of_grows m (.add _ _)

theorem define (m : Machine) (frame : FrameId) (name : String) (value : Value) :
    m.Continues { m with forest := m.forest.define frame name value } :=
  of_grows m (.define _ _ _ _)

/-- What happens while another frame is current. -/
theorem within {current : FrameId} (inner : Machine.Continues { m with current := current } m₁) :
    m.Continues { m₁ with current := m.current } :=
  { inner with current_eq := rfl }

end Machine.Continues

namespace Run

variable {α β : Type}

theorem bind_of_ok {x : Run α} {f : α → Run β} {m n : Machine} {a : α} (ran : x m = .ok a n) :
    (x >>= f) m = f a n := by
  change EStateM.bind x f m = _
  rw [EStateM.bind, ran]

theorem bind_of_error {x : Run α} {f : α → Run β} {m n : Machine} {halt : Halt}
    (ran : x m = .error halt n) : (x >>= f) m = .error halt n := by
  change EStateM.bind x f m = _
  rw [EStateM.bind, ran]

theorem inFrame_of_ok {x : Run α} {m n : Machine} {frame : FrameId} {a : α}
    (ran : x { m with current := frame } = .ok a n) :
    inFrame frame x m = .ok a { n with current := m.current } := by
  unfold inFrame
  dsimp only
  rw [ran]

theorem inFrame_of_error {x : Run α} {m n : Machine} {frame : FrameId} {halt : Halt}
    (ran : x { m with current := frame } = .error halt n) :
    inFrame frame x m = .error halt { n with current := m.current } := by
  unfold inFrame
  dsimp only
  rw [ran]

theorem ofResult_inFrame (frame : FrameId) (x : Run α) (m : Machine) :
    Machine.ofResult (inFrame frame x m) =
      { Machine.ofResult (x { m with current := frame }) with current := m.current } := by
  unfold inFrame
  dsimp only
  cases x { m with current := frame } <;> rfl

theorem exists_of_inFrame_eq_ok {x : Run α} {m n : Machine} {frame : FrameId} {a : α}
    (ran : inFrame frame x m = .ok a n) :
    ∃ n', x { m with current := frame } = .ok a n' ∧ n = { n' with current := m.current } := by
  unfold inFrame at ran
  dsimp only at ran
  cases first : x { m with current := frame } with
  | ok b n' =>
      rw [first] at ran
      cases ran
      exact ⟨n', rfl, rfl⟩
  | error halt n' =>
      rw [first] at ran
      cases ran

theorem inFrame_congr {x y : Run α} {m : Machine} {frame : FrameId}
    (same : x { m with current := frame } = y { m with current := frame }) :
    inFrame frame x m = inFrame frame y m := by
  unfold inFrame
  dsimp only
  rw [same]

/-- A sequence that ends well has two parts that do. -/
theorem exists_of_bind_eq_ok {x : Run α} {f : α → Run β} {m n : Machine} {b : β}
    (ran : (x >>= f) m = .ok b n) : ∃ a m₁, x m = .ok a m₁ ∧ f a m₁ = .ok b n := by
  change EStateM.bind x f m = _ at ran
  unfold EStateM.bind at ran
  cases first : x m with
  | ok a m₁ =>
      rw [first] at ran
      exact ⟨a, m₁, rfl, ran⟩
  | error halt m₁ =>
      rw [first] at ran
      cases ran

/-- From every machine, a part of a run leads to one that goes on as that machine. -/
def Continues (x : Run α) : Prop := ∀ m : Machine, m.Continues (Machine.ofResult (x m))

namespace Continues

variable {x : Run α} {f : α → Run β}

theorem pure (a : α) : Continues (Pure.pure a : Run α) := fun m => .refl m

theorem throw (halt : Halt) : Continues (MonadExcept.throw halt : Run α) := fun m => .refl m

theorem get : Continues (MonadState.get : Run Machine) := fun m => .refl m

theorem bind (first : x.Continues) (next : ∀ a, (f a).Continues) : (x >>= f).Continues := by
  intro m
  have before := first m
  change m.Continues (Machine.ofResult (EStateM.bind x f m))
  unfold EStateM.bind
  revert before
  generalize x m = r
  intro before
  cases r with
  | ok a m₁ => exact before.trans (next a m₁)
  | error halt m₁ => exact before

theorem map (g : α → β) (continues : x.Continues) : (g <$> x).Continues := by
  intro m
  have ended := continues m
  change m.Continues (Machine.ofResult (EStateM.map g x m))
  unfold EStateM.map
  revert ended
  generalize x m = r
  intro ended
  cases r <;> exact ended

theorem ite {condition : Prop} [Decidable condition] {y : Run α} (yes : x.Continues)
    (no : y.Continues) : (if condition then x else y).Continues := by
  split
  · exact yes
  · exact no

end Continues

theorem refuse_continues (line : Nat) (cause : RuntimeCause) :
    (refuse line cause : Run α).Continues :=
  .throw _

/-! ## Frames and variables -/

theorem newFrame_continues (enclosing : FrameId) : (newFrame enclosing).Continues :=
  fun m => .addFrame m enclosing

theorem newIdentity_continues : newIdentity.Continues := fun m =>
  { Machine.Continues.refl m with nextIdentity_le := Nat.le_succ _ }

theorem countHostCall_continues : countHostCall.Continues :=
  fun m => { Machine.Continues.refl m with }

theorem defineIn_continues (frame : FrameId) (name : String) (value : Value) :
    (defineIn frame name value).Continues :=
  fun m => .define m frame name value

theorem define_continues (name : String) (value : Value) : (define name value).Continues :=
  fun m => .define m m.current name value

theorem inFrame_continues (frame : FrameId) {body : Run α} (continues : body.Continues) :
    (inFrame frame body).Continues := by
  intro m
  have inner := continues { m with current := frame }
  unfold inFrame
  dsimp only
  revert inner
  generalize body { m with current := frame } = r
  intro inner
  cases r <;> exact inner.within

theorem inNewFrame_continues {body : Run α} (continues : body.Continues) :
    (inNewFrame body).Continues :=
  .bind .get fun _ => .bind (newFrame_continues _) fun frame => inFrame_continues frame continues

theorem lookUp_continues (id : Occurrence) (name : String) (line : Nat) :
    (lookUp id name line).Continues := by
  refine .bind .get fun m => ?_
  split <;> split <;> first | exact .pure _ | exact .throw _

theorem assign_continues (id : Occurrence) (name : String) (value : Value) (line : Nat) :
    (assign id name value line).Continues := by
  refine .bind .get fun m => ?_
  split <;> split <;> first | exact defineIn_continues _ _ _ | exact .throw _

/-! ## Output -/

theorem write_continues (text : String) : (write text).Continues := by
  intro m
  have kept (sink : Sink) : m.Continues { m with sink := sink } :=
    { Machine.Continues.refl m with }
  rw [write, get_bind]
  obtain ⟨sink, fault⟩ := m.sink.write text
  cases fault <;> exact kept sink

theorem print_continues (value : Value) : (print value).Continues :=
  .bind (write_continues _) fun _ => write_continues _

/-! ## Instances -/

theorem newObject_continues (c : Class) : (newObject c).Continues := by
  refine .bind newIdentity_continues fun identity => .bind ?_ fun _ => .pure _
  exact fun m => { Machine.Continues.refl m with }

theorem bind_continues (method : Closure) (o : Object) : (Run.bind method o).Continues :=
  .bind (newFrame_continues _) fun _ => .bind (defineIn_continues _ _ _) fun _ =>
    .bind newIdentity_continues fun _ => .pure _

theorem getProperty_continues (o : Object) (name : Ident) : (getProperty o name).Continues := by
  refine .bind .get fun m => ?_
  split
  · exact .pure _
  · split
    · exact .bind (bind_continues _ _) fun _ => .pure _
    · exact refuse_continues _ _

theorem setProperty_continues (o : Object) (name : String) (value : Value) :
    (setProperty o name value).Continues :=
  fun m => { Machine.Continues.refl m with }

/-! ## Calls -/

section Parts

variable {host : Hosting} {evaluate : Expr → Run Value} {execute : Stmt → Run Flow}
  (evaluates : ∀ e, (evaluate e).Continues) (executes : ∀ s, (execute s).Continues)

include executes in
theorem executeAll_continues (body : List Stmt) : (executeAll execute body).Continues := by
  induction body with
  | nil => exact .pure _
  | cons s rest ih =>
      refine .bind (executes s) fun flow => ?_
      cases flow with
      | next => exact ih
      | exit value => exact .pure _

include executes in
theorem block_continues (body : List Stmt) : (inNewFrame (executeAll execute body)).Continues :=
  inNewFrame_continues (executeAll_continues executes body)

include evaluates in
theorem evaluateAll_continues (arguments : List Expr) :
    (evaluateAll evaluate arguments).Continues := by
  induction arguments with
  | nil => exact .pure _
  | cons e rest ih => exact .bind (evaluates e) fun value => .bind ih fun values => .pure _

include evaluates in
theorem evaluateOption_continues (value : Option Expr) :
    (evaluateOption evaluate value).Continues := by
  cases value with
  | none => exact .pure _
  | some e => exact evaluates e

theorem bindParams_continues (frame : FrameId) (params : List Ident) (values : List Value) :
    (bindParams frame params values).Continues := by
  induction params generalizing values with
  | nil => exact .pure _
  | cons name names ih =>
      cases values with
      | nil => exact .pure _
      | cons value values => exact .bind (defineIn_continues _ _ _) fun _ => ih values

include executes in
theorem callClosure_continues (c : Closure) (arguments : List Value) :
    (callClosure execute c arguments).Continues := by
  refine .bind (newFrame_continues _) fun frame => .bind (bindParams_continues _ _ _) fun _ => ?_
  refine .bind (inFrame_continues frame (executeAll_continues executes _)) fun flow => ?_
  refine .ite (.bind .get fun m => ?_) ?_
  · split
    · exact .pure _
    · exact .throw _
  · cases flow <;> exact .pure _

include executes in
theorem instantiate_continues (c : Class) (arguments : List Value) :
    (instantiate execute c arguments).Continues := by
  refine .bind (newObject_continues c) fun o => ?_
  split
  · exact .pure _
  · refine .bind (bind_continues _ o) fun bound => ?_
    exact .bind (callClosure_continues executes bound arguments) fun _ => .pure _

theorem callNative_continues (f : Native) (arguments : List Value) (line : Nat) :
    (callNative host f arguments line).Continues := by
  refine .bind countHostCall_continues fun call => ?_
  split
  · exact .pure _
  · exact refuse_continues _ _

include executes in
theorem callWith_continues (arguments : List Value) (line : Nat) (callee : Value) :
    (callWith host execute arguments line callee).Continues := by
  cases callee with
  | closure c => exact callClosure_continues executes c arguments
  | native f => exact callNative_continues f arguments line
  | cls c => exact instantiate_continues executes c arguments
  | _ => exact refuse_continues _ _

include evaluates executes in
theorem callValue_continues (callee : Value) (arguments : List Expr) (line : Nat) :
    (callValue host evaluate execute callee arguments line).Continues := by
  unfold callValue
  split
  · exact refuse_continues _ _
  · refine .bind (evaluateAll_continues evaluates arguments) fun values => ?_
    exact .ite (callWith_continues executes values line callee) (refuse_continues _ _)

/-! ## Expressions -/

theorem operate_continues (line : Nat) (result : Except OperandRule Value) :
    (operate line result).Continues := by
  cases result with
  | ok value => exact .pure _
  | error rule => exact refuse_continues _ _

theorem asObject_continues (line : Nat) (value : Value) : (asObject line value).Continues := by
  cases value with
  | object o => exact .pure _
  | _ => exact refuse_continues _ _

include evaluates executes in
theorem evaluateWith_continues (e : Expr) : (evaluateWith host evaluate execute e).Continues := by
  cases e with
  | literal value => exact .pure _
  | group inner => exact evaluates inner
  | unary operator operand line => exact .bind (evaluates operand) fun _ => operate_continues _ _
  | binary left operator right line =>
      exact .bind (evaluates left) fun _ => .bind (evaluates right) fun _ => operate_continues _ _
  | logical left operator right =>
      exact .bind (evaluates left) fun _ => .ite (.pure _) (evaluates right)
  | var id name => exact lookUp_continues _ _ _
  | assign id name value =>
      exact .bind (evaluates value) fun _ => .bind (assign_continues _ _ _ _) fun _ => .pure _
  | call callee arguments line =>
      exact .bind (evaluates callee) fun value =>
        callValue_continues evaluates executes value arguments line
  | get object name =>
      exact .bind (evaluates object) fun _ => .bind (asObject_continues _ _) fun o =>
        getProperty_continues o name
  | set object name value =>
      refine .bind (evaluates object) fun _ => .bind (asObject_continues _ _) fun o => ?_
      exact .bind (evaluates value) fun _ => .bind (setProperty_continues _ _ _) fun _ => .pure _
  | selfRef id line => exact lookUp_continues _ _ _

/-! ## Statements -/

theorem makeMethods_continues (frame : FrameId) (methods : Table Closure)
    (routines : List Routine) : (makeMethods frame methods routines).Continues := by
  induction routines generalizing methods with
  | nil => exact .pure _
  | cons routine rest ih => exact .bind newIdentity_continues fun _ => ih _

include evaluates in
theorem goesOn_continues (condition : Option Expr) : (goesOn evaluate condition).Continues := by
  cases condition with
  | none => exact .pure _
  | some e => exact .bind (evaluates e) fun _ => .pure _

include evaluates executes in
theorem repeatLoop_continues (condition increment : Option Expr) (body : List Stmt)
    (effort : Nat) :
    (repeatLoop evaluate execute condition increment body effort).Continues := by
  induction effort with
  | zero => exact .throw _
  | succ effort ih =>
      refine .bind (goesOn_continues evaluates condition) fun _ => .ite ?_ (.pure _)
      refine .bind (block_continues executes body) fun flow => ?_
      cases flow with
      | next => exact .bind (evaluateOption_continues evaluates increment) fun _ => ih
      | exit value => exact .pure _

include evaluates in
theorem startLoop_continues (counter : Option LoopVar) :
    (startLoop evaluate counter).Continues := by
  cases counter with
  | none => exact .pure _
  | some counter => exact .bind (evaluates _) fun _ => define_continues _ _

include evaluates executes in
theorem executeWith_continues (effort : Nat) (s : Stmt) :
    (executeWith evaluate execute effort s).Continues := by
  cases s with
  | expression e => exact .bind (evaluates e) fun _ => .pure _
  | print e => exact .bind (evaluates e) fun _ => .bind (print_continues _) fun _ => .pure _
  | declare name initializer =>
      exact .bind (evaluateOption_continues evaluates initializer) fun _ =>
        .bind (define_continues _ _) fun _ => .pure _
  | block body => exact block_continues executes body
  | function routine =>
      exact .bind newIdentity_continues fun _ => .bind .get fun _ =>
        .bind (define_continues _ _) fun _ => .pure _
  | branch condition thenBody elseBody =>
      refine .bind (evaluates condition) fun _ => .ite (block_continues executes thenBody) ?_
      cases elseBody with
      | none => exact .pure _
      | some body => exact block_continues executes body
  | loop counter condition increment body =>
      refine inNewFrame_continues (.bind (startLoop_continues evaluates counter) fun _ => ?_)
      exact repeatLoop_continues evaluates executes condition increment body effort
  | exit line value =>
      exact .bind (evaluateOption_continues evaluates value) fun _ => .pure _
  | classDef name methods =>
      refine .bind .get fun m => .bind (makeMethods_continues _ _ methods) fun _ => ?_
      exact .bind newIdentity_continues fun _ => .bind (define_continues _ _) fun _ => .pure _

end Parts

/-- Expressions and statements are run without lasting changes to what is current or bound. -/
theorem continues_of_effort (host : Hosting) (effort : Nat) :
    (∀ e, (evaluate host effort e).Continues) ∧ ∀ s, (execute host effort s).Continues := by
  induction effort with
  | zero => exact ⟨fun _ => .throw _, fun _ => .throw _⟩
  | succ effort ih =>
      obtain ⟨evaluates, executes⟩ := ih
      exact ⟨evaluateWith_continues evaluates executes,
        executeWith_continues evaluates executes effort⟩

theorem evaluate_continues (host : Hosting) (effort : Nat) (e : Expr) :
    (evaluate host effort e).Continues :=
  (continues_of_effort host effort).1 e

theorem execute_continues (host : Hosting) (effort : Nat) (s : Stmt) :
    (execute host effort s).Continues :=
  (continues_of_effort host effort).2 s

/-! ## Programs -/

theorem runProgram_continues (host : Hosting) (effort : Nat) (program : List Stmt) :
    (runProgram host effort program).Continues := by
  induction program with
  | nil => exact .pure _
  | cons s rest ih =>
      refine .bind (execute_continues host effort s) fun flow => ?_
      cases flow with
      | next => exact ih
      | exit value => exact .throw _

section Append

variable {host : Hosting} {effort : Nat} {m n : Machine} {first : List Stmt}

/-- Statements one behind the other are run one after the other. -/
theorem runProgram_append (first second : List Stmt) :
    runProgram host effort (first ++ second) =
      (runProgram host effort first >>= fun _ => runProgram host effort second) := by
  induction first with
  | nil => rfl
  | cons s rest ih =>
      rw [List.cons_append, runProgram, runProgram, ih, bind_assoc]
      apply bind_congr
      intro flow
      cases flow <;> rfl

theorem runProgram_append_of_ok (ran : runProgram host effort first m = .ok () n)
    (second : List Stmt) :
    runProgram host effort (first ++ second) m = runProgram host effort second n := by
  rw [runProgram_append, bind_of_ok ran]

theorem runProgram_append_of_error {halt : Halt}
    (ran : runProgram host effort first m = .error halt n) (second : List Stmt) :
    runProgram host effort (first ++ second) m = .error halt n := by
  rw [runProgram_append, bind_of_error ran]

end Append

/-- Flushing leaves the machine as it is. -/
theorem ofResult_flush (m : Machine) : Machine.ofResult (flush m) = m := by
  rw [flush, get_bind]
  cases m.sink.flush <;> rfl

/-- A program leaves the machine as its last statement leaves it. -/
theorem ofResult_interpret (host : Hosting) (effort : Nat) (program : List Stmt) (m : Machine) :
    Machine.ofResult (interpret host effort program m) =
      Machine.ofResult (runProgram host effort program m) := by
  unfold interpret
  cases runProgram host effort program m with
  | ok _ n => exact ofResult_flush n
  | error halt n =>
      have left := ofResult_flush n
      cases halt with
      | fault _ | output _ =>
          dsimp only
          revert left
          generalize flush n = r
          intro left
          cases r <;> exact left
      | breach breach => rfl
      | spent => rfl

theorem interpret_continues (host : Hosting) (effort : Nat) (program : List Stmt) :
    (interpret host effort program).Continues := by
  intro m
  rw [ofResult_interpret]
  exact runProgram_continues host effort program m

end Run

end Rill
