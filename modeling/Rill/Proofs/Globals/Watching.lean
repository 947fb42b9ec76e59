import Rill.Proofs.Globals.Keeping
import Rill.Proofs.Inspection.Code

/-!
# Watching assignments

To tell which assignments are made while code runs, the code is run under watch: an assignment that
is not bound raises an alarm when it would give a certain global a value that it is not permitted
to. Without an alarm, code under watch runs as it does otherwise, also when it is stopped on the
way.
-/

namespace Rill

/-- A global that is watched. -/
structure Watch where
  name : String
  /-- The values that assignments may give it. -/
  permits : Value → Bool
  alarm : Halt

/-- An assignment is about to give the watched global a value that it may not. -/
def Watch.Trips (w : Watch) (m : Machine) (id : Occurrence) (name : String) (v : Value) : Prop :=
  m.bindings[id]? = none ∧ (m.forest.slot? Machine.globals name).isSome ∧ name = w.name ∧
    w.permits v = false

instance (w : Watch) (m : Machine) (id : Occurrence) (name : String) (v : Value) :
    Decidable (w.Trips m id name v) :=
  inferInstanceAs (Decidable (_ ∧ _ ∧ _ ∧ _))

namespace Run

variable {α β : Type}

/-! ## Code under watch -/

/-- Evaluates an expression under watch, given how parts are evaluated and functions executed. -/
def evaluateWatchedWith (w : Watch) (host : Hosting) (evaluate : Expr → Run Value)
    (execute : Stmt → Run Flow) : Expr → Run Value
  | .assign id name e => do
    let value ← evaluate e
    let m ← get
    if w.Trips m id name.name value then throw w.alarm
    else do
      assign id name.name value name.line
      return value
  | e => evaluateWith host evaluate execute e

mutual

/-- Evaluates an expression under watch, unless it is stopped. -/
def evaluateWatched (w : Watch) (stops : Stops) (host : Hosting) : (effort : Nat) → Expr → Run Value
  | 0, _ => throw .spent
  | effort + 1, e =>
    stopping stops (evaluateWatchedWith w host (evaluateWatched w stops host effort)
      (executeWatched w stops host effort) e)

/-- Executes a statement under watch, unless it is stopped. -/
def executeWatched (w : Watch) (stops : Stops) (host : Hosting) : (effort : Nat) → Stmt → Run Flow
  | 0, _ => throw .spent
  | effort + 1, s =>
    stopping stops (executeWith (evaluateWatched w stops host effort)
      (executeWatched w stops host effort) effort s)

end

/--
Executes a statement among the globals, unless it is stopped in front of it or in some part, given
how parts are evaluated and executed. A statement that comes to its end is not stopped any more.
-/
def executeReaching (stops : Stops) (evaluate : Nat → Expr → Run Value)
    (execute : Nat → Stmt → Run Flow) : (effort : Nat) → Stmt → Run Flow
  | 0, _ => throw .spent
  | effort + 1, s => do
    stop stops
    executeWith (evaluate effort) (execute effort) effort s

/-- Executes a statement among the globals until it is stopped. -/
def executeAsFar (stops : Stops) (host : Hosting) (effort : Nat) : Stmt → Run Flow :=
  executeReaching stops (evaluateStopping stops host) (executeStopping stops host) effort

/-- Executes a statement among the globals under watch until it is stopped. -/
def watchAsFar (w : Watch) (stops : Stops) (host : Hosting) (effort : Nat) : Stmt → Run Flow :=
  executeReaching stops (evaluateWatched w stops host) (executeWatched w stops host) effort

theorem executeAsFar_never (host : Hosting) (effort : Nat) :
    executeAsFar .never host effort = execute host effort := by
  funext s
  cases effort with
  | zero => rfl
  | succ effort =>
      obtain ⟨evaluates, executes⟩ := stopping_never_of_effort host effort
      rw [executeAsFar, executeReaching, evaluates, executes, execute]
      exact funext fun m => stop_bind_of_none rfl _

/-- Runs a program, given how its statements are executed. -/
def runAll (execute : Stmt → Run Flow) : List Stmt → Run Unit
  | [] => return
  | s :: rest => do
    match ← execute s with
    | .next => runAll execute rest
    | .exit value => throw (.breach (.strayReturn value.text))

/-- The statements of a program that come to their end, up to the first that does not. -/
def completed (execute : Stmt → Run Flow) : List Stmt → Machine → List Stmt
  | [], _ => []
  | s :: rest, m =>
    match execute s m with
    | .ok .next n => s :: completed execute rest n
    | _ => []

theorem runAll_execute (host : Hosting) (effort : Nat) (program : List Stmt) :
    runAll (execute host effort) program = runProgram host effort program := by
  induction program with
  | nil => rfl
  | cons s rest ih =>
      refine congrArg (execute host effort s >>= ·) (funext fun flow => ?_)
      cases flow with
      | next => exact ih
      | exit v => rfl

/-! ## Without an alarm -/

/-- A run goes as another one does, unless it halts with an alarm. -/
def GoesAs (alarm : Halt) (x y : Run α) : Prop :=
  ∀ m, x m = y m ∨ ∃ n, x m = .error alarm n

namespace GoesAs

variable {alarm : Halt} {x y : Run α} {f g : α → Run β}

theorem refl (x : Run α) : GoesAs alarm x x := fun _ => .inl rfl

theorem bind (first : GoesAs alarm x y) (next : ∀ a, GoesAs alarm (f a) (g a)) :
    GoesAs alarm (x >>= f) (y >>= g) := by
  intro m
  change EStateM.bind x f m = EStateM.bind y g m ∨ ∃ n, EStateM.bind x f m = .error alarm n
  unfold EStateM.bind
  rcases first m with same | ⟨n, raised⟩
  · rw [same]
    cases y m with
    | ok a n => exact next a n
    | error halt n => exact .inl rfl
  · rw [raised]
    exact .inr ⟨n, rfl⟩

theorem ite {condition : Prop} [Decidable condition] {x' y' : Run α} (yes : GoesAs alarm x y)
    (no : GoesAs alarm x' y') :
    GoesAs alarm (if condition then x else x') (if condition then y else y') := by
  split
  · exact yes
  · exact no

theorem inFrame (frame : FrameId) (body : GoesAs alarm x y) :
    GoesAs alarm (Run.inFrame frame x) (Run.inFrame frame y) := by
  intro m
  unfold Run.inFrame
  rcases body { m with current := frame } with same | ⟨n, raised⟩
  · rw [same]
    exact .inl rfl
  · dsimp only
    rw [raised]
    exact .inr ⟨_, rfl⟩

theorem inNewFrame (body : GoesAs alarm x y) :
    GoesAs alarm (Run.inNewFrame x) (Run.inNewFrame y) :=
  .bind (.refl _) fun _ => .bind (.refl _) fun frame => inFrame frame body

theorem stopping (stops : Stops) (goes : GoesAs alarm x y) :
    GoesAs alarm (Run.stopping stops x) (Run.stopping stops y) :=
  .bind (.refl _) fun _ => .bind goes fun _ => .refl _

end GoesAs

section Parts

variable {alarm : Halt} {host : Hosting} {evaluate evaluate' : Expr → Run Value}
  {execute execute' : Stmt → Run Flow}
  (evaluates : ∀ e, GoesAs alarm (evaluate e) (evaluate' e))
  (executes : ∀ s, GoesAs alarm (execute s) (execute' s))

include executes in
theorem executeAll_goesAs (body : List Stmt) :
    GoesAs alarm (executeAll execute body) (executeAll execute' body) := by
  induction body with
  | nil => exact .refl _
  | cons s rest ih =>
      refine .bind (executes s) fun flow => ?_
      cases flow with
      | next => exact ih
      | exit value => exact .refl _

include executes in
theorem callClosure_goesAs (c : Closure) (arguments : List Value) :
    GoesAs alarm (callClosure execute c arguments) (callClosure execute' c arguments) :=
  .bind (.refl _) fun frame => .bind (.refl _) fun _ =>
    .bind (.inFrame frame (executeAll_goesAs executes _)) fun _ => .refl _

include executes in
theorem instantiate_goesAs (c : Class) (arguments : List Value) :
    GoesAs alarm (instantiate execute c arguments) (instantiate execute' c arguments) := by
  refine .bind (.refl _) fun o => ?_
  cases c.initializer? with
  | none => exact .refl _
  | some initializer =>
      exact .bind (.refl _) fun bound => .bind (callClosure_goesAs executes bound arguments)
        fun _ => .refl _

include executes in
theorem callWith_goesAs (callee : Value) (arguments : List Value) (line : Nat) :
    GoesAs alarm (callWith host execute arguments line callee)
      (callWith host execute' arguments line callee) := by
  cases callee with
  | closure c => exact callClosure_goesAs executes c arguments
  | cls c => exact instantiate_goesAs executes c arguments
  | _ => exact .refl _

include evaluates in
theorem evaluateAll_goesAs (arguments : List Expr) :
    GoesAs alarm (evaluateAll evaluate arguments) (evaluateAll evaluate' arguments) := by
  induction arguments with
  | nil => exact .refl _
  | cons e rest ih => exact .bind (evaluates e) fun _ => .bind ih fun _ => .refl _

include evaluates in
theorem evaluateOption_goesAs (value : Option Expr) :
    GoesAs alarm (evaluateOption evaluate value) (evaluateOption evaluate' value) := by
  cases value with
  | none => exact .refl _
  | some e => exact evaluates e

include evaluates executes in
theorem callValue_goesAs (callee : Value) (arguments : List Expr) (line : Nat) :
    GoesAs alarm (callValue host evaluate execute callee arguments line)
      (callValue host evaluate' execute' callee arguments line) := by
  unfold callValue
  cases arity? callee with
  | none => exact .refl _
  | some arity =>
      exact .bind (evaluateAll_goesAs evaluates arguments) fun values =>
        .ite (callWith_goesAs executes callee values line) (.refl _)

include evaluates executes in
theorem evaluateWith_goesAs (e : Expr) :
    GoesAs alarm (evaluateWith host evaluate execute e)
      (evaluateWith host evaluate' execute' e) := by
  cases e with
  | literal value => exact .refl _
  | group inner => exact evaluates inner
  | unary operator operand line => exact .bind (evaluates operand) fun _ => .refl _
  | binary left operator right line =>
      exact .bind (evaluates left) fun _ => .bind (evaluates right) fun _ => .refl _
  | logical left operator right =>
      exact .bind (evaluates left) fun _ => .ite (.refl _) (evaluates right)
  | var id name => exact .refl _
  | assign id name value => exact .bind (evaluates value) fun _ => .refl _
  | call callee arguments line =>
      exact .bind (evaluates callee) fun value =>
        callValue_goesAs evaluates executes value arguments line
  | get object name => exact .bind (evaluates object) fun _ => .refl _
  | set object name value =>
      exact .bind (evaluates object) fun _ => .bind (.refl _) fun _ =>
        .bind (evaluates value) fun _ => .refl _
  | selfRef id line => exact .refl _

include evaluates executes in
theorem repeatLoop_goesAs (condition increment : Option Expr) (body : List Stmt) (effort : Nat) :
    GoesAs alarm (repeatLoop evaluate execute condition increment body effort)
      (repeatLoop evaluate' execute' condition increment body effort) := by
  induction effort with
  | zero => exact .refl _
  | succ effort ih =>
      refine .bind ?_ fun goesOn => .ite (.bind (.inNewFrame (executeAll_goesAs executes body)) ?_)
        (.refl _)
      · cases condition with
        | none => exact .refl _
        | some condition => exact .bind (evaluates condition) fun _ => .refl _
      · intro flow
        cases flow with
        | exit value => exact .refl _
        | next => exact .bind (evaluateOption_goesAs evaluates increment) fun _ => ih

include evaluates executes in
theorem executeWith_goesAs (effort : Nat) (s : Stmt) :
    GoesAs alarm (executeWith evaluate execute effort s)
      (executeWith evaluate' execute' effort s) := by
  have blocks (body : List Stmt) :
      GoesAs alarm (inNewFrame (executeAll execute body)) (inNewFrame (executeAll execute' body)) :=
    .inNewFrame (executeAll_goesAs executes body)
  cases s with
  | expression e => exact .bind (evaluates e) fun _ => .refl _
  | print e => exact .bind (evaluates e) fun _ => .refl _
  | declare name initializer =>
      exact .bind (evaluateOption_goesAs evaluates initializer) fun _ => .refl _
  | block body => exact blocks body
  | function routine => exact .refl _
  | branch condition thenBody elseBody =>
      refine .bind (evaluates condition) fun _ => .ite (blocks thenBody) ?_
      cases elseBody with
      | none => exact .refl _
      | some body => exact blocks body
  | loop counter condition increment body =>
      refine .inNewFrame (.bind ?_ fun _ =>
        repeatLoop_goesAs evaluates executes condition increment body effort)
      cases counter with
      | none => exact .refl _
      | some counter => exact .bind (evaluates counter.value) fun _ => .refl _
  | exit line value => exact .bind (evaluateOption_goesAs evaluates value) fun _ => .refl _
  | classDef name methods => exact .refl _

end Parts

/-- Code under watch goes as it does otherwise, unless it raises the alarm. -/
theorem watched_goesAs (w : Watch) (stops : Stops) (host : Hosting) (effort : Nat) :
    (∀ e, GoesAs w.alarm (evaluateWatched w stops host effort e)
      (evaluateStopping stops host effort e)) ∧
    ∀ s, GoesAs w.alarm (executeWatched w stops host effort s)
      (executeStopping stops host effort s) := by
  induction effort with
  | zero => exact ⟨fun _ => .refl _, fun _ => .refl _⟩
  | succ effort ih =>
      obtain ⟨evaluates, executes⟩ := ih
      refine ⟨fun e => .stopping stops ?_, fun s =>
        .stopping stops (executeWith_goesAs evaluates executes effort s)⟩
      have rest : GoesAs w.alarm (evaluateWith host (evaluateWatched w stops host effort)
          (executeWatched w stops host effort) e) (evaluateWith host _ _ e) :=
        evaluateWith_goesAs evaluates executes e
      cases e with
      | assign id name value =>
          refine .bind (evaluates value) fun v m => ?_
          by_cases trips : w.Trips m id name.name v
          · exact .inr ⟨m, by rw [get_bind, if_pos trips]; rfl⟩
          · exact .inl (by rw [get_bind, if_neg trips])
      | _ => exact rest

theorem watchAsFar_goesAs (w : Watch) (stops : Stops) (host : Hosting) (effort : Nat) (s : Stmt) :
    GoesAs w.alarm (watchAsFar w stops host effort s) (executeAsFar stops host effort s) := by
  cases effort with
  | zero => exact .refl _
  | succ effort =>
      obtain ⟨evaluates, executes⟩ := watched_goesAs w stops host effort
      exact .bind (.refl _) fun _ => executeWith_goesAs evaluates executes effort s

theorem runAll_goesAs {alarm : Halt} {execute execute' : Stmt → Run Flow}
    (executes : ∀ s, GoesAs alarm (execute s) (execute' s)) (program : List Stmt) (m : Machine) :
    (runAll execute program m = runAll execute' program m ∧
        completed execute program m = completed execute' program m) ∨
      ∃ n, runAll execute program m = .error alarm n := by
  induction program generalizing m with
  | nil => exact .inl ⟨rfl, rfl⟩
  | cons s rest ih =>
      change (EStateM.bind (execute s) _ m = EStateM.bind (execute' s) _ m ∧ _) ∨
        ∃ n, EStateM.bind (execute s) _ m = .error alarm n
      unfold EStateM.bind
      rw [completed, completed]
      rcases executes s m with same | ⟨n, raised⟩
      · rw [same]
        cases execute' s m with
        | error halt n => exact .inl ⟨rfl, rfl⟩
        | ok flow n =>
            cases flow with
            | exit value => exact .inl ⟨rfl, rfl⟩
            | next =>
                exact (ih n).imp_left fun ⟨runs, ends⟩ => ⟨runs, congrArg (s :: ·) ends⟩
      · rw [raised]
        exact .inr ⟨n, rfl⟩

end Run

end Rill
