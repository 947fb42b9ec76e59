import Rill.Proofs.Output.Cutting

/-!
# A sink that is full

A sink with room for only so many bytes cuts the output of a program, and changes nothing else.
-/

namespace Rill

namespace Run

/-! ## Statements and expressions -/

section Parts

variable {total : Nat} {host : Hosting} {evaluate : Expr → Run Value} {execute : Stmt → Run Flow}
  {evaluateTo : Halt → Expr → Run Value} {executeTo : Halt → Stmt → Run Flow}
  (evaluates : ∀ e, Cut total (evaluate e) fun alarm => evaluateTo alarm e)
  (executes : ∀ s, Cut total (execute s) fun alarm => executeTo alarm s)

include executes in
theorem executeAll_cut (body : List Stmt) :
    Cut total (executeAll execute body) fun alarm => executeAll (executeTo alarm) body := by
  induction body with
  | nil => exact .pure _
  | cons s rest ih =>
      refine .bind (executes s) fun flow => ?_
      cases flow with
      | next => exact ih
      | exit value => exact .pure _

include executes in
theorem block_cut (body : List Stmt) :
    Cut total (inNewFrame (executeAll execute body))
      fun alarm => inNewFrame (executeAll (executeTo alarm) body) :=
  .inNewFrame (executeAll_cut executes body)

include evaluates in
theorem evaluateAll_cut (arguments : List Expr) :
    Cut total (evaluateAll evaluate arguments)
      fun alarm => evaluateAll (evaluateTo alarm) arguments := by
  induction arguments with
  | nil => exact .pure _
  | cons e rest ih => exact .bind (evaluates e) fun value => .bind ih fun values => .pure _

include evaluates in
theorem evaluateOption_cut (value : Option Expr) :
    Cut total (evaluateOption evaluate value)
      fun alarm => evaluateOption (evaluateTo alarm) value := by
  cases value with
  | none => exact .pure _
  | some e => exact evaluates e

include executes in
theorem callClosure_cut (c : Closure) (arguments : List Value) :
    Cut total (callClosure execute c arguments)
      fun alarm => callClosure (executeTo alarm) c arguments := by
  refine .bind (.of_silent (newFrame_silent _)) fun frame =>
    .bind (.of_silent (bindParams_silent _ _ _)) fun _ => ?_
  refine .bind (.inFrame frame (executeAll_cut executes _)) fun flow => ?_
  refine .ite (.read (fun _ _ => rfl) fun m => ?_) ?_
  · split
    · exact .pure _
    · exact .of_silent (.throw nofun)
  · cases flow <;> exact .pure _

include executes in
theorem instantiate_cut (c : Class) (arguments : List Value) :
    Cut total (instantiate execute c arguments)
      fun alarm => instantiate (executeTo alarm) c arguments := by
  refine .bind (.of_silent (newObject_silent c)) fun o => ?_
  cases c.initializer? with
  | none => exact .pure _
  | some initializer =>
      exact .bind (.of_silent (bind_silent _ o)) fun bound =>
        .bind (callClosure_cut executes bound arguments) fun _ => .pure _

include executes in
theorem callWith_cut (arguments : List Value) (line : Nat) (callee : Value) :
    Cut total (callWith host execute arguments line callee)
      fun alarm => callWith host (executeTo alarm) arguments line callee := by
  cases callee with
  | closure c => exact callClosure_cut executes c arguments
  | native f => exact .of_silent (callNative_silent host f arguments line)
  | cls c => exact instantiate_cut executes c arguments
  | _ => exact .refuse _ _

include evaluates executes in
theorem callValue_cut (callee : Value) (arguments : List Expr) (line : Nat) :
    Cut total (callValue host evaluate execute callee arguments line)
      fun alarm => callValue host (evaluateTo alarm) (executeTo alarm) callee arguments line := by
  unfold callValue
  cases arity? callee with
  | none => exact .refuse _ _
  | some arity =>
      exact .bind (evaluateAll_cut evaluates arguments) fun values =>
        .ite (callWith_cut executes values line callee) (.refuse _ _)

include evaluates executes in
theorem evaluateWith_cut (e : Expr) :
    Cut total (evaluateWith host evaluate execute e)
      fun alarm => evaluateWith host (evaluateTo alarm) (executeTo alarm) e := by
  cases e with
  | literal value => exact .pure _
  | group inner => exact evaluates inner
  | unary operator operand line =>
      exact .bind (evaluates operand) fun _ => .of_silent (operate_silent _ _)
  | binary left operator right line =>
      exact .bind (evaluates left) fun _ => .bind (evaluates right) fun _ =>
        .of_silent (operate_silent _ _)
  | logical left operator right =>
      exact .bind (evaluates left) fun _ => .ite (.pure _) (evaluates right)
  | var id name => exact .of_silent (lookUp_silent _ _ _)
  | assign id name value =>
      exact .bind (evaluates value) fun _ => .bind (.of_silent (assign_silent _ _ _ _)) fun _ =>
        .pure _
  | call callee arguments line =>
      exact .bind (evaluates callee) fun value =>
        callValue_cut evaluates executes value arguments line
  | get object name =>
      exact .bind (evaluates object) fun _ => .bind (.of_silent (asObject_silent _ _)) fun o =>
        .of_silent (getProperty_silent o name)
  | set object name value =>
      refine .bind (evaluates object) fun _ => .bind (.of_silent (asObject_silent _ _)) fun o => ?_
      exact .bind (evaluates value) fun _ => .bind (.of_silent (setProperty_silent _ _ _)) fun _ =>
        .pure _
  | selfRef id line => exact .of_silent (lookUp_silent _ _ _)

include evaluates in
theorem goesOn_cut (condition : Option Expr) :
    Cut total (goesOn evaluate condition) fun alarm => goesOn (evaluateTo alarm) condition := by
  cases condition with
  | none => exact .pure _
  | some e => exact .bind (evaluates e) fun _ => .pure _

include evaluates executes in
theorem repeatLoop_cut (condition increment : Option Expr) (body : List Stmt) (effort : Nat) :
    Cut total (repeatLoop evaluate execute condition increment body effort) fun alarm =>
      repeatLoop (evaluateTo alarm) (executeTo alarm) condition increment body effort := by
  induction effort with
  | zero => exact .of_silent (.throw nofun)
  | succ effort ih =>
      refine .bind (goesOn_cut evaluates condition) fun _ => .ite ?_ (.pure _)
      refine .bind (block_cut executes body) fun flow => ?_
      cases flow with
      | next => exact .bind (evaluateOption_cut evaluates increment) fun _ => ih
      | exit value => exact .pure _

include evaluates in
theorem startLoop_cut (counter : Option LoopVar) :
    Cut total (startLoop evaluate counter) fun alarm => startLoop (evaluateTo alarm) counter := by
  cases counter with
  | none => exact .pure _
  | some counter => exact .bind (evaluates _) fun _ => .of_silent (define_silent _ _)

include evaluates executes in
theorem executeWith_cut (effort : Nat) (s : Stmt) :
    Cut total (executeWith evaluate execute effort s) fun alarm =>
      executeUntilWith total alarm (evaluateTo alarm) (executeTo alarm) effort s := by
  cases s with
  | expression e => exact .bind (evaluates e) fun _ => .pure _
  | print e => exact .bind (evaluates e) fun value => .bind (print_cut total value) fun _ => .pure _
  | declare name initializer =>
      exact .bind (evaluateOption_cut evaluates initializer) fun _ =>
        .bind (.of_silent (define_silent _ _)) fun _ => .pure _
  | block body => exact block_cut executes body
  | function routine =>
      exact .bind (.of_silent newIdentity_silent) fun _ => .read (fun _ _ => rfl) fun _ =>
        .bind (.of_silent (define_silent _ _)) fun _ => .pure _
  | branch condition thenBody elseBody =>
      refine .bind (evaluates condition) fun _ => .ite (block_cut executes thenBody) ?_
      cases elseBody with
      | none => exact .pure _
      | some body => exact block_cut executes body
  | loop counter condition increment body =>
      refine .inNewFrame (.bind (startLoop_cut evaluates counter) fun _ => ?_)
      exact repeatLoop_cut evaluates executes condition increment body effort
  | exit line value => exact .bind (evaluateOption_cut evaluates value) fun _ => .pure _
  | classDef name methods =>
      refine .read (fun _ _ => rfl) fun m => .bind (.of_silent (makeMethods_silent _ _ methods))
        fun _ => ?_
      exact .bind (.of_silent newIdentity_silent) fun _ => .bind (.of_silent (define_silent _ _))
        fun _ => .pure _

end Parts

/-- A limit cuts the output of every expression and statement. -/
theorem cut_of_effort (total : Nat) (host : Hosting) (effort : Nat) :
    (∀ e, Cut total (evaluate host effort e)
        fun alarm => evaluateUntil total alarm host effort e) ∧
      ∀ s, Cut total (execute host effort s)
        fun alarm => executeUntil total alarm host effort s := by
  induction effort with
  | zero => exact ⟨fun _ => .of_silent (.throw nofun), fun _ => .of_silent (.throw nofun)⟩
  | succ effort ih =>
      obtain ⟨evaluates, executes⟩ := ih
      exact ⟨evaluateWith_cut evaluates executes, executeWith_cut evaluates executes effort⟩

/-! ## Programs -/

theorem runProgram_cut (total : Nat) (host : Hosting) (effort : Nat) (program : List Stmt) :
    Cut total (runProgram host effort program)
      fun alarm => runAll (executeUntil total alarm host effort) program := by
  induction program with
  | nil => exact .pure _
  | cons s rest ih =>
      refine .bind ((cut_of_effort total host effort).2 s) fun flow => ?_
      cases flow with
      | next => exact ih
      | exit value => exact .of_silent (.throw nofun)

/-- If flushing succeeds, a program ends as its statements do. -/
theorem interpret_eq (host : Hosting) (effort : Nat) (program : List Stmt) {m : Machine}
    (flushes : (Machine.ofResult (runProgram host effort program m)).sink.flushes = true) :
    interpret host effort program m = runProgram host effort program m := by
  have flushed {n : Machine} (flushes : n.sink.flushes = true) : flush n = .ok () n := by
    rw [flush, get_bind, Sink.flush, if_pos flushes]
    rfl
  unfold interpret
  revert flushes
  generalize runProgram host effort program m = r
  intro flushes
  cases r with
  | ok _ n => exact flushed flushes
  | error halt n =>
      cases halt with
      | fault _ | output _ =>
          have done : flush n = .ok () n := flushed flushes
          dsimp only
          rw [done]
      | breach _ | spent => rfl

/--
A sink that is full cuts the output and nothing else. Take any machine and any program, and let the
sink have taken some bytes before. If what the program prints into a sink that takes everything
fits in the room of another one, it runs with that one to the same end, and leaves the machine the
same but for the room. Otherwise exactly as many of the bytes are taken as there is room for, and
the run halts because the sink is full. It leaves the machine as it is in front of the print that
does not fit, wherever that one stands, so nothing is executed or evaluated behind it; and the
frame that was current in front of the program is current again.
-/
theorem limit_only_cuts_output (host : Hosting) (effort : Nat) (program : List Stmt) (m : Machine)
    (before : ByteArray) (room : Nat) :
    let free := m.withSink ⟨before, none, true⟩
    let tight := m.withSink ⟨before, some room, true⟩
    let result := interpret host effort program free
    ∃ output : ByteArray, (Machine.ofResult result).sink = ⟨before ++ output, none, true⟩ ∧
      (output.size ≤ room ∧
          interpret host effort program tight =
            leaving (·.withSink ⟨before ++ output, some (room - output.size), true⟩) result ∨
        room < output.size ∧ ∃ k : Machine, k.current = m.current ∧
          (∀ alarm, runAll (executeUntil (before.size + room) alarm host effort) program free =
            .error alarm k) ∧
          interpret host effort program tight = .error (.output .full)
            (k.withSink ⟨before ++ output.extract 0 room, some 0, true⟩)) := by
  intro free tight result
  have cut := runProgram_cut (before.size + room) host effort program
  have takes := cut.takes free rfl
  have result_eq : runProgram host effort program free = result :=
    (interpret_eq host effort program takes.leads.flushes_eq).symm
  rw [result_eq] at takes
  obtain ⟨output, sink_eq⟩ := takes.leads.exists_eq
  have tight_eq : free.limited (before.size + room) = tight :=
    congrArg m.withSink (Sink.limited_self before room)
  have limited_eq : (Machine.ofResult result).sink.limited (before.size + room) =
      ⟨before ++ output.extract 0 room, some (room - output.size), true⟩ := by
    rw [sink_eq, Sink.limited_append]
  have size_eq : (Machine.ofResult result).sink.taken.size = before.size + output.size := by
    rw [sink_eq, ByteArray.size_append]
  have either := (cut.ends free rfl (Nat.le_add_right _ _)).fit_or_not
  rw [result_eq, tight_eq, limited_eq, size_eq] at either
  refine ⟨output, sink_eq, either.imp ?_ ?_⟩
  · rintro ⟨fits, ran⟩
    have within : output.size ≤ room := Nat.le_of_add_le_add_left fits
    rw [leaving_limited limited_eq, Sink.extract_eq_self within] at ran
    refine ⟨within, (interpret_eq host effort program ?_).trans ran⟩
    rw [ran]
    cases result <;> rfl
  · rintro ⟨k, past, untilThere, ran⟩
    have beyond : room < output.size := Nat.lt_of_add_lt_add_left past
    rw [Nat.sub_eq_zero_of_le (Nat.le_of_lt beyond)] at ran
    have continues := runProgram_continues host effort program tight
    rw [ran] at continues
    refine ⟨beyond, k, continues.current_eq, untilThere, ?_⟩
    exact (interpret_eq host effort program (by rw [ran]; rfl)).trans ran

end Run

end Rill
