import Rill.Proofs.Joining.Sessions
import Rill.Proofs.Relabelling.Definitions
import Rill.Proofs.Scope.Permutation

/-!
# The order of declarations

The functions and classes of a program may be declared in any order. Whatever stands in front of the
declarations or behind them, and whatever session the program is run in, it comes to the same
failure, prints the same, and leaves globals that look the same.
-/

namespace Rill

open Relabelling

namespace Run

variable {host : Hosting} {d e : Definition} {m m' : Machine}

/-- A clock does not look at values. -/
theorem answersCarried_withClock (π : Relabelling) (readings : Nat → Except String Number) :
    AnswersCarried π (.withClock readings) := by
  intro next call f values values' _
  rcases Lexical.answer_withClock readings call f with ⟨reading, answers⟩ | ⟨message, answers⟩
  · exact .inl ⟨_, _, answers values, answers values', .number reading⟩
  · exact .inr ⟨message, answers values, answers values'⟩

/-- Two declarations of different names can be exchanged, in front of any statements. -/
theorem runProgram_exchange (hosts : ∀ π, AnswersCarried π host) (effort : Nat)
    (agree : same.Agree m m') (different : d.name ≠ e.name) (after : List Stmt) :
    ∃ π : Relabelling, π.SameEnd
      (runProgram host effort (d.statement :: e.statement :: after) m)
      (runProgram host effort (e.statement :: d.statement :: after) m') := by
  cases effort with
  | zero => exact ⟨same, .error ⟨rfl, agree⟩⟩
  | succ effort =>
      rw [runProgram_definition, runProgram_definition, runProgram_definition,
        runProgram_definition]
      exact ⟨_, runProgram_sameEnd (hosts _) _ after (agree.exchange different)⟩

/-- Two declarations of different names can be exchanged wherever they stand in a program. -/
theorem runProgram_exchange_between (hosts : ∀ π, AnswersCarried π host) (effort : Nat)
    (agree : same.Agree m m') (different : d.name ≠ e.name) (before after : List Stmt) :
    ∃ π : Relabelling, π.SameEnd
      (runProgram host effort (before ++ d.statement :: e.statement :: after) m)
      (runProgram host effort (before ++ e.statement :: d.statement :: after) m') := by
  rcases (runProgram_sameEnd (hosts same) effort before agree).ok_or_error with
    ⟨_, n, _, n', ran, ran', agree⟩ | ⟨halt, n, _, n', ran, ran', rfl, agree⟩
  · rw [runProgram_append_of_ok ran, runProgram_append_of_ok ran']
    exact runProgram_exchange hosts effort agree different after
  · rw [runProgram_append_of_error ran, runProgram_append_of_error ran']
    exact ⟨same, .error ⟨rfl, agree⟩⟩

end Run

namespace Session

variable {host : Hosting} {session session' : Session} {fresh : Occurrence}
  {program program' : Program} {effort : Nat} {π : Relabelling}

/-! ## Sessions -/

/-- Runs in two sessions came to the same failure, and nothing that they left tells them apart. -/
structure SameOutcome (ran ran' : Session × Option Failure) : Prop where
  failure_eq : ran.2 = ran'.2
  sink_eq : ran.1.machine.sink = ran'.1.machine.sink
  appearance?_eq : ran.1.machine.appearance? = ran'.1.machine.appearance?

theorem SameOutcome.trans {first second third : Session × Option Failure}
    (former : SameOutcome first second) (latter : SameOutcome second third) :
    SameOutcome first third where
  failure_eq := former.failure_eq.trans latter.failure_eq
  sink_eq := former.sink_eq.trans latter.sink_eq
  appearance?_eq := former.appearance?_eq.trans latter.appearance?_eq

/-- Programs that come to the same end have the same failure, and leave machines that agree. -/
theorem runProgram_of_sameEnd
    (ends : π.SameEnd
      (Run.runProgram host effort program.statements
        (session.machine.addBindings program.bindings))
      (Run.runProgram host effort program'.statements
        (session'.machine.addBindings program'.bindings))) :
    (session.runProgram host effort program).2 = (session'.runProgram host effort program').2 ∧
      π.Agree (session.runProgram host effort program).1.machine
        (session'.runProgram host effort program').1.machine := by
  unfold runProgram
  rcases (Run.interpret_sameEnd ends).ok_or_error with
    ⟨_, n, _, n', ran, ran', agree⟩ | ⟨halt, n, _, n', ran, ran', rfl, agree⟩
  · rw [ran, ran']
    exact ⟨rfl, agree⟩
  · rw [ran, ran']
    exact ⟨rfl, agree⟩

theorem sameOutcome_of_sameEnd
    (ends : π.SameEnd
      (Run.runProgram host effort program.statements
        (session.machine.addBindings program.bindings))
      (Run.runProgram host effort program'.statements
        (session'.machine.addBindings program'.bindings))) :
    SameOutcome (session.runProgram host effort program)
      (session'.runProgram host effort program') := by
  obtain ⟨failure_eq, agree⟩ := runProgram_of_sameEnd ends
  exact ⟨failure_eq, agree.sink_eq, agree.appearance?_eq⟩

/-- A new session has given out no identity. -/
theorem agree_start (sink : Sink) : same.Agree (start sink).machine (start sink).machine := by
  have absent (frame : FrameId) (name : String) :
      (Machine.empty sink).forest.slot? frame name = none :=
    Forest.slot?_add Forest.empty frame name none
  have empty : same.Agree (Machine.empty sink) (Machine.empty sink) :=
    { limit_le := Nat.le_refl _
      nextIdentity_eq := rfl
      current_eq := rfl
      bindings_eq := fun _ => rfl
      size_eq := rfl
      enclosing?_eq := fun _ => rfl
      slots := by
        intro frame name
        rw [absent]
        exact .none
      fields := by
        intro identity
        rw [Machine.empty, Std.TreeMap.getElem?_emptyc, Std.TreeMap.getElem?_emptyc]
        exact .none
      unused := fun _ => Std.TreeMap.getElem?_emptyc
      unused' := fun _ => Std.TreeMap.getElem?_emptyc
      sink_eq := rfl
      hostCalls_eq := rfl }
  exact empty.define Machine.globals Native.clock.name (.native .clock)

/-- Whatever source texts have done, every identity in a session has been given out before. -/
theorem Reachable.agree_self (reachable : session.Reachable fresh) :
    same.Agree session.machine session.machine := by
  induction reachable with
  | start sink fresh => exact agree_start sink
  | @run session fresh _ readings effort source first later agree =>
      rcases compiled : compile source first with ⟨faults | program, next⟩
      · rw [Session.run, compiled]
        exact agree
      · rw [session.run_of_compile compiled]
        -- The program is run on the session and on itself once more.
        have bound (id : Occurrence) : program.bindings[id]? = program.bindings[id]? := rfl
        have ends := Run.runProgram_sameEnd (Run.answersCarried_withClock same readings) effort
          program.statements (agree.addBindings bound)
        exact (runProgram_of_sameEnd ends).2
  | redirect _ sink agree => exact agree.setSink sink

/-! ## Any order -/

/-- Declarations of different names can be brought in any order. -/
theorem runProgram_perm (hosts : ∀ π, Run.AnswersCarried π host)
    (agree : same.Agree session.machine session.machine)
    {definitions definitions' : List Definition} (perm : definitions.Perm definitions')
    (distinct : (definitions.map Definition.name).Nodup)
    {bindings bindings' : Bindings} (bound : ∀ id : Occurrence, bindings[id]? = bindings'[id]?)
    (effort : Nat) (before after : List Stmt) :
    SameOutcome
      (session.runProgram host effort
        ⟨before ++ definitions.map Definition.statement ++ after, bindings⟩)
      (session.runProgram host effort
        ⟨before ++ definitions'.map Definition.statement ++ after, bindings'⟩) := by
  induction perm generalizing before bindings bindings' with
  | nil =>
      exact sameOutcome_of_sameEnd
        (Run.runProgram_sameEnd (hosts same) effort _ (agree.addBindings bound))
  | cons d _ ih =>
      -- The declaration that stays in place is one of the statements in front of the others.
      have rest := ih (List.nodup_cons.mp distinct).2 bound (before ++ [d.statement])
      simpa only [List.map_cons, List.append_assoc, List.cons_append, List.nil_append] using rest
  | swap d e rest =>
      have different : e.name ≠ d.name := by
        have outside := (List.nodup_cons.mp distinct).1
        exact fun equal => outside (equal ▸ List.mem_cons_self)
      obtain ⟨π, ends⟩ := Run.runProgram_exchange_between hosts effort (agree.addBindings bound)
        different before (rest.map Definition.statement ++ after)
      rw [List.append_assoc, List.append_assoc]
      exact sameOutcome_of_sameEnd ends
  | trans former _ ih ih' =>
      have distinct' := (former.map Definition.name).nodup_iff.mp distinct
      exact (ih distinct bound before).trans (ih' distinct' (fun _ => rfl) before)

end Session

/--
The order of global declarations is immaterial. Take a program that compiles and any functions and
classes of different names that it declares one behind the other outside all scopes, be they two or
more and whatever they refer to. In any other order of these declarations, resolution accepts the
program and has every name refer to what it did. In any session that source texts lead to, with any
clock and however far the run may go, both programs come to the same failure, print the same, and
leave globals that look the same, in print and in detail.
-/
theorem declaration_order_is_immaterial {source : String} {first next : Occurrence}
    {before after : List Stmt} {definitions definitions' : List Definition} {bindings : Bindings}
    (compiled : compile source first =
      (.ok ⟨before ++ definitions.map Definition.statement ++ after, bindings⟩, next))
    (perm : definitions.Perm definitions') (distinct : (definitions.map Definition.name).Nodup) :
    ∃ bindings', resolve (before ++ definitions'.map Definition.statement ++ after) =
        .ok bindings' ∧ (∀ id : Occurrence, bindings'[id]? = bindings[id]?) ∧
      ∀ (session : Session) (fresh : Occurrence), session.Reachable fresh →
        ∀ (readings : Nat → Except String Number) (effort : Nat),
          let ran := session.runProgram (.withClock readings) effort
            ⟨before ++ definitions.map Definition.statement ++ after, bindings⟩
          let ran' := session.runProgram (.withClock readings) effort
            ⟨before ++ definitions'.map Definition.statement ++ after, bindings'⟩
          ran.2 = ran'.2 ∧ ran.1.machine.sink = ran'.1.machine.sink ∧
            ran.1.machine.appearance? = ran'.1.machine.appearance? := by
  have known := Program.compiled_of_compile compiled
  have reordered : (before ++ definitions.map Definition.statement ++ after).Perm
      (before ++ definitions'.map Definition.statement ++ after) :=
    ((perm.map _).append_left before).append_right after
  obtain ⟨bindings', resolved, bound⟩ :=
    exists_resolve_of_perm reordered known.resolved known.numbered.nodup
  refine ⟨bindings', resolved, bound, ?_⟩
  intro session fresh reachable readings effort
  obtain ⟨failure_eq, sink_eq, appearance?_eq⟩ := Session.runProgram_perm
    (fun π => Run.answersCarried_withClock π readings) reachable.agree_self perm distinct
    (fun id => (bound id).symm) effort before after
  exact ⟨failure_eq, sink_eq, appearance?_eq⟩

/-- A class and a function that refer to each other are declared the other way round. -/
theorem declaration_order_is_immaterial_of_class :
    let cls : Definition := .classDef ⟨"A", 1⟩ [⟨⟨"m", 1⟩, [], [.exit 1 (some (.var 0 ⟨"f", 1⟩))]⟩]
    let function : Definition := .function ⟨⟨"f", 1⟩, [], [.exit 1 (some (.var 1 ⟨"A", 1⟩))]⟩
    let rest : List Stmt :=
      [.print (.binary (.call (.var 2 ⟨"f", 1⟩) [] 1) .equalEqual (.var 3 ⟨"A", 1⟩) 1)]
    let host := Hosting.withClock fun _ => .error "no clock"
    let session := Session.start .unlimited
    ∃ bindings bindings' : Bindings,
      compile
          "class A \x7b fn m() \x7breturn f\x7d \x7d fn f() \x7breturn A\x7d print f() == A;" 0 =
        (.ok ⟨[] ++ [cls, function].map Definition.statement ++ rest, bindings⟩, 4) ∧
      [cls, function].Perm [function, cls] ∧ ([cls, function].map Definition.name).Nodup ∧
      resolve ([] ++ [function, cls].map Definition.statement ++ rest) = .ok bindings' ∧
      session.Reachable 0 ∧
      (session.runProgram host 9
          ⟨[] ++ [cls, function].map Definition.statement ++ rest, bindings⟩).1.machine.sink =
        (session.runProgram host 9
          ⟨[] ++ [function, cls].map Definition.statement ++ rest, bindings'⟩).1.machine.sink := by
  intro cls function rest host session
  have scanned : tokens
      "class A \x7b fn m() \x7breturn f\x7d \x7d fn f() \x7breturn A\x7d print f() == A;" = .ok
      [⟨.keyword .classWord, "class", 1⟩, ⟨.identifier, "A", 1⟩, ⟨.mark .leftBrace, "\x7b", 1⟩,
       ⟨.keyword .fnWord, "fn", 1⟩, ⟨.identifier, "m", 1⟩, ⟨.mark .leftParen, "(", 1⟩,
       ⟨.mark .rightParen, ")", 1⟩, ⟨.mark .leftBrace, "\x7b", 1⟩,
       ⟨.keyword .returnWord, "return", 1⟩, ⟨.identifier, "f", 1⟩,
       ⟨.mark .rightBrace, "\x7d", 1⟩, ⟨.mark .rightBrace, "\x7d", 1⟩,
       ⟨.keyword .fnWord, "fn", 1⟩, ⟨.identifier, "f", 1⟩, ⟨.mark .leftParen, "(", 1⟩,
       ⟨.mark .rightParen, ")", 1⟩, ⟨.mark .leftBrace, "\x7b", 1⟩,
       ⟨.keyword .returnWord, "return", 1⟩, ⟨.identifier, "A", 1⟩, ⟨.mark .rightBrace, "\x7d", 1⟩,
       ⟨.keyword .printWord, "print", 1⟩, ⟨.identifier, "f", 1⟩, ⟨.mark .leftParen, "(", 1⟩,
       ⟨.mark .rightParen, ")", 1⟩, ⟨.mark .equalEqual, "==", 1⟩, ⟨.identifier, "A", 1⟩,
       ⟨.mark .semicolon, ";", 1⟩, ⟨.endOfInput, "", 1⟩] := by with_unfolding_all rfl
  have compiled : compile
      "class A \x7b fn m() \x7breturn f\x7d \x7d fn f() \x7breturn A\x7d print f() == A;" 0 =
      (.ok ⟨[] ++ [cls, function].map Definition.statement ++ rest, _⟩, 4) :=
    compile_of_parse scanned rfl rfl
  have perm : [cls, function].Perm [function, cls] := .swap _ _ _
  have distinct : ([cls, function].map Definition.name).Nodup := by decide
  have start : session.Reachable 0 := .start .unlimited 0
  obtain ⟨bindings', resolved, _, same⟩ := declaration_order_is_immaterial compiled perm distinct
  exact ⟨_, bindings', compiled, perm, distinct, resolved, start, (same session 0 start _ 9).2.1⟩

end Rill
