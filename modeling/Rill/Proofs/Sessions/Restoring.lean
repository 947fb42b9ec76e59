import Rill.Proofs.Lexical.Sessions
import Rill.Proofs.Machine.Continuity
import Rill.Proofs.Phases

/-!
# Scopes are left

However a part of a run ends, the frame that was current before it is current again behind it. So
source texts always start among the globals, whatever has become of earlier ones. A text that is
refused leaves nothing at all behind.
-/

namespace Rill

variable {session : Session} {source : String} {first : Occurrence} {host : Hosting} {effort : Nat}

theorem Run.Continues.current_eq {α : Type} {x : Run α} (continues : x.Continues) (m : Machine) :
    (Machine.ofResult (x m)).current = m.current :=
  (continues m).current_eq

namespace Session

/-- What a session is behind a source text, by what became of the text. -/
theorem run_session (host : Hosting) (effort : Nat) (session : Session) (source : String)
    (first : Occurrence) :
    (session.run host effort source first).session =
      match (compile source first).1 with
      | .error _ => session
      | .ok program => ⟨Machine.ofResult (Run.interpret host effort program.statements
          (session.machine.addBindings program.bindings))⟩ := by
  unfold run
  obtain ⟨compiled, next⟩ := compile source first
  cases compiled with
  | error faults => rfl
  | ok program =>
      dsimp only [runProgram]
      cases Run.interpret host effort program.statements
        (session.machine.addBindings program.bindings) <;> rfl

/-- Behind a source text that compiles is the machine that its statements leave. -/
theorem machine_run_of_compile {program : Program} {next : Occurrence}
    (compiled : compile source first = (.ok program, next)) :
    (session.run host effort source first).session.machine =
      Machine.ofResult (Run.runProgram host effort program.statements
        (session.machine.addBindings program.bindings)) := by
  rw [run_session, compiled, ← Run.ofResult_interpret]

theorem run_current (host : Hosting) (effort : Nat) (session : Session) (source : String)
    (first : Occurrence) :
    (session.run host effort source first).session.machine.current = session.machine.current := by
  rw [run_session]
  cases (compile source first).1 with
  | error faults => rfl
  | ok program => exact (Run.interpret_continues host effort program.statements).current_eq _

/-- Between source texts, the globals are current. -/
theorem Reachable.current_eq {fresh : Occurrence} (reachable : session.Reachable fresh) :
    session.machine.current = Machine.globals := by
  induction reachable with
  | start sink fresh => rfl
  | run _ readings effort source _ ih => exact (run_current _ effort _ source _).trans ih
  | redirect _ sink ih => exact ih

/-- A text is refused if and only if it does not compile. -/
theorem failure_run_eq_static {faults : List Diagnostic} :
    (session.run host effort source first).failure = some (.static faults) ↔
      (compile source first).1 = .error faults := by
  unfold run
  obtain ⟨compiled, next⟩ := compile source first
  cases compiled with
  | error other => simp
  | ok program =>
      dsimp only [runProgram]
      cases Run.interpret host effort program.statements
        (session.machine.addBindings program.bindings) <;> simp

end Session

/--
Every statement, every expression, every call of a value and every program leaves current the frame
that was current before, whether it ends or halts. So between source texts the globals are current.
A text that is refused has faults of one phase, and leaves the session as it was.
-/
theorem scopes_are_left :
    (∀ (host : Hosting) (effort : Nat) (m : Machine),
      (∀ s, (Machine.ofResult (Run.execute host effort s m)).current = m.current) ∧
      (∀ e, (Machine.ofResult (Run.evaluate host effort e m)).current = m.current) ∧
      (∀ callee arguments line, (Machine.ofResult (Run.callWith host (Run.execute host effort)
        arguments line callee m)).current = m.current) ∧
      ∀ program, (Machine.ofResult (Run.interpret host effort program m)).current = m.current) ∧
    (∀ (session : Session) (fresh : Occurrence), session.Reachable fresh →
      session.machine.current = Machine.globals) ∧
    ∀ (host : Hosting) (effort : Nat) (session : Session) (source : String) (first : Occurrence)
      (faults : List Diagnostic),
      (session.run host effort source first).failure = some (.static faults) →
        (∃ phase, ReportedBy phase faults) ∧
          (session.run host effort source first).session = session := by
  refine ⟨?_, fun session fresh reachable => reachable.current_eq, ?_⟩
  · intro host effort m
    have executes := Run.execute_continues host effort
    refine ⟨fun s => (executes s).current_eq m,
      fun e => (Run.evaluate_continues host effort e).current_eq m, ?_,
      fun program => (Run.interpret_continues host effort program).current_eq m⟩
    intro callee arguments line
    exact (Run.callWith_continues executes arguments line callee).current_eq m
  · intro host effort session source first faults failed
    have refused := Session.failure_run_eq_static.mp failed
    refine ⟨exists_reportedBy_of_compile (Prod.ext refused rfl), ?_⟩
    rw [Session.run_session, refused]

/-- The globals are current behind a text that halted in a function, and a refused one. -/
theorem scopes_are_left_of_halt :
    let readings : Nat → Except String Number := fun _ => .error "no clock"
    let halted := (Session.start .unlimited).run (.withClock readings) 9
      "fn f(x) \x7b \x7b print y; \x7d \x7d f(nil);" 0
    let refused := halted.session.run (.withClock readings) 9 "\x7b let a = a; \x7d" halted.fresh
    halted.failure.map Failure.exitCode = some 70 ∧
      halted.session.Reachable halted.fresh ∧
      halted.session.machine.current = Machine.globals ∧
      refused.failure = some (.static [⟨1, .scope (.readInOwnInitializer "a")⟩]) ∧
      refused.session = halted.session := by
  intro readings halted refused
  have reachable : halted.session.Reachable halted.fresh :=
    (Session.Reachable.start .unlimited 0).run readings 9 _ (Nat.le_refl 0)
  have scanned : tokens "\x7b let a = a; \x7d" = .ok
      [⟨.mark .leftBrace, "\x7b", 1⟩, ⟨.keyword .letWord, "let", 1⟩, ⟨.identifier, "a", 1⟩,
       ⟨.mark .equal, "=", 1⟩, ⟨.identifier, "a", 1⟩, ⟨.mark .semicolon, ";", 1⟩,
       ⟨.mark .rightBrace, "\x7d", 1⟩, ⟨.endOfInput, "", 1⟩] := by with_unfolding_all rfl
  have unread : (compile "\x7b let a = a; \x7d" halted.fresh).1 =
      .error [⟨1, .scope (.readInOwnInitializer "a")⟩] := by
    rw [compile, parseSource, scanned]
    generalize halted.fresh = fresh
    rfl
  have failed : refused.failure = _ := Session.failure_run_eq_static.mpr unread
  exact ⟨by decide +kernel, reachable, scopes_are_left.2.1 _ _ reachable, failed,
    (scopes_are_left.2.2 _ _ _ _ _ _ failed).2⟩

end Rill
