import Rill.Proofs.Counterpart.Compilation
import Rill.Proofs.Counterpart.Execution
import Rill.Proofs.Joining.Sessions
import Rill.Proofs.Machine.Appearance
import Rill.Proofs.Sessions.Numbering

/-!
# Sessions side by side

Two sessions that stand side by side have the same output and globals that look the same. They go on
to do so when akin programs are run on both, in particular when one source text is, under different
numbers.
-/

namespace Rill

namespace Ledgers

variable {l : Ledgers} {p : Places} {m m' : Machine}

/-- Globals of machines side by side look the same. -/
theorem Agree.appearance?_eq (agree : l.Agree p m m') : m.appearance? = m'.appearance? := by
  funext name
  rw [Machine.appearance?_eq, Machine.appearance?_eq]
  rcases optionRel_cases (agree.global name) with ⟨v, v', found, found', alike⟩ | ⟨absent, absent'⟩
  · rw [found, found', Option.map_some, Option.map_some, alike.look_eq fun objects =>
      agree.fieldsOf objects]
  · rw [absent, absent', Option.map_none, Option.map_none]

/-- The code of two machines with another program on either side. -/
def add (l : Ledgers) (program program' : Program) (next next' : Occurrence) : Ledgers :=
  ⟨l.first.add program next, l.second.add program' next'⟩

/-- Two sessions stand side by side, with their code numbered below two numbers. -/
structure Between (l : Ledgers) (p : Places) (session session' : Session)
    (fresh fresh' : Occurrence) : Prop extends
    l.Stand p Machine.globals [] session.machine session'.machine where
  closed : l.first.IsClosed
  closed' : l.second.IsClosed
  limit_le : l.first.limit ≤ fresh
  limit_le' : l.second.limit ≤ fresh'

end Ledgers

/-! ## Programs -/

/-- A clock has no code in what it answers. -/
theorem Run.answersTogether_withClock (l : Ledgers) (readings : Nat → Except String Number) :
    AnswersTogether l (.withClock readings) := by
  intro p call f values values' _
  rcases Lexical.answer_withClock readings call f with ⟨reading, answers⟩ | ⟨message, answers⟩
  · exact .inl ⟨_, _, answers values, answers values', .number reading⟩
  · exact .inr ⟨message, answers values, answers values'⟩

namespace Session

variable {session session' : Session} {fresh fresh' first first' next next' : Occurrence}
  {program program' : Program} {source : String}

/-- No program that is compiled from a text finds the bookkeeping of a session broken. -/
theorem Reachable.sound_runProgram (reachable : session.Reachable fresh) (later : fresh ≤ first)
    (compiled : compile source first = (.ok program, next))
    (readings : Nat → Except String Number) (effort : Nat) (breach : Breach) :
    (session.runProgram (.withClock readings) effort program).2 ≠
      some (.runtime (.breach breach)) := by
  obtain ⟨store, parallel⟩ := Lexical.exists_parallel reachable
  obtain ⟨w, between⟩ := parallel.exists_between
  obtain ⟨_, sound, _⟩ := between.run readings effort source later
  have ran := sound breach
  rw [session.run_of_compile compiled] at ran
  exact ran

variable {l : Ledgers} {p : Places}

/-- Akin programs come to the same failure, if it is no breach, and leave sessions side by side. -/
theorem runProgram_together
    (stand : l.Stand p Machine.globals [] (session.machine.addBindings program.bindings)
      (session'.machine.addBindings program'.bindings))
    (akin : Stmt.AkinAll l [] program.statements program'.statements)
    (readings : Nat → Except String Number) (effort : Nat)
    (sound : ∀ breach, (session.runProgram (.withClock readings) effort program).2 ≠
      some (.runtime (.breach breach))) :
    (session.runProgram (.withClock readings) effort program).2 =
        (session'.runProgram (.withClock readings) effort program').2 ∧
      ∃ q, l.Stand q Machine.globals []
        (session.runProgram (.withClock readings) effort program).1.machine
        (session'.runProgram (.withClock readings) effort program').1.machine := by
  have ran := Run.interpret_together (Run.answersTogether_withClock l readings) effort stand akin
  revert ran sound
  unfold runProgram
  generalize Run.interpret (.withClock readings) effort program.statements
    (session.machine.addBindings program.bindings) = r
  generalize Run.interpret (.withClock readings) effort program'.statements
    (session'.machine.addBindings program'.bindings) = r'
  intro sound ran
  cases ran with
  | ok ended =>
      obtain ⟨q, _, stand₁, _⟩ := ended
      exact ⟨rfl, q, stand₁⟩
  | error ended =>
      obtain ⟨⟨q, _, stand₁⟩, alike⟩ := ended
      have same := alike.eq fun breach equal => sound breach (by rw [equal])
      subst same
      exact ⟨rfl, q, stand₁⟩

end Session

/-! ## Source texts -/

namespace Ledgers.Between

variable {l : Ledgers} {p : Places} {session session' : Session}
  {fresh fresh' first first' next next' : Occurrence} {program program' : Program} {source : String}

/-- Programs are added on both sides. -/
theorem addProgram (between : l.Between p session session' fresh fresh')
    (compiled : program.Compiled first next) (compiled' : program'.Compiled first' next')
    (later : fresh ≤ first) (later' : fresh' ≤ first') :
    (l.add program program' next next').Stand p Machine.globals []
      (session.machine.addBindings program.bindings)
      (session'.machine.addBindings program'.bindings) := by
  have above := Nat.le_trans between.limit_le later
  have above' := Nat.le_trans between.limit_le' later'
  have extends_ : l.Extends (l.add program program' next next') :=
    ⟨Ledger.extends_add compiled above, Ledger.extends_add compiled' above'⟩
  have agree := between.extend extends_
  rw [Machine.addBindings, Machine.addBindings, between.bindings_eq, between.bindings_eq']
  exact ⟨agree, between.current_eq, between.current_eq', between.place⟩

/-- What programs have left side by side stays so for the next texts. -/
theorem of_stand {l : Ledgers} (between : l.Between p session session' fresh fresh')
    (compiled : program.Compiled first next) (compiled' : program'.Compiled first' next')
    (later : fresh ≤ first) (later' : fresh' ≤ first') {q : Places} {n n' : Session}
    (stand : (l.add program program' next next').Stand q Machine.globals [] n.machine n'.machine) :
    (l.add program program' next next').Between q n n' next next' where
  toStand := stand
  closed := Ledger.isClosed_add compiled (Nat.le_trans between.limit_le later) between.closed
  closed' := Ledger.isClosed_add compiled' (Nat.le_trans between.limit_le' later') between.closed'
  limit_le := Nat.le_refl next
  limit_le' := Nat.le_refl next'

/-- Sessions side by side stay so when the output of both goes elsewhere. -/
theorem redirect (between : l.Between p session session' fresh fresh') (sink : Sink) :
    l.Between p (session.redirect sink) (session'.redirect sink) fresh fresh' where
  toAgree := between.setSink sink
  current_eq := between.current_eq
  current_eq' := between.current_eq'
  place := between.place
  closed := between.closed
  closed' := between.closed'
  limit_le := between.limit_le
  limit_le' := between.limit_le'

/-- Higher numbers may be the next ones. -/
theorem later (between : l.Between p session session' fresh fresh') (higher : fresh ≤ first)
    (higher' : fresh' ≤ first') : l.Between p session session' first first' :=
  { between with
    limit_le := Nat.le_trans between.limit_le higher
    limit_le' := Nat.le_trans between.limit_le' higher' }

/-- A source text comes to the same failure on both sides, and leaves sessions side by side. -/
theorem run (between : l.Between p session session' fresh fresh') {low : Occurrence}
    (reachable : session.Reachable low) (above : low ≤ first) (later : fresh ≤ first)
    (later' : fresh' ≤ first') (readings : Nat → Except String Number) (effort : Nat)
    (source : String) :
    (session.run (.withClock readings) effort source first).failure =
        (session'.run (.withClock readings) effort source first').failure ∧
      ∃ k q, Ledgers.Between k q (session.run (.withClock readings) effort source first).session
        (session'.run (.withClock readings) effort source first').session
        (session.run (.withClock readings) effort source first).fresh
        (session'.run (.withClock readings) effort source first').fresh := by
  rcases compiled : compile source first with ⟨outcome, next⟩
  cases outcome with
  | error faults =>
      have refused := (compile_eq_error_iff source first first').mp (congrArg Prod.fst compiled)
      have counted := fresh_le_compile source first
      have counted' := fresh_le_compile source first'
      have left : session.run (.withClock readings) effort source first =
          ⟨session, some (.static faults), (compile source first).2⟩ := by
        rw [Session.run, compiled]
      have right : session'.run (.withClock readings) effort source first' =
          ⟨session', some (.static faults), (compile source first').2⟩ := by
        rw [Session.run, show compile source first' = (.error faults, _) from Prod.ext refused rfl]
      rw [left, right]
      exact ⟨rfl, l, p, between.later (Nat.le_trans later counted) (Nat.le_trans later' counted')⟩
  | ok program =>
      obtain ⟨program', next', compiled', akin⟩ := exists_akin_of_compile compiled first'
        (Nat.le_trans between.limit_le later) (Nat.le_trans between.limit_le' later')
        between.closed between.closed'
      have known := Program.compiled_of_compile compiled
      have known' := Program.compiled_of_compile compiled'
      have stand := between.addProgram known known' later later'
      obtain ⟨same, q, after⟩ := Session.runProgram_together stand akin readings effort
        (reachable.sound_runProgram above compiled readings effort)
      rw [session.run_of_compile compiled, session'.run_of_compile compiled']
      exact ⟨same, _, q, between.of_stand known known' later later' after⟩

/-- New sessions with the same output stand side by side. -/
theorem start (sink : Sink) (fresh fresh' : Occurrence) :
    Ledgers.Between ⟨⟨∅, 0⟩, ⟨∅, 0⟩⟩ [[]] (.start sink) (.start sink) fresh fresh' := by
  have empty : Ledgers.Agree ⟨⟨∅, 0⟩, ⟨∅, 0⟩⟩ [[]] (Machine.empty sink) (Machine.empty sink) :=
    { bindings_eq := rfl
      bindings_eq' := rfl
      size_eq := rfl
      size_eq' := rfl
      enclosing?_eq := fun _ => rfl
      outermost := rfl
      outward := by
        intro frame outer Γ encloses
        have linked : (Forest.empty.add none).enclosing? frame = some outer := encloses
        rw [Forest.enclosing?_add] at linked
        split at linked <;> cases linked
      slots := by
        intro frame Γ _ name
        have absent (name : String) : (Machine.empty sink).forest.slot? frame name = none :=
          Forest.slot?_add Forest.empty frame name none
        rw [absent, absent]
        exact .none
      fields := by
        intro identity
        rw [Machine.empty, Std.TreeMap.getElem?_emptyc]
        exact .none
      nextIdentity_eq := rfl
      sink_eq := rfl
      hostCalls_eq := rfl }
  have agree := empty.define empty.outermost Native.clock.name (.native .clock)
  exact
    { toAgree := agree
      current_eq := rfl
      current_eq' := rfl
      place := rfl
      closed := fun _ _ => Std.TreeMap.getElem?_emptyc
      closed' := fun _ _ => Std.TreeMap.getElem?_emptyc
      limit_le := Nat.zero_le _
      limit_le' := Nat.zero_le _ }

end Ledgers.Between

/-- Every session that source texts lead to stands beside itself. -/
theorem Session.Reachable.exists_beside {session : Session} {fresh : Occurrence}
    (reachable : session.Reachable fresh) :
    ∃ (l : Ledgers) (p : Places), l.Between p session session fresh fresh := by
  induction reachable with
  | start sink fresh => exact ⟨_, _, .start sink fresh fresh⟩
  | run reachable readings effort source later ih =>
      obtain ⟨l, p, between⟩ := ih
      exact (between.run reachable later later later readings effort source).2
  | redirect _ sink ih =>
      obtain ⟨l, p, between⟩ := ih
      exact ⟨l, p, between.redirect sink⟩

end Rill
