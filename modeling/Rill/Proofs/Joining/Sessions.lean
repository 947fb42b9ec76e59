import Rill.Proofs.Joining.Compilation
import Rill.Proofs.Joining.Execution
import Rill.Proofs.Lexical.Sessions
import Rill.Proofs.Machine.Continuity

/-!
# Joined texts in sessions

To run two source texts one after the other comes to the same as to run them as one, with a line
break between them. A session is paired with itself before the runs; the first text and its part of
the joined one are in step, and where the first text ends well the second one goes on in step.
-/

namespace Rill

/-! ## A session and itself -/

namespace Pairing

variable {w : Lexical.World} {table : Bindings} {ledger : Ledger} {mentions : List Mention}

/-- Code stands where it stood, and the second machine has other bindings besides. -/
def unmoved (ledger : Ledger) (table : Bindings) : Pairing := ⟨ledger, table, (· = 0)⟩

variable (agrees : ∀ id < ledger.limit, table[id]? = ledger.bindings[id]?)

include agrees in
theorem suits_same (knows : ledger.Knows mentions) :
    (unmoved ledger table).Suits .same mentions where
  lowers := rfl
  binds id present := ⟨knows id present, (agrees id (knows id present)).symm⟩

include agrees in
theorem twins_self {c : Closure} (knows : ledger.Knows (Stmt.mentionsAll c.routine.body)) :
    (unmoved ledger table).Twins c c where
  identity_eq := rfl
  environment_eq := rfl
  isInitializer_eq := rfl
  recast := ⟨.same, suits_same agrees knows, (RoutineOf.recast_same c.routine).symm⟩

/-- All code that a machine and a store share is known, and so is paired with itself. -/
theorem reflects_unmoved (agrees : ∀ id < w.ledger.limit, table[id]? = w.ledger.bindings[id]?) :
    w.likeness.Reflects (unmoved w.ledger table).likeness where
  closures := by
    rintro c c' ⟨scopes, _, bound, _⟩
    exact twins_self agrees bound.2.knows
  methods := by
    rintro c c' ⟨scopes, _, bound⟩
    exact twins_self agrees bound.2.knows

/-- A machine is paired with itself when other code is added to the second. -/
theorem agree_unmoved {m : Machine} {s : Lexical.Store} (agree : w.Agree m s)
    (never : m.sink.NeverFails)
    (agrees : ∀ id < w.ledger.limit, table[id]? = w.ledger.bindings[id]?) :
    (unmoved w.ledger table).Agree m { m with bindings := table } where
  bindings_eq := agree.bindings_eq
  table_eq := rfl
  size_eq := rfl
  enclosing?_eq _ := rfl
  slots frame name := by
    have reflects {v : Value} {v' : Value Lexical.Env} (alike : w.Alike v v') :
        (unmoved w.ledger table).Alike v v := alike.reflect (reflects_unmoved agrees)
    by_cases outermost : frame = Machine.globals
    · subst outermost
      exact optionRel_reflect (agree.globals name) reflects
    · cases placed : w.place frame name with
      | some location => exact optionRel_reflect (agree.shares.slots placed) reflects
      | none =>
          rw [agree.shares.vacant outermost placed]
          exact .none
  fields identity := optionRel_reflect (agree.fields identity) fun alike =>
    alike.reflect (reflects_unmoved agrees)
  nextIdentity_eq := rfl
  current_eq := rfl
  sink_eq := rfl
  neverFails := never
  hostCalls_eq := rfl

/-- Two failures are alike if they are the same fault, which the second may report further down. -/
inductive FailuresAlike (p : Pairing) : Failure → Failure → Prop
  | runtime {halt halt' : Halt} : p.HaltsAlike halt halt' →
      FailuresAlike p (.runtime halt) (.runtime halt')

/-- Where no code stands further down, halts that are alike are the same. -/
theorem HaltsAlike.eq {p : Pairing} (unmoved : ∀ lines, p.Lowers lines → lines = 0)
    {halt halt' : Halt} (alike : p.HaltsAlike halt halt') : halt = halt' := by
  cases alike with
  | fault line cause lowers =>
      cases unmoved _ lowers
      rfl
  | _ => rfl

theorem FailuresAlike.eq {p : Pairing} (unmoved : ∀ lines, p.Lowers lines → lines = 0)
    {failure failure' : Option Failure} (alike : Option.Rel p.FailuresAlike failure failure') :
    failure = failure' := by
  cases alike with
  | none => rfl
  | some alike =>
      obtain ⟨alike⟩ := alike
      rw [alike.eq unmoved]

end Pairing

/-! ## Runs -/

namespace Run

variable {host : Hosting} {effort : Nat} {m n : Machine} {program : List Stmt}

/-- A clock has no code in what it answers. -/
theorem answersInStep_withClock (p : Pairing) (readings : Nat → Except String Number) :
    AnswersInStep p (.withClock readings) := by
  intro call f values values' _
  rcases Lexical.answer_withClock readings call f with ⟨reading, answers⟩ | ⟨message, answers⟩
  · exact .inl ⟨_, _, answers values, answers values', .number reading⟩
  · exact .inr ⟨message, answers values, answers values'⟩

theorem flush_of_neverFails (never : m.sink.NeverFails) : flush m = .ok () m := by
  unfold flush
  rw [get_bind, never.flush_eq]
  rfl

/-- Where output does not fail, it makes no difference that it is flushed. -/
theorem interpret_of_ok (ran : runProgram host effort program m = .ok () n)
    (never : n.sink.NeverFails) : interpret host effort program m = .ok () n := by
  rw [interpret, ran]
  exact flush_of_neverFails never

theorem interpret_of_error {halt : Halt} (ran : runProgram host effort program m = .error halt n)
    (never : n.sink.NeverFails) : interpret host effort program m = .error halt n := by
  rw [interpret, ran]
  cases halt with
  | fault fault =>
      dsimp only
      rw [flush_of_neverFails never]
  | output fault =>
      dsimp only
      rw [flush_of_neverFails never]
  | _ => rfl

end Run

/-! ## Two programs and the joined one -/

/--
Two programs that are run one after the other behind the code of a ledger, and the one that joins
them.
-/
structure Ledger.Joint (ledger : Ledger) (former latter joined : Program)
    (a a' b b' start next lines : Nat) : Prop where
  compiled_former : former.Compiled a a'
  compiled_latter : latter.Compiled b b'
  compiled_joined : joined.Compiled start next
  joins : joined.Joins former latter (.move a start 0) (.move b (a' - a + start) lines)
  closed : ledger.IsClosed
  above_former : ledger.limit ≤ a
  above_joined : ledger.limit ≤ start
  apart : a' ≤ b

namespace Pairing

variable {ledger : Ledger} {former latter joined : Program} {a a' b b' start next lines : Nat}

/-- The pairing of a machine that has the first program with one that has the joined program. -/
def first (ledger : Ledger) (former joined : Program) (a' next : Nat) : Pairing :=
  unmoved (ledger.add former a') (ledger.add joined next).bindings

/-- The pairing of a machine that has both programs with one that has the joined program. -/
def both (ledger : Ledger) (former latter joined : Program) (a' b' next lines : Nat) : Pairing where
  ledger := (ledger.add former a').add latter b'
  table := (ledger.add joined next).bindings
  Lowers down := down = 0 ∨ down = lines

variable (joint : ledger.Joint former latter joined a a' b b' start next lines)

include joint

theorem extends_first :
    (unmoved ledger (ledger.add joined next).bindings).Extends
      (first ledger former joined a' next) where
  ledger := Ledger.extends_add joint.compiled_former joint.above_former
  table_eq := rfl
  lowers _ lowered := lowered

theorem extends_both :
    (first ledger former joined a' next).Extends
      (both ledger former latter joined a' b' next lines) where
  ledger := Ledger.extends_add joint.compiled_latter joint.apart
  table_eq := rfl
  lowers _ lowered := .inl lowered

/-- The first program is bound as its part of the joined one is. -/
theorem suits_former :
    (first ledger former joined a' next).Suits (.move a start 0)
      (Stmt.mentionsAll former.statements) where
  lowers := rfl
  binds := by
    intro id present
    have bounds := joint.compiled_former.numbered.within id present
    have moved : ledger.limit ≤ id - a + start :=
      Nat.le_trans joint.above_joined (Nat.le_add_left _ _)
    refine ⟨bounds.2, ?_⟩
    calc (ledger.add former a').bindings[id]?
        = former.bindings[id]? :=
          Ledger.getElem?_add_of_le joint.closed (Nat.le_trans joint.above_former bounds.1)
      _ = joined.bindings[(Recast.move a start 0).ids id]? :=
          (joint.joins.getElem?_former joint.compiled_former bounds.1 bounds.2).symm
      _ = (ledger.add joined next).bindings[(Recast.move a start 0).ids id]? :=
          (Ledger.getElem?_add_of_le joint.closed moved).symm

/-- The second program is bound as its part of the joined one is. -/
theorem suits_latter :
    (both ledger former latter joined a' b' next lines).Suits (.move b (a' - a + start) lines)
      (Stmt.mentionsAll latter.statements) where
  lowers := .inr rfl
  binds := by
    intro id present
    have bounds := joint.compiled_latter.numbered.within id present
    have closed := Ledger.isClosed_add joint.compiled_former joint.above_former joint.closed
    have moved : ledger.limit ≤ id - b + (a' - a + start) :=
      Nat.le_trans joint.above_joined (by omega)
    refine ⟨bounds.2, ?_⟩
    calc ((ledger.add former a').add latter b').bindings[id]?
        = latter.bindings[id]? :=
          Ledger.getElem?_add_of_le closed (Nat.le_trans joint.apart bounds.1)
      _ = joined.bindings[(Recast.move b (a' - a + start) lines).ids id]? :=
          (joint.joins.getElem?_latter joint.compiled_former joint.compiled_latter bounds.1).symm
      _ = (ledger.add joined next).bindings[(Recast.move b (a' - a + start) lines).ids id]? :=
          (Ledger.getElem?_add_of_le joint.closed moved).symm

/-- Before the runs, a machine with the first program is paired with one that has the joined one. -/
theorem agree_first {w : Lexical.World} {m : Machine} {s : Lexical.Store} (agree : w.Agree m s)
    (never : m.sink.NeverFails) (same : w.ledger = ledger) :
    (first ledger former joined a' next).Agree (m.addBindings former.bindings)
      (m.addBindings joined.bindings) := by
  subst same
  have unmoved := agree_unmoved agree never fun id below =>
    Ledger.getElem?_add_of_lt joint.compiled_joined joint.above_joined below
  have paired := unmoved.extend (extends_first joint)
  rw [Machine.addBindings, Machine.addBindings, agree.bindings_eq]
  exact paired

/-- Between the runs, the second program is added to the first machine. -/
theorem agree_both {n n' : Machine} (agree : (first ledger former joined a' next).Agree n n') :
    (both ledger former latter joined a' b' next lines).Agree
      (n.addBindings latter.bindings) n' := by
  have paired := agree.extend (extends_both joint)
  rw [Machine.addBindings, agree.bindings_eq]
  exact paired

end Pairing

/-! ## Runs of the programs -/

namespace Session

variable {host : Hosting} {effort : Nat} (session : Session) {program : Program} {n : Machine}

theorem run_of_compile {source : String} {first next : Occurrence}
    (compiled : compile source first = (.ok program, next)) :
    session.run host effort source first =
      ⟨(session.runProgram host effort program).1, (session.runProgram host effort program).2,
        next⟩ := by
  rw [run, compiled]

theorem runProgram_of_ok
    (ran : Run.runProgram host effort program.statements
      (session.machine.addBindings program.bindings) = .ok () n)
    (never : n.sink.NeverFails) : session.runProgram host effort program = (⟨n⟩, none) := by
  rw [runProgram, Run.interpret_of_ok ran never]

theorem runProgram_of_error {halt : Halt}
    (ran : Run.runProgram host effort program.statements
      (session.machine.addBindings program.bindings) = .error halt n)
    (never : n.sink.NeverFails) :
    session.runProgram host effort program = (⟨n⟩, some (.runtime halt)) := by
  rw [runProgram, Run.interpret_of_error ran never]

end Session

namespace Ledger.Joint

open Pairing

variable {ledger : Ledger} {former latter joined : Program} {a a' b b' start next lines : Nat}
  {session : Session} {host : Hosting} (hosts : ∀ p, Run.AnswersInStep p host) (effort : Nat)
  (joint : ledger.Joint former latter joined a a' b b' start next lines)

include hosts joint

/-- The first program and its part of the joined one end in the same way, on paired machines. -/
theorem runProgram_former
    (agree : (first ledger former joined a' next).Agree
      (session.machine.addBindings former.bindings)
      (session.machine.addBindings joined.bindings)) :
    (∃ halt n n', session.runProgram host effort former = (⟨n⟩, some (.runtime halt)) ∧
      session.runProgram host effort joined = (⟨n'⟩, some (.runtime halt)) ∧
      (first ledger former joined a' next).HaltsAlike halt halt ∧
      (first ledger former joined a' next).Agree n n') ∨
    ∃ n n', session.runProgram host effort former = (⟨n⟩, none) ∧
      (first ledger former joined a' next).Agree n n' ∧
      Run.runProgram host effort joined.statements (session.machine.addBindings joined.bindings) =
        Run.runProgram host effort
          (Stmt.recastAll (.move b (a' - a + start) lines) latter.statements) n' := by
  have started := Run.runProgram_inStep (hosts _) effort agree (suits_former joint)
  rcases started.ok_or_error with
    ⟨_, n, _, n', ran, ran', agree', _⟩ | ⟨halt, n, halt', n', ran, ran', agree', alike⟩
  · have whole := Run.runProgram_append_of_ok ran'
      (Stmt.recastAll (.move b (a' - a + start) lines) latter.statements)
    rw [← joint.joins.statements_eq] at whole
    exact .inr ⟨n, n', session.runProgram_of_ok ran agree'.neverFails, agree', whole⟩
  · cases alike.eq fun _ => id
    have whole := Run.runProgram_append_of_error ran'
      (Stmt.recastAll (.move b (a' - a + start) lines) latter.statements)
    rw [← joint.joins.statements_eq] at whole
    exact .inl ⟨halt, n, n', session.runProgram_of_error ran agree'.neverFails,
      session.runProgram_of_error whole (agree'.sink_eq ▸ agree'.neverFails), alike, agree'⟩

/-- Behind the first program, the second one and the rest of the joined one end alike. -/
theorem runProgram_latter {n n' : Machine} (agree : (first ledger former joined a' next).Agree n n')
    (rest : Run.runProgram host effort joined.statements
        (session.machine.addBindings joined.bindings) =
      Run.runProgram host effort
        (Stmt.recastAll (.move b (a' - a + start) lines) latter.statements) n') :
    Option.Rel (both ledger former latter joined a' b' next lines).FailuresAlike
        (Session.runProgram host effort ⟨n⟩ latter).2
        (session.runProgram host effort joined).2 ∧
      (both ledger former latter joined a' b' next lines).Agree
        (Session.runProgram host effort ⟨n⟩ latter).1.machine
        (session.runProgram host effort joined).1.machine := by
  have started := Run.runProgram_inStep (hosts _) effort (agree_both joint agree)
    (suits_latter joint)
  rw [← rest] at started
  rcases started.ok_or_error with
    ⟨_, m, _, m', ran, ran', agree', _⟩ | ⟨halt, m, halt', m', ran, ran', agree', alike⟩
  · have never : m'.sink.NeverFails := agree'.sink_eq ▸ agree'.neverFails
    rw [Session.runProgram_of_ok ⟨n⟩ ran agree'.neverFails, session.runProgram_of_ok ran' never]
    exact ⟨.none, agree'⟩
  · have never : m'.sink.NeverFails := agree'.sink_eq ▸ agree'.neverFails
    rw [Session.runProgram_of_error ⟨n⟩ ran agree'.neverFails,
      session.runProgram_of_error ran' never]
    exact ⟨.some (.runtime alike), agree'⟩

/-- The joined program does what the two programs do, the second one only if the first ends well. -/
theorem runProgram_joined
    (agree : (first ledger former joined a' next).Agree
      (session.machine.addBindings former.bindings)
      (session.machine.addBindings joined.bindings)) :
    (∀ failure, (session.runProgram host effort former).2 = some failure →
      (session.runProgram host effort joined).2 = some failure ∧
        (first ledger former joined a' next).FailuresAlike failure failure ∧
        (first ledger former joined a' next).Agree
          (session.runProgram host effort former).1.machine
          (session.runProgram host effort joined).1.machine) ∧
    ((session.runProgram host effort former).2 = none →
      Option.Rel (both ledger former latter joined a' b' next lines).FailuresAlike
          ((session.runProgram host effort former).1.runProgram host effort latter).2
          (session.runProgram host effort joined).2 ∧
        (both ledger former latter joined a' b' next lines).Agree
          ((session.runProgram host effort former).1.runProgram host effort latter).1.machine
          (session.runProgram host effort joined).1.machine) := by
  rcases joint.runProgram_former hosts effort agree with
    ⟨halt, n, n', failed, failed', alike, agree'⟩ | ⟨n, n', ended, agree', rest⟩
  · rw [failed, failed']
    constructor
    · intro failure same
      cases same
      exact ⟨rfl, .runtime alike, agree'⟩
    · intro absent
      cases absent
  · rw [ended]
    constructor
    · intro failure absent
      cases absent
    · intro _
      exact joint.runProgram_latter hosts effort agree' rest

end Ledger.Joint

/-! ## Source texts -/

/--
Two outcomes have the same output, failures that are alike, and paired machines, and code may stand
so many lines further down in the second one.
-/
structure Outcome.Alike (lowers : Nat → Prop) (outcome outcome' : Outcome) : Prop where
  sink_eq : outcome.session.machine.sink = outcome'.session.machine.sink
  paired : ∃ p : Pairing, (∀ lines, p.Lowers lines → lowers lines) ∧
    Option.Rel p.FailuresAlike outcome.failure outcome'.failure ∧
    p.Agree outcome.session.machine outcome'.session.machine

theorem Outcome.Alike.mono {lowers lowers' : Nat → Prop} {outcome outcome' : Outcome}
    (alike : outcome.Alike lowers outcome') (implies : ∀ lines, lowers lines → lowers' lines) :
    outcome.Alike lowers' outcome' := by
  obtain ⟨p, lowered, rest⟩ := alike.paired
  exact ⟨alike.sink_eq, p, fun lines down => implies lines (lowered lines down), rest⟩

/-- Where no code stands further down, outcomes that are alike have the same failure. -/
theorem Outcome.Alike.failure_eq {outcome outcome' : Outcome}
    (alike : outcome.Alike (· = 0) outcome') : outcome.failure = outcome'.failure := by
  obtain ⟨p, unmoved, failures, -⟩ := alike.paired
  exact Pairing.FailuresAlike.eq unmoved failures

namespace Ledger.Joint

variable {ledger : Ledger} {former latter joined : Program} {a a' b b' start next lines : Nat}
  {session : Session} {first second both : String}

/-- In a session, the joined text goes as the first text, or else as the second one behind it. -/
theorem outcome_alike (joint : ledger.Joint former latter joined a a' b b' start next lines)
    (agree : (Pairing.first ledger former joined a' next).Agree
      (session.machine.addBindings former.bindings) (session.machine.addBindings joined.bindings))
    (compiled : compile first a = (.ok former, a'))
    (compiled' : compile second b = (.ok latter, b'))
    (compiledJoin : compile both start = (.ok joined, next))
    (readings : Nat → Except String Number) (effort : Nat) :
    let ran := session.run (.withClock readings) effort first a
    let ranBoth := ran.session.run (.withClock readings) effort second b
    let ranJoined := session.run (.withClock readings) effort both start
    (∀ failure, ran.failure = some failure →
      ranJoined.failure = some failure ∧ ran.Alike (· = 0) ranJoined) ∧
    (ran.failure = none → ranBoth.Alike (fun down => down = 0 ∨ down = lines) ranJoined) := by
  rw [session.run_of_compile compiled, session.run_of_compile compiledJoin]
  intro ran ranBoth ranJoined
  obtain ⟨fails, goesOn⟩ := joint.runProgram_joined
    (fun p => Run.answersInStep_withClock p readings) effort agree
  constructor
  · intro failure failed
    obtain ⟨failed', alike, agree'⟩ := fails failure failed
    refine ⟨failed', agree'.sink_eq, _, fun _ => id, ?_, agree'⟩
    rw [show ran.failure = _ from failed, show ranJoined.failure = _ from failed']
    exact .some alike
  · intro ended
    obtain ⟨alike, agree'⟩ := goesOn ended
    rw [show ranBoth = _ from ran.session.run_of_compile compiled']
    exact ⟨agree'.sink_eq, _, fun _ => id, alike, agree'⟩

end Ledger.Joint

/--
Two source texts that compile also do with a line break between them: what comes of it are the
statements of both, where those of the second stand further down by the lines of the first, and the
bindings of both, under other numbers. On a session that any source texts have led to and whose
output does not fail, the joined text has the output and the failure of the two texts run one after
the other, and leaves paired machines. The second text counts only if the first does not fail; then
lines in its code, and in no other, are further down in the joined text. For behind as many empty
lines as the first text has lines, the second is the same program further down, and it has just the
failure that the joined text has.
-/
theorem join_agrees_with_parts {first second : String} (compiles : Compiles first)
    (compiles' : Compiles second) :
    (∀ a b start : Occurrence, ∃ former a' latter b' joined lowered,
      compile first a = (.ok former, a') ∧ compile second b = (.ok latter, b') ∧
        compile (first ++ "\n" ++ second) start = (.ok joined, b' - b + (a' - a + start)) ∧
        joined.Joins former latter (.move a start 0)
          (.move b (a' - a + start) (linesThrough first)) ∧
        compile (blankLines (linesThrough first) ++ second) b = (.ok lowered, b') ∧
        lowered.Lowers latter b (linesThrough first)) ∧
    ∀ {session : Session} {fresh a b start : Occurrence}, session.Reachable fresh →
      session.machine.sink.NeverFails → fresh ≤ a → fresh ≤ start →
      ∀ (readings : Nat → Except String Number) (effort : Nat),
        let ran := session.run (.withClock readings) effort first a
        let ranBoth := ran.session.run (.withClock readings) effort second b
        let ranLower := ran.session.run (.withClock readings) effort
          (blankLines (linesThrough first) ++ second) b
        let ranJoined := session.run (.withClock readings) effort (first ++ "\n" ++ second) start
        ran.fresh ≤ b →
        (∀ failure, ran.failure = some failure →
          ranJoined.failure = some failure ∧ ran.Alike (· = 0) ranJoined) ∧
        (ran.failure = none →
          ranBoth.Alike (fun lines => lines = 0 ∨ lines = linesThrough first) ranJoined ∧
          ranLower.failure = ranJoined.failure ∧ ranLower.Alike (· = 0) ranJoined) := by
  refine ⟨compiles.exists_join compiles', ?_⟩
  intro session fresh a b start reachable never later laterJoin readings effort
  obtain ⟨former, a', latter, b', joined, lowered, compiled, compiled', compiledJoin, joins,
    compiledLower, lowers⟩ := compiles.exists_join compiles' a b start
  intro ran ranBoth ranLower ranJoined apart
  have numbers : ran.fresh = a' := congrArg Outcome.fresh (session.run_of_compile compiled)
  obtain ⟨store, parallel⟩ := Lexical.exists_parallel reachable
  obtain ⟨w, between⟩ := parallel.exists_between
  have joint {program : Program} {lines : Nat}
      (compiledProgram : program.Compiled b b')
      (joins : joined.Joins former program (.move a start 0) (.move b (a' - a + start) lines)) :
      w.ledger.Joint former program joined a a' b b' start _ lines :=
    { compiled_former := Program.compiled_of_compile compiled
      compiled_latter := compiledProgram
      compiled_joined := Program.compiled_of_compile compiledJoin
      joins := joins
      closed := between.closed
      above_former := Nat.le_trans between.limit_le later
      above_joined := Nat.le_trans between.limit_le laterJoin
      apart := numbers ▸ apart }
  have jointBoth := joint (Program.compiled_of_compile compiled') joins
  have jointLower := joint (Program.compiled_of_compile compiledLower) (joins.lower lowers)
  have agree := Pairing.agree_first jointBoth between.meets.agree never rfl
  obtain ⟨fails, goesOn⟩ :=
    jointBoth.outcome_alike agree compiled compiled' compiledJoin readings effort
  refine ⟨fails, fun ended => ⟨goesOn ended, ?_⟩⟩
  have alike := (jointLower.outcome_alike agree compiled compiledLower compiledJoin readings
    effort).2 ended
  have unmoved : ranLower.Alike (· = 0) ranJoined := alike.mono fun _ down => down.elim id id
  exact ⟨unmoved.failure_eq, unmoved⟩

/-- A function of the first text is called in the second one, in the joined text as in the two. -/
theorem join_agrees_with_parts_of_call :
    let first := "fn f(x) \x7b return x \x7d"
    let second := "print f(nil)"
    let readings : Nat → Except String Number := fun _ => .error "no clock"
    let ran := (Session.start .unlimited).run (.withClock readings) 9 first 0
    let ranBoth := ran.session.run (.withClock readings) 9 second ran.fresh
    let ranJoined := (Session.start .unlimited).run (.withClock readings) 9
      (first ++ "\n" ++ second) 0
    Compiles first ∧ Compiles second ∧ (Session.start .unlimited).Reachable 0 ∧
      (Session.start .unlimited).machine.sink.NeverFails ∧ 0 ≤ 0 ∧ ran.fresh ≤ ran.fresh ∧
      Compiles (first ++ "\n" ++ second) ∧ ran.failure = none ∧
      ranBoth.session.machine.sink = ranJoined.session.machine.sink ∧
      ranBoth.session.machine.sink.taken = "nil\n".toUTF8 := by
  have scanned : tokens "fn f(x) \x7b return x \x7d" = .ok
      [⟨.keyword .fnWord, "fn", 1⟩, ⟨.identifier, "f", 1⟩, ⟨.mark .leftParen, "(", 1⟩,
       ⟨.identifier, "x", 1⟩, ⟨.mark .rightParen, ")", 1⟩, ⟨.mark .leftBrace, "\x7b", 1⟩,
       ⟨.keyword .returnWord, "return", 1⟩, ⟨.identifier, "x", 1⟩,
       ⟨.mark .rightBrace, "\x7d", 1⟩, ⟨.endOfInput, "", 1⟩] := by with_unfolding_all rfl
  have scanned' : tokens "print f(nil)" = .ok
      [⟨.keyword .printWord, "print", 1⟩, ⟨.identifier, "f", 1⟩, ⟨.mark .leftParen, "(", 1⟩,
       ⟨.keyword .nilWord, "nil", 1⟩, ⟨.mark .rightParen, ")", 1⟩, ⟨.endOfInput, "", 1⟩] := by
    with_unfolding_all rfl
  have compiles : Compiles _ := ⟨0, _, _, compile_of_parse scanned rfl rfl⟩
  have compiles' : Compiles _ := ⟨0, _, _, compile_of_parse scanned' rfl rfl⟩
  have reachable := Session.Reachable.start .unlimited 0
  have never : (Session.start .unlimited).machine.sink.NeverFails := ⟨rfl, rfl⟩
  have agrees := join_agrees_with_parts compiles compiles'
  have ran := agrees.2 reachable never (Nat.le_refl 0) (Nat.le_refl 0)
    (fun _ => .error "no clock") 9 (Nat.le_refl _)
  have ended : ((Session.start .unlimited).run (.withClock fun _ => .error "no clock") 9
      "fn f(x) \x7b return x \x7d" 0).failure = none :=
    Option.isNone_iff_eq_none.mp (by decide +kernel)
  obtain ⟨_, _, _, _, joined, _, _, _, compiledJoin, _⟩ := agrees.1 0 0 0
  exact ⟨compiles, compiles', reachable, never, Nat.le_refl 0, Nat.le_refl _,
    ⟨0, joined, _, compiledJoin⟩, ended, (ran.2 ended).1.sink_eq, by decide +kernel⟩

end Rill
