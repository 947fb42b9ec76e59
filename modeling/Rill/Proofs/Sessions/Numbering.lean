import Rill.Proofs.Sessions.Restoring

/-!
# Numbers and bindings of many source texts

Texts that are read one after the other give different numbers to all their mentions, whichever of
them have faults. So the bindings that a session has collected say of a program's mentions just what
they said when the program was compiled, however many programs have come after it.
-/

namespace Rill

variable {session : Session} {program : Program} {source : String} {fresh first next : Occurrence}

/-! ## Trees -/

/-- The programs among source texts that are read one after the other, and the number they leave. -/
def readAll : List String → Occurrence → List (List Stmt) × Occurrence
  | [], fresh => ([], fresh)
  | source :: rest, fresh =>
    match parseSource source fresh with
    | (.error _, fresh) => readAll rest fresh
    | (.ok statements, fresh) =>
      let (trees, fresh) := readAll rest fresh
      (statements :: trees, fresh)

theorem fresh_le_parseSource (source : String) (first : Occurrence) :
    first ≤ (parseSource source first).2 := by
  unfold parseSource
  cases tokens source with
  | error faults => exact Nat.le_refl _
  | ok ts => exact fresh_le_parse ts first

/-- All mentions of the programs are numbered in one sequence. -/
theorem numbered_readAll (sources : List String) (first : Occurrence) :
    first ≤ (readAll sources first).2 ∧ Numbered first (readAll sources first).2
      (mentionIds ((readAll sources first).1.flatMap Stmt.mentionsAll)) := by
  induction sources generalizing first with
  | nil => exact ⟨Nat.le_refl _, .nil⟩
  | cons source rest ih =>
      have counted := fresh_le_parseSource source first
      rw [readAll]
      rcases read : parseSource source first with ⟨found, fresh⟩
      rw [read] at counted
      obtain ⟨le, others⟩ := ih fresh
      cases found with
      | error faults => exact ⟨Nat.le_trans counted le, others.mono counted (Nat.le_refl _)⟩
      | ok statements =>
          obtain ⟨_, numbered, _⟩ := numbered_of_parseSource read
          dsimp only
          rw [List.flatMap_cons, mentionIds_append]
          exact ⟨Nat.le_trans counted le, numbered.append others counted le⟩

/-! ## Bindings -/

namespace Ledger

variable {ledger other : Ledger}

/-- A ledger says of the mentions of a program what the program's own bindings say. -/
def Keeps (ledger : Ledger) (program : Program) : Prop :=
  ∀ id ∈ mentionIds (Stmt.mentionsAll program.statements),
    id < ledger.limit ∧ ledger.bindings[id]? = program.bindings[id]?

theorem Keeps.extend (keeps : ledger.Keeps program) (extends_ : ledger.Extends other) :
    other.Keeps program := by
  intro id present
  obtain ⟨below, same⟩ := keeps id present
  exact ⟨Nat.lt_of_lt_of_le below extends_.limit_le,
    (extends_.getElem?_eq id below).trans same⟩

theorem keeps_add (compiled : program.Compiled first next) (above : ledger.limit ≤ first)
    (closed : ledger.IsClosed) : (ledger.add program next).Keeps program := by
  intro id present
  obtain ⟨start, below⟩ := compiled.numbered.within id present
  exact ⟨below, getElem?_add_of_le closed (Nat.le_trans above start)⟩

end Ledger

namespace Session

/-- The bindings and the limit of what a session has run. -/
def ledger (session : Session) (fresh : Occurrence) : Ledger := ⟨session.machine.bindings, fresh⟩

/-- A text that compiles adds its bindings, and no other text changes any. -/
theorem run_bindings (host : Hosting) (effort : Nat) (session : Session) (source : String)
    (first : Occurrence) :
    (session.run host effort source first).session.machine.bindings =
      match (compile source first).1 with
      | .error _ => session.machine.bindings
      | .ok program => session.machine.bindings ∪ program.bindings := by
  rw [run_session]
  cases (compile source first).1 with
  | error faults => rfl
  | ok program => exact (Run.interpret_continues host effort program.statements _).bindings_eq

theorem run_fresh (host : Hosting) (effort : Nat) (session : Session) (source : String)
    (first : Occurrence) :
    (session.run host effort source first).fresh = (compile source first).2 := by
  unfold run
  obtain ⟨compiled, next⟩ := compile source first
  cases compiled <;> rfl

/-- Behind a text, the ledger says of earlier programs what it said in front of it. -/
theorem extends_run (closed : (session.ledger fresh).IsClosed) (later : fresh ≤ first)
    (host : Hosting) (effort : Nat) (source : String) :
    let ran := session.run host effort source first
    (session.ledger fresh).Extends (ran.session.ledger ran.fresh) ∧
      (ran.session.ledger ran.fresh).IsClosed := by
  intro ran
  have bindings := session.run_bindings host effort source first
  have counted := fresh_le_compile source first
  change (session.ledger fresh).Extends ⟨ran.session.machine.bindings, ran.fresh⟩ ∧
    Ledger.IsClosed ⟨ran.session.machine.bindings, ran.fresh⟩
  rw [bindings, run_fresh]
  rcases compiled : compile source first with ⟨outcome, next⟩
  rw [compiled] at counted
  cases outcome with
  | error faults =>
      have le : fresh ≤ next := Nat.le_trans later counted
      exact ⟨⟨le, fun _ _ => rfl⟩, fun id past => closed id (Nat.le_trans le past)⟩
  | ok program =>
      have known := Program.compiled_of_compile compiled
      exact ⟨Ledger.extends_add known later, Ledger.isClosed_add known later closed⟩

theorem Reachable.isClosed (reachable : session.Reachable fresh) :
    (session.ledger fresh).IsClosed := by
  induction reachable with
  | start sink fresh => exact fun id _ => Std.TreeMap.getElem?_emptyc
  | run _ readings effort source later ih => exact (extends_run ih later _ effort source).2
  | redirect _ sink ih => exact ih

/-- The sessions behind the running of a program, whatever other texts have been run since. -/
inductive HasRun (program : Program) : Session → Occurrence → Prop
  | runs {session : Session} {fresh first next : Occurrence} {source : String}
      (reachable : session.Reachable fresh) (later : fresh ≤ first)
      (compiled : compile source first = (.ok program, next))
      (readings : Nat → Except String Number) (effort : Nat) :
      HasRun program (session.run (.withClock readings) effort source first).session next
  | run {session : Session} {fresh first : Occurrence} (before : HasRun program session fresh)
      (later : fresh ≤ first) (readings : Nat → Except String Number) (effort : Nat)
      (source : String) :
      HasRun program (session.run (.withClock readings) effort source first).session
        (session.run (.withClock readings) effort source first).fresh
  | redirect {session : Session} {fresh : Occurrence} (before : HasRun program session fresh)
      (sink : Sink) : HasRun program (session.redirect sink) fresh

theorem HasRun.reachable (before : session.HasRun program fresh) : session.Reachable fresh := by
  induction before with
  | @runs session _ first _ source reachable later compiled readings effort =>
      have ran := reachable.run readings effort source later
      rw [run_fresh, compiled] at ran
      exact ran
  | run _ later readings effort source ih => exact ih.run readings effort source later
  | redirect _ sink ih => exact ih.redirect sink

/-- Adding another program changes nothing for one that has run. -/
theorem HasRun.keeps (before : session.HasRun program fresh) :
    (session.ledger fresh).Keeps program := by
  induction before with
  | @runs session fresh first next source reachable later compiled readings effort =>
      have bindings := session.run_bindings (.withClock readings) effort source first
      rw [compiled] at bindings
      rw [ledger, bindings]
      exact Ledger.keeps_add (Program.compiled_of_compile compiled) later reachable.isClosed
  | run before later readings effort source ih =>
      exact ih.extend (extends_run before.reachable.isClosed later _ effort source).1
  | redirect _ sink ih => exact ih

end Session

/-! ## No clashes -/

/-- No statement, no expression, no call and no program changes the bindings while it runs. -/
structure Run.KeepsBindings (host : Hosting) (effort : Nat) (m : Machine) : Prop where
  execute : ∀ s, (Machine.ofResult (Run.execute host effort s m)).bindings = m.bindings
  evaluate : ∀ e, (Machine.ofResult (Run.evaluate host effort e m)).bindings = m.bindings
  call : ∀ callee arguments line, (Machine.ofResult (Run.callWith host (Run.execute host effort)
    arguments line callee m)).bindings = m.bindings
  interpret : ∀ program,
    (Machine.ofResult (Run.interpret host effort program m)).bindings = m.bindings

theorem Run.keepsBindings (host : Hosting) (effort : Nat) (m : Machine) :
    KeepsBindings host effort m where
  execute s := (execute_continues host effort s m).bindings_eq
  evaluate e := (evaluate_continues host effort e m).bindings_eq
  call callee arguments line :=
    (callWith_continues (execute_continues host effort) arguments line callee m).bindings_eq
  interpret program := (interpret_continues host effort program m).bindings_eq

/-- Some bindings say of the mentions of a program what its own bindings say. -/
def Program.BoundBy (program : Program) (bindings : Bindings) : Prop :=
  ∀ id ∈ mentionIds (Stmt.mentionsAll program.statements),
    bindings[id]? = program.bindings[id]?

/-- Numbers are never given twice, and a session's bindings are right about all its programs. -/
structure NumbersApart : Prop where
  /-- All mentions in all trees that are read one after the other have different numbers. -/
  nodup : ∀ (sources : List String) (first : Occurrence),
    (mentionIds ((readAll sources first).1.flatMap Stmt.mentionsAll)).Nodup
  /-- The bindings are right when a program starts to run. -/
  starts : ∀ {session : Session} {fresh : Occurrence}, session.Reachable fresh →
    ∀ {source : String} {first : Occurrence} {program : Program} {next : Occurrence},
      fresh ≤ first → compile source first = (.ok program, next) →
      program.BoundBy (session.machine.addBindings program.bindings).bindings
  /-- They are right behind the program, whatever texts have been run since. -/
  lasts : ∀ {program : Program} {session : Session} {fresh : Occurrence},
    session.HasRun program fresh → program.BoundBy session.machine.bindings
  /-- They are right when another program has been added. -/
  added : ∀ {program : Program} {session : Session} {fresh : Occurrence},
    session.HasRun program fresh →
    ∀ {source : String} {first : Occurrence} {other : Program} {next : Occurrence},
      fresh ≤ first → compile source first = (.ok other, next) →
      program.BoundBy (session.machine.addBindings other.bindings).bindings
  runs : ∀ (host : Hosting) (effort : Nat) (m : Machine), Run.KeepsBindings host effort m

/--
Numbers never clash. All mentions in all trees that are read from source texts, one text after the
other, have different numbers. When a program starts to run, the bindings of the session say of its
mentions what its own bindings say; they go on to do so behind it, whatever texts are run then, and
when another program has been added. No statement, no expression, no call and no program changes
the bindings while it runs.
-/
theorem numbers_never_clash : NumbersApart where
  nodup sources first := (numbered_readAll sources first).2.nodup
  starts reachable _ _ _ _ later compiled id present := by
    have known := Program.compiled_of_compile compiled
    exact (Ledger.keeps_add known later reachable.isClosed id present).2
  lasts before id present := (before.keeps id present).2
  added := by
    intro program session fresh before source first other next later compiled id present
    obtain ⟨below, same⟩ := before.keeps id present
    have known := Program.compiled_of_compile compiled
    have added : (session.ledger fresh).Extends _ := Ledger.extends_add known later
    exact (added.getElem?_eq id below).trans same
  runs := Run.keepsBindings

/-- The parameter of a function is still found where it was when a later text calls the function. -/
theorem numbers_never_clash_of_call :
    ∃ program next, compile "fn f(x) \x7b return x \x7d" 0 = (.ok program, next) ∧
      let readings : Nat → Except String Number := fun _ => .error "no clock"
      let declared := (Session.start .unlimited).run (.withClock readings) 9
        "fn f(x) \x7b return x \x7d" 0
      let called := declared.session.run (.withClock readings) 9 "f(nil)" next
      called.session.HasRun program called.fresh ∧ program.bindings[0]? = some 0 ∧
        called.session.machine.bindings[0]? = some 0 := by
  have scanned : tokens "fn f(x) \x7b return x \x7d" = .ok
      [⟨.keyword .fnWord, "fn", 1⟩, ⟨.identifier, "f", 1⟩, ⟨.mark .leftParen, "(", 1⟩,
       ⟨.identifier, "x", 1⟩, ⟨.mark .rightParen, ")", 1⟩, ⟨.mark .leftBrace, "\x7b", 1⟩,
       ⟨.keyword .returnWord, "return", 1⟩, ⟨.identifier, "x", 1⟩,
       ⟨.mark .rightBrace, "\x7d", 1⟩, ⟨.endOfInput, "", 1⟩] := by with_unfolding_all rfl
  have compiled : compile "fn f(x) \x7b return x \x7d" 0 = (.ok _, _) :=
    compile_of_parse scanned rfl rfl
  refine ⟨_, _, compiled, ?_⟩
  intro readings declared called
  have declares := Session.HasRun.runs (.start .unlimited 0) (Nat.le_refl 0) compiled readings 9
  have calls := declares.run (Nat.le_refl _) readings 9 "f(nil)"
  have kept := numbers_never_clash.lasts calls 0 (List.mem_singleton_self 0)
  exact ⟨calls, by decide +kernel, kept.trans (by decide +kernel)⟩

end Rill
