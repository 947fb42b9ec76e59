import Rill.Proofs.Counterpart.Sessions
import Rill.Proofs.Renaming.Renamed

/-!
# What local variables are called

A program and one in which a local variable has another name have the same bindings. Run from the
same session, they come to the same failure, print the same, and leave globals that look the same.
-/

namespace Rill

variable {session : Session} {fresh first next : Occurrence} {source x y : String}
  {program : Program} {statements' : List Stmt}

/-- Nothing of what is said about mentions changes. -/
theorem resolve_counterpart {ledger : Ledger}
    (counterpart : Stmt.CounterpartAll ledger [] [] program.statements statements')
    (compiled : program.Compiled first next) : resolve statements' = .ok program.bindings := by
  have found : programFindings statements' = programFindings program.statements :=
    counterpart.resolve_eq _
  rw [← compiled.resolved, resolve, found, resolve]

/-- Programs that are counterparts run alike from a session that stands beside itself. -/
theorem Session.runProgram_counterpart {l : Ledgers} {p : Places}
    (between : l.Between p session session fresh fresh) (reachable : session.Reachable fresh)
    (later : fresh ≤ first) (compiled : compile source first = (.ok program, next))
    (program' : Program) (bindings : program'.bindings = program.bindings)
    (counterpart : Stmt.CounterpartAll (l.first.add program next) [] [] program.statements
      program'.statements) (readings : Nat → Except String Number) (effort : Nat) :
    let ran := session.runProgram (.withClock readings) effort program
    let ran' := session.runProgram (.withClock readings) effort program'
    ran.2 = ran'.2 ∧ ran.1.machine.sink = ran'.1.machine.sink ∧
      ran.1.machine.appearance? = ran'.1.machine.appearance? := by
  intro ran ran'
  have known := Program.compiled_of_compile compiled
  -- Both sides have the same code up to here, and add the same bindings to it.
  have same : l.second.add program next = l.first.add program next := by
    unfold Ledger.add
    rw [← between.bindings_eq, ← between.bindings_eq']
  have stand := between.addProgram known known later later
  have stand' : (l.first.add program next).twice.Stand p Machine.globals []
      (session.machine.addBindings program.bindings)
      (session.machine.addBindings program'.bindings) := by
    rw [Ledgers.add, same] at stand
    rw [bindings]
    exact stand
  obtain ⟨failure, q, after⟩ := runProgram_together stand' counterpart.akin readings effort
    (reachable.sound_runProgram later compiled readings effort)
  exact ⟨failure, after.sink_eq, after.appearance?_eq⟩

/--
Local names are immaterial. Every variable, parameter or loop variable that a compiled program
declares in a scope can be called by a name that the program does not use, together with all
mentions that refer to it. Whichever of them is renamed, resolution accepts the outcome with the
same bindings; and in any session that source texts lead to, with any clock and however far the run
may go, both programs come to the same failure, print the same, and leave globals that look the
same, in print and in detail. The only keyword that resolution takes for a name is `self`.
-/
theorem local_names_are_immaterial (compiled : compile source first = (.ok program, next))
    (unused : y ∉ Stmt.namesAll program.statements) (new : y ≠ "self") :
    (∀ (i : Nat) (name : Ident), (localsOf program.statements)[i]? = some name →
      ∃ statements', RenamedLocally name.name y program.statements statements' ∧
        localsOf statements' = (localsOf program.statements).set i ⟨y, name.line⟩) ∧
    ∀ (x : String) (statements' : List Stmt), RenamedLocally x y program.statements statements' →
      resolve statements' = .ok program.bindings ∧
      ∀ (session : Session) (fresh : Occurrence), session.Reachable fresh → fresh ≤ first →
        ∀ (readings : Nat → Except String Number) (effort : Nat),
          let ran := session.runProgram (.withClock readings) effort program
          let ran' := session.runProgram (.withClock readings) effort
            ⟨statements', program.bindings⟩
          ran.2 = ran'.2 ∧ ran.1.machine.sink = ran'.1.machine.sink ∧
            ran.1.machine.appearance? = ran'.1.machine.appearance? := by
  refine ⟨fun i name present => exists_renamedLocally y present, fun x statements' renamed => ?_⟩
  have known := Program.compiled_of_compile compiled
  have old := known.ne_self x renamed.mem_initialized
  have counterpart {ledger : Ledger} (above : ledger.limit ≤ first) (closed : ledger.IsClosed) :
      Stmt.CounterpartAll (ledger.add program next) [] [] program.statements statements' :=
    renamed.counterpart old new (Ledger.boundAll_add known above closed) unused
  constructor
  · have closed : Ledger.IsClosed ⟨∅, 0⟩ := fun _ _ => Std.TreeMap.getElem?_emptyc
    exact resolve_counterpart (counterpart (Nat.zero_le first) closed) known
  · intro session fresh reachable later readings effort
    obtain ⟨l, p, between⟩ := reachable.exists_beside
    exact Session.runProgram_counterpart between reachable later compiled
      ⟨statements', program.bindings⟩ rfl
      (counterpart (Nat.le_trans between.limit_le later) between.closed) readings effort

/-- The variable of a block that a function in the block returns is called `b` in place of `a`. -/
theorem local_names_are_immaterial_of_block :
    let statements (name : String) : List Stmt :=
      [.block [.declare ⟨name, 1⟩ (some (.literal (.bool true))),
        .function ⟨⟨"f", 1⟩, [], [.exit 1 (some (.var 0 ⟨name, 1⟩))]⟩,
        .print (.call (.var 1 ⟨"f", 1⟩) [] 1)]]
    let host := Hosting.withClock fun _ => .error "no clock"
    let session := Session.start .unlimited
    ∃ bindings, compile "\x7b let a = true; fn f() \x7b return a \x7d print f() \x7d" 0 =
        (.ok ⟨statements "a", bindings⟩, 2) ∧
      "b" ∉ Stmt.namesAll (statements "a") ∧ "b" ≠ "self" ∧
      RenamedLocally "a" "b" (statements "a") (statements "b") ∧
      resolve (statements "b") = .ok bindings ∧ session.Reachable 0 ∧
      (session.runProgram host 9 ⟨statements "a", bindings⟩).1.machine.sink =
        (session.runProgram host 9 ⟨statements "b", bindings⟩).1.machine.sink := by
  intro statements host session
  have scanned : tokens "\x7b let a = true; fn f() \x7b return a \x7d print f() \x7d" = .ok
      [⟨.mark .leftBrace, "\x7b", 1⟩, ⟨.keyword .letWord, "let", 1⟩, ⟨.identifier, "a", 1⟩,
       ⟨.mark .equal, "=", 1⟩, ⟨.keyword .trueWord, "true", 1⟩, ⟨.mark .semicolon, ";", 1⟩,
       ⟨.keyword .fnWord, "fn", 1⟩, ⟨.identifier, "f", 1⟩, ⟨.mark .leftParen, "(", 1⟩,
       ⟨.mark .rightParen, ")", 1⟩, ⟨.mark .leftBrace, "\x7b", 1⟩,
       ⟨.keyword .returnWord, "return", 1⟩, ⟨.identifier, "a", 1⟩,
       ⟨.mark .rightBrace, "\x7d", 1⟩, ⟨.keyword .printWord, "print", 1⟩, ⟨.identifier, "f", 1⟩,
       ⟨.mark .leftParen, "(", 1⟩, ⟨.mark .rightParen, ")", 1⟩, ⟨.mark .rightBrace, "\x7d", 1⟩,
       ⟨.endOfInput, "", 1⟩] := by with_unfolding_all rfl
  have compiled : compile "\x7b let a = true; fn f() \x7b return a \x7d print f() \x7d" 0 =
      (.ok ⟨statements "a", _⟩, 2) := compile_of_parse scanned rfl rfl
  have unused : "b" ∉ Stmt.namesAll (statements "a") := by decide
  have renamed : RenamedLocally "a" "b" (statements "a") (statements "b") :=
    .head [] (.block (.declare 1 _ _))
  have start : session.Reachable 0 := .start .unlimited 0
  obtain ⟨accepted, alike⟩ :=
    (local_names_are_immaterial compiled unused (by decide)).2 "a" (statements "b") renamed
  exact ⟨_, compiled, unused, by decide, renamed, accepted, start,
    (alike session 0 start (Nat.le_refl 0) _ 9).2.1⟩

end Rill
