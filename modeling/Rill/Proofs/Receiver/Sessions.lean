import Rill.Proofs.Receiver.Execution
import Rill.Proofs.Sessions.Numbering

/-!
# Methods keep their receivers

A frame that is made by binding a method holds the instance under `self` and nothing else, and it
does so for good, whatever a session runs afterwards. So a register that says what the frames hold
in the end is right about every part of every run that led there: each `self` is the instance of the
nearest such frame, an initializer that is called directly answers with the instance it was bound
to, and a call of a class that ends well answers with an instance that was not there before.
-/

namespace Rill

/-! ## Sessions -/

/--
A register is right in front of a program, behind it and in the end, and about every part of the
run of the program.
-/
structure Register.RightAbout (r : Register) (program : Program) (host : Hosting) (effort : Nat)
    (session ran last : Session) : Prop where
  front : r.Describes session.machine
  behind : r.Describes ran.machine
  atLast : r.Describes last.machine
  throughout : ∀ alarm,
    Run.runAll (Run.executeInspected r.inspection alarm .never host effort Machine.globals)
        program.statements (session.machine.addBindings program.bindings) =
      Run.runProgram host effort program.statements (session.machine.addBindings program.bindings)

section

variable {session : Session} {program : Program} {source : String} {fresh first next : Occurrence}
  {R : Roster}

/-- No source text has `self` for a name. -/
theorem selfless_of_compile (compiled : compile source first = (.ok program, next)) :
    Selfless (Stmt.atomsAll program.statements) := by
  intro present
  have written : Atom.Written (.name "self") :=
    written_of_parseSource (compile_eq_ok.mp compiled).1 _ present
  exact Lexeme.ne_keyword written .selfWord rfl

namespace Roster

/-- A roster for a session that gives the next mention some number. -/
structure Suits (R : Roster) (session : Session) (fresh : Occurrence) : Prop where
  meets : R.Meets session.machine
  ledger_eq : R.ledger = session.ledger fresh

theorem suits_start (sink : Sink) (fresh : Occurrence) :
    (bare ((Session.start sink).ledger fresh)).Suits (Session.start sink) fresh := by
  have empty := holds_bare ((Session.start sink).ledger fresh) sink
  refine ⟨⟨?_, rfl⟩, rfl⟩
  exact empty.define (v := .native .clock) empty.tidy.present empty.tidy.vacant (by decide) trivial

/-- A machine may be given the bindings of more code. -/
theorem Suits.extend (suits : R.Suits session fresh) {ledger : Ledger}
    (extends_ : (session.ledger fresh).Extends ledger) :
    Roster.Meets { R with ledger := ledger } { session.machine with bindings := ledger.bindings } :=
  ⟨suits.meets.holds.extend (suits.ledger_eq ▸ extends_), rfl⟩

/--
A program that a session runs keeps the roster, but for the instances and classes that it makes,
also when it is stopped on the way. What an inspector tells of it is true if the register says what
is true then.
-/
theorem Suits.stopped (suits : R.Suits session fresh) (reachable : session.Reachable fresh)
    (later : fresh ≤ first) (compiled : compile source first = (.ok program, next))
    (readings : Nat → Except String Number) (effort : Nat) (stops : Run.Stops) :
    let host := Hosting.withClock readings
    let before := session.machine.addBindings program.bindings
    let reached := Run.runAll (Run.executeStopping stops host effort) program.statements before
    ∃ R' : Roster, R'.Meets (Machine.ofResult reached) ∧
      R'.ledger = (session.ledger fresh).add program next ∧
      ∀ p : Inspector, p.register.Agrees R' (Machine.ofResult reached) →
        p.register.Agrees R session.machine ∧
          p.Tells session.machine
            (Run.runAll
              (Run.executeInspected p.inspection p.alarm stops host effort Machine.globals)
              program.statements before)
            reached := by
  intro host before reached
  have known := Program.compiled_of_compile compiled
  have meets : Roster.Meets { R with ledger := (session.ledger fresh).add program next } before :=
    suits.extend (Ledger.extends_add known later)
  have current_eq : before.current = Machine.globals := reachable.current_eq
  have stands : Roster.Stands { R with ledger := (session.ledger fresh).add program next } before
      Machine.globals [] :=
    ⟨meets, current_eq, Scopes.open_nil, meets.tidy.present, by rw [current_eq]⟩
  obtain ⟨R', leads, meets', -, tells⟩ := Run.runAll_follows
    (Run.follows_of_effort (Hosting.plain_withClock readings) stops effort).2 stands
    (Ledger.boundAll_add known later reachable.isClosed) (selfless_of_compile compiled)
  refine ⟨R', meets', leads.ledger_eq, fun p agrees => ⟨?_, tells p agrees⟩⟩
  have earlier := agrees.earlier leads meets
  exact ⟨earlier.instanceOf_eq, earlier.selfFrameOf_eq, earlier.classOf_eq,
    earlier.declarationOf_eq⟩

/-- A session goes on from where a program that is not stopped has come to. -/
theorem Suits.run (suits : R.Suits session fresh) (reachable : session.Reachable fresh)
    (later : fresh ≤ first) (compiled : compile source first = (.ok program, next))
    (readings : Nat → Except String Number) (effort : Nat) :
    let host := Hosting.withClock readings
    let before := session.machine.addBindings program.bindings
    let ran := session.run host effort source first
    ∃ R' : Roster, R'.Suits ran.session next ∧
      ∀ p : Inspector, p.register.Agrees R' ran.session.machine →
        p.register.Agrees R session.machine ∧
          p.Tells session.machine
            (Run.runAll
              (Run.executeInspected p.inspection p.alarm .never host effort Machine.globals)
              program.statements before)
            (Run.runProgram host effort program.statements before) := by
  intro host before ran
  have after : ran.session.machine =
      Machine.ofResult (Run.runProgram host effort program.statements before) :=
    Session.machine_run_of_compile compiled
  obtain ⟨R', meets, ledger_eq, tells⟩ :=
    suits.stopped reachable later compiled readings effort .never
  rw [Run.runAll_never, ← after] at meets tells
  refine ⟨R', ⟨meets, ?_⟩, tells⟩
  rw [Session.ledger, meets.bindings_eq, ledger_eq]
  rfl

/-- Whatever a source text is, a register that is right behind it is right in front of it. -/
theorem Suits.onward (suits : R.Suits session fresh) (reachable : session.Reachable fresh)
    (later : fresh ≤ first) (readings : Nat → Except String Number) (effort : Nat)
    (source : String) :
    let ran := session.run (.withClock readings) effort source first
    ∃ R' : Roster, R'.Suits ran.session ran.fresh ∧
      ∀ r : Register, r.Agrees R' ran.session.machine → r.Agrees R session.machine := by
  intro ran
  have counted := fresh_le_compile source first
  have left : ran.session = _ := session.run_session (.withClock readings) effort source first
  have numbers : ran.fresh = _ := session.run_fresh (.withClock readings) effort source first
  rcases compiles : compile source first with ⟨outcome, next⟩
  rw [compiles] at counted left numbers
  cases outcome with
  | error faults =>
      rw [left, numbers]
      have extends_ : (session.ledger fresh).Extends (session.ledger next) :=
        ⟨Nat.le_trans later counted, fun _ _ => rfl⟩
      exact ⟨{ R with ledger := session.ledger next }, ⟨suits.extend extends_, rfl⟩,
        fun r agrees => ⟨agrees.instanceOf_eq, agrees.selfFrameOf_eq, agrees.classOf_eq,
          agrees.declarationOf_eq⟩⟩
  | ok program =>
      obtain ⟨R', suits', right⟩ := suits.run reachable later compiles readings effort
      exact ⟨R', numbers ▸ suits', fun r agrees => (right (.ofRegister r .spent) agrees).1⟩

end Roster

/-- Every session has a roster. -/
theorem Session.Reachable.exists_roster (reachable : session.Reachable fresh) :
    ∃ R : Roster, R.Suits session fresh := by
  induction reachable with
  | start sink fresh => exact ⟨_, Roster.suits_start sink fresh⟩
  | run reachable readings effort source later ih =>
      obtain ⟨R, suits⟩ := ih
      obtain ⟨R', suits', -⟩ := suits.onward reachable later readings effort source
      exact ⟨R', suits'⟩
  | redirect _ sink ih =>
      obtain ⟨R, suits⟩ := ih
      exact ⟨R, ⟨suits.meets.holds, suits.meets.bindings_eq⟩, suits.ledger_eq⟩

/-- The sessions that source texts lead a session to. -/
inductive Session.LeadsTo (session : Session) (fresh : Occurrence) : Session → Occurrence → Prop
  | refl : LeadsTo session fresh session fresh
  | run {last : Session} {lastFresh first : Occurrence}
      (before : LeadsTo session fresh last lastFresh) (later : lastFresh ≤ first)
      (readings : Nat → Except String Number) (effort : Nat) (source : String) :
      LeadsTo session fresh (last.run (.withClock readings) effort source first).session
        (last.run (.withClock readings) effort source first).fresh
  | redirect {last : Session} {lastFresh : Occurrence}
      (before : LeadsTo session fresh last lastFresh) (sink : Sink) :
      LeadsTo session fresh (last.redirect sink) lastFresh

namespace Session.LeadsTo

variable {last : Session} {lastFresh : Occurrence}

theorem reachable (leads : session.LeadsTo fresh last lastFresh)
    (reachable : session.Reachable fresh) : last.Reachable lastFresh := by
  induction leads with
  | refl => exact reachable
  | run _ later readings effort source ih => exact ih.run readings effort source later
  | redirect _ sink ih => exact ih.redirect sink

/-- A register that is right in the end has been right all along. -/
theorem exists_roster (leads : session.LeadsTo fresh last lastFresh)
    (reachable : session.Reachable fresh) (suits : R.Suits session fresh) :
    ∃ R' : Roster, R'.Suits last lastFresh ∧
      ∀ r : Register, r.Agrees R' last.machine → r.Agrees R session.machine := by
  induction leads with
  | refl => exact ⟨R, suits, fun _ => id⟩
  | run before later readings effort source ih =>
      obtain ⟨R', suits', right⟩ := ih
      obtain ⟨R'', suits'', right'⟩ :=
        suits'.onward (before.reachable reachable) later readings effort source
      exact ⟨R'', suits'', fun r agrees => right r (right' r agrees)⟩
  | redirect _ sink ih =>
      obtain ⟨R', suits', right⟩ := ih
      exact ⟨R', ⟨⟨suits'.meets.holds, suits'.meets.bindings_eq⟩, suits'.ledger_eq⟩,
        fun r agrees => right r ⟨agrees.instanceOf_eq, agrees.selfFrameOf_eq, agrees.classOf_eq,
          agrees.declarationOf_eq⟩⟩

end Session.LeadsTo

section Run

variable {last : Session} {lastFresh : Occurrence} (reachable : session.Reachable fresh)
  (later : fresh ≤ first) (compiled : compile source first = (.ok program, next))
  (readings : Nat → Except String Number) (effort : Nat)

include reachable later compiled

theorem Session.Reachable.run_of_compile :
    (session.run (.withClock readings) effort source first).session.Reachable next := by
  have after := reachable.run readings effort source later
  rw [Session.run_fresh, compiled] at after
  exact after

/-- An inspector who is right in the end has been right all along, and about a program before. -/
theorem exists_rosters
    (leads : (session.run (.withClock readings) effort source first).session.LeadsTo next last
      lastFresh) :
    let host := Hosting.withClock readings
    let before := session.machine.addBindings program.bindings
    let ran := session.run host effort source first
    ∃ R R₁ R₂ : Roster, R.Suits session fresh ∧ R₁.Suits ran.session next ∧
      R₂.Suits last lastFresh ∧
      ∀ p : Inspector, p.register.Agrees R₂ last.machine →
        p.register.Agrees R₁ ran.session.machine ∧ p.register.Agrees R session.machine ∧
          p.Tells session.machine
            (Run.runAll
              (Run.executeInspected p.inspection p.alarm .never host effort Machine.globals)
              program.statements before)
            (Run.runProgram host effort program.statements before) := by
  intro host before ran
  obtain ⟨R, suits⟩ := reachable.exists_roster
  obtain ⟨R₁, suits₁, tells⟩ := suits.run reachable later compiled readings effort
  obtain ⟨R₂, suits₂, earlier⟩ := leads.exists_roster
    (reachable.run_of_compile later compiled readings effort) suits₁
  refine ⟨R, R₁, R₂, suits, suits₁, suits₂, fun p agrees => ?_⟩
  have agrees₁ := earlier p.register agrees
  exact ⟨agrees₁, tells p agrees₁⟩

/-- What frames hold in the end is what they have held all along, with some classes. -/
theorem exists_register
    (leads : (session.run (.withClock readings) effort source first).session.LeadsTo next last
      lastFresh)
    {instanceOf : FrameId → Option Object}
    (right : ∀ frame < last.machine.forest.frames.size,
      instanceOf frame = last.machine.forest.instance? frame) :
    let host := Hosting.withClock readings
    let ran := session.run host effort source first
    ∃ r : Register, r.instanceOf = instanceOf ∧
      r.RightAbout program host effort session ran.session last := by
  intro host ran
  obtain ⟨R, R₁, R₂, suits, suits₁, suits₂, earlier⟩ :=
    exists_rosters reachable later compiled readings effort leads
  let r : Register :=
    ⟨instanceOf, last.machine.forest.locate? "self", R₂.classOf, R₂.declarationOf⟩
  have agrees : r.Agrees R₂ last.machine := ⟨right, fun _ _ => rfl, id, id⟩
  obtain ⟨agrees₁, start, -⟩ := earlier (.ofRegister r .spent) agrees
  exact ⟨r, rfl, start.describes suits.meets.holds, agrees₁.describes suits₁.meets.holds,
    agrees.describes suits₂.meets.holds, fun alarm =>
      (earlier (.ofRegister _ alarm) agrees).2.2.eq_of_ofRegister⟩

end Run

/-! ## Methods and their receivers -/

/--
Methods keep their receivers. Take any sessions that follow the run of a program, and what their
frames hold under `self` in the end. In front of the program and behind it, and from one end to the
other of each of its expressions and statements, every frame that holds an instance then holds that
instance and nothing else, and every other frame has no `self`. A method that is read on an
instance, or that initializes it, is bound in a frame that holds this instance. Throughout the code
of a function that is called, and of the functions that are declared in it, the nearest frame of
`self` is the one that is seen from the frame that the function keeps; so every `self` in a method
is the instance that the method was bound to, wherever it is called from. Every call that ends well
of an initializer bound to an instance answers with the instance of its frame, and of a class with
an instance whose identity no instance within reach has.
-/
theorem methods_keep_their_receivers {last : Session} {lastFresh : Occurrence}
    (reachable : session.Reachable fresh) (later : fresh ≤ first)
    (compiled : compile source first = (.ok program, next)) (readings : Nat → Except String Number)
    (effort : Nat)
    (leads : (session.run (.withClock readings) effort source first).session.LeadsTo next last
      lastFresh) :
    let host := Hosting.withClock readings
    let ran := session.run host effort source first
    (∀ instanceOf : FrameId → Option Object,
      (∀ frame < last.machine.forest.frames.size,
        instanceOf frame = last.machine.forest.instance? frame) →
      ∃ r : Register, r.instanceOf = instanceOf ∧
        r.RightAbout program host effort session ran.session last) ∧
    ∀ (method : Closure) (o : Object) (m : Machine), ∃ c n, Run.bind method o m = .ok c n ∧
      c.BoundTo method o m n := by
  intro host ran
  refine ⟨?_, Run.exists_bind⟩
  intro instanceOf right
  exact exists_register reachable later compiled readings effort leads right

/-- A method that has been stored is bound to its instance also when the instance is forgotten. -/
theorem methods_keep_their_receivers_of_stored :
    ∃ program next,
      compile "class A \x7b fn m() \x7b return self; \x7d \x7d let f = A().m;" 0 =
        (.ok program, next) ∧
      let readings : Nat → Except String Number := fun _ => .error "no clock"
      let session := Session.start .unlimited
      let ran := session.run (.withClock readings) 9
        "class A \x7b fn m() \x7b return self; \x7d \x7d let f = A().m;" 0
      let last := ran.session.run (.withClock readings) 9 "A = nil; f = f();" next
      session.Reachable 0 ∧ ran.session.LeadsTo next last.session last.fresh ∧
        ∃ o : Object,
          (last.session.machine.forest.slot? Machine.globals "f").any (Value.object o).equals ∧
          ∀ machine ∈ [ran.session.machine, last.session.machine], ∀ name,
            machine.forest.slot? 1 name = if name = "self" then some (.object o) else none := by
  have scanned : tokens "class A \x7b fn m() \x7b return self; \x7d \x7d let f = A().m;" = .ok
      [⟨.keyword .classWord, "class", 1⟩, ⟨.identifier, "A", 1⟩, ⟨.mark .leftBrace, "\x7b", 1⟩,
       ⟨.keyword .fnWord, "fn", 1⟩, ⟨.identifier, "m", 1⟩, ⟨.mark .leftParen, "(", 1⟩,
       ⟨.mark .rightParen, ")", 1⟩, ⟨.mark .leftBrace, "\x7b", 1⟩,
       ⟨.keyword .returnWord, "return", 1⟩, ⟨.keyword .selfWord, "self", 1⟩,
       ⟨.mark .semicolon, ";", 1⟩, ⟨.mark .rightBrace, "\x7d", 1⟩,
       ⟨.mark .rightBrace, "\x7d", 1⟩, ⟨.keyword .letWord, "let", 1⟩, ⟨.identifier, "f", 1⟩,
       ⟨.mark .equal, "=", 1⟩, ⟨.identifier, "A", 1⟩, ⟨.mark .leftParen, "(", 1⟩,
       ⟨.mark .rightParen, ")", 1⟩, ⟨.mark .dot, ".", 1⟩, ⟨.identifier, "m", 1⟩,
       ⟨.mark .semicolon, ";", 1⟩, ⟨.endOfInput, "", 1⟩] := by
    with_unfolding_all rfl
  have compiled : compile _ 0 = (.ok _, _) := compile_of_parse scanned rfl rfl
  refine ⟨_, _, compiled, ?_⟩
  intro readings session ran last
  have reachable : session.Reachable 0 := .start .unlimited 0
  have leads : ran.session.LeadsTo _ last.session last.fresh :=
    .run .refl (Nat.le_refl _) readings 9 _
  refine ⟨reachable, leads, ?_⟩
  obtain ⟨_, holding, right⟩ :=
    (methods_keep_their_receivers reachable (Nat.le_refl 0) compiled readings 9 leads).1 _
      fun _ _ => rfl
  have holds : (last.session.machine.forest.instance? 1).isSome := by decide +kernel
  obtain ⟨o, is⟩ := Option.isSome_iff_exists.mp holds
  rw [← holding] at is
  have behind := right.behind.bound 1 (by decide +kernel) o is
  have atLast := right.atLast.bound 1 (by decide +kernel) o is
  have answered : (last.session.machine.forest.slot? 1 "self").all fun held =>
      (last.session.machine.forest.slot? Machine.globals "f").any held.equals := by
    decide +kernel
  rw [atLast "self", if_pos rfl] at answered
  refine ⟨o, answered, ?_⟩
  simp only [List.forall_mem_cons]
  exact ⟨behind, atLast, fun _ absent => nomatch absent⟩

end

end Rill
