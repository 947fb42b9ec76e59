import Rill.Proofs.Property.Names
import Rill.Proofs.Property.Reading
import Rill.Proofs.Receiver.Sessions

/-!
# Properties in sessions

What an instance has under a name is as the last write has left it. As far as a run has come, a
field that it has not written to is as it was, and one that it has is there. So an instance has the
fields that have ever been written, and all else that it has are the methods of its class, which is
what it was when the instance was made.
-/

namespace Rill

namespace Run

/-- The machine that a program comes to in the end, or where it is stopped. -/
def reached (stops : Stops) (host : Hosting) (effort : Nat) (program : List Stmt) (m : Machine) :
    Machine :=
  Machine.ofResult (runAll (executeStopping stops host effort) program m)

/-- A program that runs from some machine does not write to a field until it is stopped. -/
def Spares (identity : Identity) (name : String) (stops : Stops) (host : Hosting) (effort : Nat)
    (program : List Stmt) (m : Machine) : Prop :=
  ∀ alarm,
    runAll (executeInspected (.sparing identity name) alarm stops host effort Machine.globals)
        program m =
      runAll (executeStopping stops host effort) program m

end Run

namespace Session

/-- A source text, if it runs at all, does not write to a field. -/
def SparedBy (session : Session) (identity : Identity) (name : String) (host : Hosting)
    (effort : Nat) (source : String) (first : Occurrence) : Prop :=
  ∀ program next, compile source first = (.ok program, next) →
    Run.Spares identity name .never host effort program.statements
      (session.machine.addBindings program.bindings)

/-- The sessions that source texts lead a session to without a write to some field. -/
inductive Spares (identity : Identity) (name : String) (session : Session) (fresh : Occurrence) :
    Session → Occurrence → Prop
  | refl : Spares identity name session fresh session fresh
  | run {last : Session} {lastFresh first : Occurrence}
      (before : Spares identity name session fresh last lastFresh) (later : lastFresh ≤ first)
      (readings : Nat → Except String Number) (effort : Nat) (source : String)
      (spares : last.SparedBy identity name (.withClock readings) effort source first) :
      Spares identity name session fresh
        (last.run (.withClock readings) effort source first).session
        (last.run (.withClock readings) effort source first).fresh
  | redirect {last : Session} {lastFresh : Occurrence}
      (before : Spares identity name session fresh last lastFresh) (sink : Sink) :
      Spares identity name session fresh (last.redirect sink) lastFresh

/-- A field has been written to, however the session has come about. -/
def Written (session : Session) (fresh : Occurrence) (identity : Identity) (name : String) : Prop :=
  ¬ ∃ sink first, (start sink).Spares identity name first session fresh

/-- The machine that a program comes to in a session, or where it is stopped. -/
def reached (session : Session) (program : Program) (host : Hosting) (effort : Nat)
    (stops : Run.Stops) : Machine :=
  Run.reached stops host effort program.statements (session.machine.addBindings program.bindings)

/-- A field has been written to before a program, or in it until it is stopped. -/
def WrittenBy (session : Session) (fresh : Occurrence) (program : Program) (host : Hosting)
    (effort : Nat) (stops : Run.Stops) (identity : Identity) (name : String) : Prop :=
  session.Written fresh identity name ∨
    ¬ Run.Spares identity name stops host effort program.statements
      (session.machine.addBindings program.bindings)

variable {session last : Session} {fresh first next lastFresh : Occurrence} {source : String}
  {program : Program} {identity : Identity} {name : String}

/-- So far, a run has left a field as it was, or it has written to it, and the field is there. -/
theorem Reachable.field?_reached (reachable : session.Reachable fresh) (later : fresh ≤ first)
    (compiled : compile source first = (.ok program, next))
    (readings : Nat → Except String Number) (effort : Nat) (stops : Run.Stops)
    (identity : Identity) (name : String) :
    let host := Hosting.withClock readings
    let before := session.machine.addBindings program.bindings
    let reached := Run.reached stops host effort program.statements before
    Run.Spares identity name stops host effort program.statements before ∧
        reached.field? identity name = session.machine.field? identity name ∨
      ¬ Run.Spares identity name stops host effort program.statements before ∧
        (reached.field? identity name).isSome := by
  intro host before reached
  obtain ⟨R, suits⟩ := reachable.exists_roster
  obtain ⟨R', -, -, tells⟩ := suits.stopped reachable later compiled readings effort stops
  let r : Register :=
    ⟨reached.forest.instance?, reached.forest.locate? "self", R'.classOf, R'.declarationOf⟩
  have agrees : r.Agrees R' reached := ⟨fun _ _ => rfl, fun _ _ => rfl, id, id⟩
  have told (alarm : Halt) := (tells (.guarding r alarm identity name) agrees).2
  by_cases spares : Run.Spares identity name stops host effort program.statements before
  · obtain ⟨alarm, other⟩ := Run.Ending.exists_alarm
      (Run.runAll (Run.executeStopping stops host effort) program.statements before)
    rcases told alarm with ⟨-, kept⟩ | ⟨⟨n, raised⟩, -⟩
    · exact .inl ⟨spares, kept identity name ⟨rfl, rfl⟩⟩
    · exact absurd ((spares alarm).symm.trans raised) (other n)
  · obtain ⟨alarm, differs⟩ := not_forall.mp spares
    rcases told alarm with ⟨same, -⟩ | ⟨-, _, _, ⟨rfl, rfl⟩, found⟩
    · exact absurd same differs
    · exact .inr ⟨spares, found⟩

theorem Reachable.field?_run (reachable : session.Reachable fresh) (later : fresh ≤ first)
    (readings : Nat → Except String Number) (effort : Nat) (source : String)
    (identity : Identity) (name : String) :
    let host := Hosting.withClock readings
    let ran := session.run host effort source first
    session.SparedBy identity name host effort source first ∧
        ran.session.machine.field? identity name = session.machine.field? identity name ∨
      ¬ session.SparedBy identity name host effort source first ∧
        (ran.session.machine.field? identity name).isSome := by
  intro host ran
  rcases compiles : compile source first with ⟨outcome, next⟩
  cases outcome with
  | error faults =>
      refine .inl ⟨fun program next compiled => ?_, ?_⟩
      · rw [compiles] at compiled
        cases compiled
      · have same : ran.session = _ := run_session host effort session source first
        rw [same, compiles]
  | ok program =>
      have after : ran.session.machine = Run.reached .never host effort program.statements
          (session.machine.addBindings program.bindings) := by
        rw [Run.reached, Run.runAll_never]
        exact machine_run_of_compile compiles
      rw [after]
      refine (reachable.field?_reached later compiles readings effort .never identity name).imp
        ?_ ?_
      · rintro ⟨spares, same⟩
        refine ⟨fun program' next' compiled => ?_, same⟩
        rw [compiles] at compiled
        cases compiled
        exact spares
      · rintro ⟨writes, there⟩
        exact ⟨fun spares => writes (spares program next compiles), there⟩

/-- What is not written to stays as it was. -/
theorem Spares.field?_eq (spares : session.Spares identity name fresh last lastFresh)
    (reachable : session.Reachable fresh) :
    last.Reachable lastFresh ∧
      last.machine.field? identity name = session.machine.field? identity name := by
  induction spares with
  | refl => exact ⟨reachable, rfl⟩
  | redirect _ sink ih => exact ⟨ih.1.redirect sink, ih.2⟩
  | run _ later readings effort source spares ih =>
      obtain ⟨reached, kept⟩ := ih
      refine ⟨reached.run readings effort source later, Eq.trans ?_ kept⟩
      rcases reached.field?_run later readings effort source identity name with
        ⟨-, same⟩ | ⟨writes, -⟩
      · exact same
      · exact absurd spares writes

/-- An instance has the fields that have been written to, and no others. -/
theorem Reachable.field?_isSome (reachable : session.Reachable fresh) (identity : Identity)
    (name : String) :
    (session.machine.field? identity name).isSome ↔ session.Written fresh identity name := by
  constructor
  · rintro there ⟨sink, first, spares⟩
    rw [(spares.field?_eq (.start sink first)).2] at there
    cases there
  · intro written
    by_contra absent
    refine written ?_
    clear written
    induction reachable with
    | start sink fresh => exact ⟨sink, fresh, .refl⟩
    | redirect _ sink ih =>
        obtain ⟨start, first, spares⟩ := ih absent
        exact ⟨start, first, spares.redirect sink⟩
    | run reachable readings effort source later ih =>
        rcases reachable.field?_run later readings effort source identity name with
          ⟨spared, same⟩ | ⟨-, there⟩
        · rw [same] at absent
          obtain ⟨start, first, spares⟩ := ih absent
          exact ⟨start, first, spares.run later readings effort source spared⟩
        · exact absurd there absent

/-- An instance has the fields that have been written to in front of a run and in it so far. -/
theorem Reachable.field?_reached_isSome (reachable : session.Reachable fresh)
    (later : fresh ≤ first) (compiled : compile source first = (.ok program, next))
    (readings : Nat → Except String Number) (effort : Nat) (stops : Run.Stops)
    (identity : Identity) (name : String) :
    let host := Hosting.withClock readings
    ((session.reached program host effort stops).field? identity name).isSome ↔
      session.WrittenBy fresh program host effort stops identity name := by
  intro host
  rw [reached, WrittenBy]
  rcases reachable.field?_reached later compiled readings effort stops identity name with
    ⟨spares, same⟩ | ⟨writes, there⟩
  · rw [same, reachable.field?_isSome]
    exact (or_iff_left (absurd spares)).symm
  · exact iff_of_true there (.inr writes)

end Session

/-! ## One map per instance -/

section

variable {session last : Session} {fresh first next lastFresh : Occurrence} {source : String}
  {program : Program}

/-- A class declaration binds its name to the class that is made. -/
theorem Run.execute_classDef (host : Hosting) (effort : Nat) (name : Ident)
    (methods : List Routine) {m : Machine} (present : m.current < m.forest.frames.size) :
    ∃ n, execute host (effort + 1) (.classDef name methods) m = .ok .next n ∧
      n.forest.slot? m.current name.name = some (.cls (m.declares name methods).made) := by
  have runs : execute host (effort + 1) (.classDef name methods) =
      executeWith (evaluate host effort) (execute host effort) effort (.classDef name methods) := by
    rw [execute]
  rw [runs, executeWith_declared effort rfl, bind_of_ok (declaredValue_classDef _ _ _ _)]
  refine ⟨_, rfl, ?_⟩
  exact (Forest.slot?_define _ _ _ _ present _ _).trans (if_pos ⟨rfl, rfl⟩)

/--
Properties are read and written as in a map. A write under some name on some instance is seen by the
reads of the name on that instance, and by no others; a read gives the field, or else binds the
method anew, or else fails. The method is the last of that name that the class has been declared
with. Classes are described by the names of their methods, each once and in the order of its bytes.
-/
structure Run.PropertyLaws (host : Hosting) (effort : Nat) : Prop where
  write : ∀ (m : Machine) (o : Object) (name : String) (v : Value), ∃ n,
    setProperty o name v m = .ok () n ∧ m.Wrote o name v n
  read : ∀ (m : Machine) (o : Object) (name : Ident),
    (m.property o name.name).Read o name m (getProperty o name m)
  evaluate_set : ∀ {object e : Expr} {o : Object} {v : Value} {m m₁ m₂ : Machine} (name : Ident),
    evaluate host effort object m = .ok (.object o) m₁ → evaluate host effort e m₁ = .ok v m₂ →
      ∃ n, evaluate host (effort + 1) (.set object name e) m = .ok v n ∧ m₂.Wrote o name.name v n
  evaluate_get : ∀ {object : Expr} {o : Object} {m m₁ : Machine} (name : Ident),
    evaluate host effort object m = .ok (.object o) m₁ → (m₁.property o name.name).Read o name m₁
      (evaluate host (effort + 1) (.get object name) m)
  /-- Without a field, an instance has what its class has been declared with. -/
  declared : ∀ (m : Machine) (o : Object) (name : String) (d : ClassDeclaration), o.cls = d.made →
    m.field? o.identity name = none →
      match d.method? name with
      | some routine => ∃ method, m.property o name = .method method ∧ method.routine = routine ∧
          method.environment = d.frame ∧ method.isInitializer = routine.isInitializer
      | none => m.property o name = .absent
  declares : ∀ (m : Machine) (name : Ident) (methods : List Routine),
    m.current < m.forest.frames.size → ∃ n,
      execute host (effort + 1) (.classDef name methods) m = .ok .next n ∧
        n.forest.slot? m.current name.name = some (.cls (m.declares name methods).made)
  described : ∀ (m : Machine) (d : ClassDeclaration), ∃ names,
    m.describe? (.cls d.made) = some ("Class \x7b name: " ++ quote d.name ++
      ", methods: " ++ quotedNames names ++ " \x7d") ∧
    Lists names fun name => ∃ routine ∈ d.methods, routine.name.name = name

theorem Run.propertyLaws (host : Hosting) (effort : Nat) : PropertyLaws host effort where
  write := setProperty_wrote
  read m o name := getProperty_read o name m
  evaluate_set := Run.evaluate_set
  evaluate_get := Run.evaluate_get
  declared _ _ _ _ := Machine.property_of_declared
  declares _ name methods := execute_classDef host effort name methods
  described m d := by
    refine ⟨_, rfl, (lists_keys _).congr fun name => ?_⟩
    rw [← ClassDeclaration.method?_isSome, ← ClassDeclaration.made_routine, Option.isSome_map]

/--
Where a program is stopped, an instance has the fields that have been written to before the program
and in it so far, and those that the program has not written to are as they were. Its description
lists their names, each once and in the order of its bytes.
-/
structure Session.FieldsReached (session : Session) (fresh : Occurrence) (program : Program)
    (host : Hosting) (effort : Nat) (stops : Run.Stops) (o : Object) : Prop where
  isSome_iff : ∀ name,
    ((session.reached program host effort stops).field? o.identity name).isSome ↔
      session.WrittenBy fresh program host effort stops o.identity name
  kept : ∀ name, Run.Spares o.identity name stops host effort program.statements
      (session.machine.addBindings program.bindings) →
    (session.reached program host effort stops).field? o.identity name =
      session.machine.field? o.identity name
  listed : ∃ names,
    (session.reached program host effort stops).describe? (.object o) =
      some ("Instance \x7b class: " ++ quote o.cls.name ++ ", fields: " ++ quotedNames names ++
        " \x7d") ∧
    Lists names (session.WrittenBy fresh program host effort stops o.identity)

/-- Wherever a program is stopped, fields are as they have been written. -/
theorem Session.Reachable.fieldsReached (reachable : session.Reachable fresh)
    (later : fresh ≤ first) (compiled : compile source first = (.ok program, next))
    (readings : Nat → Except String Number) (effort : Nat) (stops : Run.Stops) (o : Object) :
    session.FieldsReached fresh program (.withClock readings) effort stops o := by
  have there := reachable.field?_reached_isSome later compiled readings effort stops o.identity
  refine ⟨there, fun name spares => ?_, _, rfl, (lists_keys _).congr there⟩
  rcases reachable.field?_reached later compiled readings effort stops o.identity name with
    ⟨-, same⟩ | ⟨writes, -⟩
  · exact same
  · exact absurd spares writes

/--
Properties form one map per instance over one method table per class. They are read and written as
in a map. Wherever a program is stopped, and in all sessions that follow, an instance has the fields
that have been written to so far. The class of an instance, and how it has been declared, is the
same throughout a program, in front of it, and in all sessions that follow.
-/
theorem properties_form_one_map (reachable : session.Reachable fresh) (later : fresh ≤ first)
    (compiled : compile source first = (.ok program, next)) (readings : Nat → Except String Number)
    (effort : Nat)
    (leads : (session.run (.withClock readings) effort source first).session.LeadsTo next last
      lastFresh) :
    let host := Hosting.withClock readings
    let ran := session.run host effort source first
    Run.PropertyLaws host effort ∧
    (∀ (stops : Run.Stops) (o : Object),
      session.FieldsReached fresh program host effort stops o) ∧
    (∀ (identity : Identity) (name : String),
      (last.machine.field? identity name).isSome ↔ last.Written lastFresh identity name) ∧
    ∃ r : Register, r.RightAbout program host effort session ran.session last := by
  intro host ran
  have reachable' : last.Reachable lastFresh :=
    leads.reachable (reachable.run_of_compile later compiled readings effort)
  obtain ⟨r, -, right⟩ := exists_register reachable later compiled readings effort leads
    fun _ _ => rfl
  exact ⟨Run.propertyLaws host effort, reachable.fieldsReached later compiled readings effort,
    reachable'.field?_isSome, r, right⟩

/--
An instance that gets two fields has these, and a method is none. Where the program is stopped when
the first field is there, the second one has not been written to.
-/
theorem properties_form_one_map_of_fields :
    ∃ program next,
      compile "class A \x7b fn m() \x7b \x7d \x7d let a = A(); a.c = a.m; a.b = nil;" 0 =
        (.ok program, next) ∧
      let readings : Nat → Except String Number := fun _ => .error "no clock"
      let session := Session.start .unlimited
      let ran := session.run (.withClock readings) 9
        "class A \x7b fn m() \x7b \x7d \x7d let a = A(); a.c = a.m; a.b = nil;" 0
      session.Reachable 0 ∧ ran.session.LeadsTo next ran.session next ∧
        ((ran.session.machine.forest.slot? Machine.globals "a").bind
          ran.session.machine.describe?) =
            some "Instance \x7b class: \"A\", fields: [\"b\", \"c\"] \x7d" ∧
        ran.session.Written next 2 "b" ∧ ran.session.Written next 2 "c" ∧
        ¬ ran.session.Written next 2 "m" ∧
        let stops : Run.Stops := fun m => (m.field? 2 "c").map fun _ => .spent
        let spared := fun name => Run.Spares 2 name stops (.withClock readings) 9
          program.statements (session.machine.addBindings program.bindings)
        spared "b" ∧ ¬ spared "c" := by
  have scanned :
      tokens "class A \x7b fn m() \x7b \x7d \x7d let a = A(); a.c = a.m; a.b = nil;" = .ok
      [⟨.keyword .classWord, "class", 1⟩, ⟨.identifier, "A", 1⟩, ⟨.mark .leftBrace, "\x7b", 1⟩,
       ⟨.keyword .fnWord, "fn", 1⟩, ⟨.identifier, "m", 1⟩, ⟨.mark .leftParen, "(", 1⟩,
       ⟨.mark .rightParen, ")", 1⟩, ⟨.mark .leftBrace, "\x7b", 1⟩,
       ⟨.mark .rightBrace, "\x7d", 1⟩, ⟨.mark .rightBrace, "\x7d", 1⟩,
       ⟨.keyword .letWord, "let", 1⟩, ⟨.identifier, "a", 1⟩, ⟨.mark .equal, "=", 1⟩,
       ⟨.identifier, "A", 1⟩, ⟨.mark .leftParen, "(", 1⟩, ⟨.mark .rightParen, ")", 1⟩,
       ⟨.mark .semicolon, ";", 1⟩, ⟨.identifier, "a", 1⟩, ⟨.mark .dot, ".", 1⟩,
       ⟨.identifier, "c", 1⟩, ⟨.mark .equal, "=", 1⟩, ⟨.identifier, "a", 1⟩,
       ⟨.mark .dot, ".", 1⟩, ⟨.identifier, "m", 1⟩, ⟨.mark .semicolon, ";", 1⟩,
       ⟨.identifier, "a", 1⟩, ⟨.mark .dot, ".", 1⟩, ⟨.identifier, "b", 1⟩,
       ⟨.mark .equal, "=", 1⟩, ⟨.keyword .nilWord, "nil", 1⟩, ⟨.mark .semicolon, ";", 1⟩,
       ⟨.endOfInput, "", 1⟩] := by
    with_unfolding_all rfl
  have compiled : compile _ 0 = (.ok _, _) := compile_of_parse scanned rfl rfl
  refine ⟨_, _, compiled, ?_⟩
  intro readings session ran
  have reachable : session.Reachable 0 := .start .unlimited 0
  obtain ⟨-, halfway, written, -⟩ :=
    properties_form_one_map reachable (Nat.le_refl 0) compiled readings 9 .refl
  refine ⟨reachable, .refl, by decide +kernel, (written 2 "b").mp (by decide +kernel),
    (written 2 "c").mp (by decide +kernel), ?_, ?_⟩
  · exact fun ever => absurd ((written 2 "m").mpr ever) (by decide +kernel)
  · intro stops spared
    have fields := halfway stops ⟨2, ⟨0, "A", ∅⟩⟩
    constructor
    · by_contra writes
      exact absurd ((fields.isSome_iff "b").mpr (.inr writes)) (by decide +kernel)
    · intro spares
      have same := congrArg Option.isSome (fields.kept "c" spares)
      exact absurd same (by decide +kernel)

end

end Rill
