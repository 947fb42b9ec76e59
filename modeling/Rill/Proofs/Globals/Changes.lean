import Rill.Proofs.Globals.Watching
import Rill.Proofs.Scope.Rules
import Rill.Proofs.Sessions.Numbering

/-!
# What changes globals

The globals of a session change in the open only. A program adds the names that its own statements
declare, as far as they come to their end, and no others; and a global gets another value from such
a statement, or from an assignment that is not bound. Whatever happens inside scopes and functions
stays there.
-/

namespace Rill

namespace Keeping

open Invariant

variable {k k' : Keeping} {m : Machine} {h : Heap} {name : String} {v : Value} {s : Stmt}

/-! ## Code -/

/-- Code that is bound right may run. -/
theorem code_of_bound {program : List Stmt}
    (bound : Stmt.BoundAll k.ledger false [] program) :
    k.invariant.Code (programSites program) := by
  intro site present mention standing
  have located := bound.locates .nil site present mention standing
  have mentioned : mention ∈ Stmt.mentionsAll program := by
    rw [← Stmt.filterMap_mention?_sitesAll []]
    exact List.mem_filterMap.mpr ⟨site, present, standing⟩
  refine ⟨Stmt.BoundAll.knows bound _ (List.mem_map_of_mem mentioned), ?_⟩
  intro d at_
  rw [located] at at_
  exact (List.findIdx?_eq_some_iff_getElem.mp at_).1

theorem Within.extend {depth : Nat} {id : Occurrence} (within : k.Within depth id)
    (extends_ : k.ledger.Extends k'.ledger) : k'.Within depth id where
  lt_limit := Nat.lt_of_lt_of_le within.lt_limit extends_.limit_le
  lt_depth bound := within.lt_depth (extends_.getElem?_eq id within.lt_limit ▸ bound)

/-- More code, and something else that is known of a global. -/
theorem Holds.extend (holds : k.Holds h) (extends_ : k.ledger.Extends k'.ledger)
    (kept : k'.Kept (h.forest.slot? Machine.globals k'.name)) : k'.Holds h := by
  have runs {depth : Nat} {routine : Routine} (runs : k.code.Runs depth routine) :
      k'.code.Runs depth routine := by
    obtain ⟨around, length, code⟩ := runs
    exact ⟨around, length, fun site present mention standing =>
      (code site present mention standing).extend extends_⟩
  have implies : (k.code.parts h).Implies (k'.code.parts h) :=
    ⟨fun ⟨depth, frame, inner⟩ => ⟨depth, frame, runs inner⟩,
      fun ⟨depth, frame, inner⟩ => ⟨depth, frame, runs inner⟩, id⟩
  exact ⟨holds.present, holds.outermost, fun found => (holds.slots found).imp implies,
    fun found => (holds.fields found).imp implies, kept⟩

/-! ## Under watch -/

/-- An assignment keeps a global if the value is fine for it wherever it would be changed. -/
theorem assign_keeps {depth : Nat} (stands : k.invariant.Stands m depth) {id : Occurrence}
    (within : k.Within depth id) (admits : k.invariant.Admits m.heap v)
    (fine : m.bindings[id]? = none → (m.forest.slot? Machine.globals name).isSome →
      name = k.name → k.Kept (some v)) (line : Nat) :
    k.invariant.Keeps m (fun _ _ => True) (Run.assign id name v line m) := by
  by_cases here : m.bindings[id]? = none ∧ name = k.name
  · obtain ⟨unbound, rfl⟩ := here
    cases found : m.forest.slot? Machine.globals k.name with
    | some old =>
        rw [Run.assign_of_global unbound found]
        refine Run.keeps_of_heap stands.toMeets (.define m Machine.globals _ v) ?_ trivial
        exact Holds.define stands.holds admits fun _ _ => fine unbound (by rw [found]; rfl) rfl
    | none =>
        rw [Run.assign_of_undefined unbound found]
        exact Keeps.halt stands.toMeets
  · exact Run.assign_keeps k.lawful stands within
      (fun unbound same => absurd ⟨unbound, same⟩ here) admits line

section Stopping

variable {α : Type} {I : Invariant} {post : Heap → α → Prop} {x : Run α} {stops : Run.Stops}

theorem stop_keeps (meets : I.Meets m) (keeps : I.Keeps m post (x m)) :
    I.Keeps m post ((Run.stop stops >>= fun _ => x) m) := by
  cases stopped : stops m with
  | some reason =>
      rw [Run.stop_bind_of_some stopped]
      exact Keeps.halt meets
  | none =>
      rw [Run.stop_bind_of_none stopped]
      exact keeps

theorem stopping_keeps (meets : I.Meets m) (keeps : I.Keeps m post (x m)) :
    I.Keeps m post (Run.stopping stops x m) := by
  refine stop_keeps meets (Keeps.bind keeps ?_)
  intro a n _ meets' ended
  exact stop_keeps meets' (Keeps.ok meets' ended)

end Stopping

/-- Code under watch keeps a global to the values that are permitted. -/
theorem watched_keeps (k : Keeping) {w : Watch} {host : Hosting} (hands : host.HandsOn)
    (watches : w.name = k.name) (permits : ∀ v, w.permits v = true → k.Kept (some v))
    (stops : Run.Stops) (effort : Nat) :
    k.invariant.Evaluates (Run.evaluateWatched w stops host effort) ∧
      k.invariant.Executes (Run.executeWatched w stops host effort) := by
  induction effort with
  | zero => exact ⟨fun stands _ => Keeps.halt stands.toMeets,
      fun stands _ _ => Keeps.halt stands.toMeets⟩
  | succ effort ih =>
      obtain ⟨evaluates, executes⟩ := ih
      refine ⟨?_, fun stands code declares => stopping_keeps stands.toMeets
        (Run.executeWith_keeps k.lawful evaluates executes effort stands code declares)⟩
      intro m depth e stands suits
      apply stopping_keeps stands.toMeets
      have rest := Run.evaluateWith_keeps k.lawful evaluates hands executes (e := e) stands suits
      cases e with
      | assign id name value =>
          obtain ⟨suitsValue, suitsName⟩ := suits_append.mp suits
          apply Keeps.bind (evaluates stands suitsValue)
          intro v n continues meets admits
          rw [Run.get_bind]
          by_cases trips : w.Trips n id name.name v
          · rw [if_pos trips]
            exact Keeps.halt meets
          · rw [if_neg trips]
            refine Keeps.bind (assign_keeps (stands.mono k.lawful continues meets)
              (suitsName _ (List.mem_singleton_self _)) admits ?_ name.line) ?_
            · intro unbound defined same
              apply permits
              exact Bool.not_eq_false _ ▸ fun refused =>
                trips ⟨unbound, defined, same.trans watches.symm, refused⟩
            · intro _ n₂ continues₂ meets₂ _
              exact Keeps.ok meets₂ (admits.mono k.lawful continues₂)
      | _ => exact rest (by rintro _ _ _ ⟨⟩)

/-! ## Statements among the globals -/

/-- A declaration comes to its end, or it keeps even the global that it would have declared. -/
theorem declaration_ends {evaluate : Expr → Run Value} {execute : Stmt → Run Flow} (effort : Nat)
    (evaluates : k.invariant.Evaluates evaluate) (stands : k.invariant.Stands m 0)
    (code : k.invariant.Code (s.sites [])) (declared : s.declared? = some name) :
    (∃ n, Run.executeWith evaluate execute effort s m = .ok .next n) ∨
      k.invariant.Meets (Machine.ofResult (Run.executeWith evaluate execute effort s m)) := by
  have keeps := Run.declaredValue_keeps k.lawful evaluates stands code declared
  rw [Run.executeWith_declared effort declared]
  change (∃ n, EStateM.bind _ _ m = _) ∨ k.invariant.Meets (Machine.ofResult (EStateM.bind _ _ m))
  unfold EStateM.bind
  revert keeps
  generalize Run.declaredValue evaluate s m = r
  intro keeps
  cases r with
  | ok v n => exact .inl ⟨_, rfl⟩
  | error halt n => exact .inr keeps.2

/-- Code keeps a global that no assignment can change. -/
theorem runs_of_stable (k : Keeping) {host : Hosting} (hands : host.HandsOn)
    (stable : ∀ old v, k.Kept (some old) → k.Kept (some v)) (effort : Nat) :
    k.invariant.Evaluates (Run.evaluate host effort) ∧
      k.invariant.Executes (Run.execute host effort) :=
  Run.keeps_of_effort k.lawful hands (fun _ _ _ _ => stable) effort

/-- What is asked of the execution of declarations among the globals. -/
def Ends (k : Keeping) (execute : Stmt → Run Flow) : Prop :=
  ∀ {m : Machine} {s : Stmt} {name : String}, k.invariant.Stands m 0 →
    k.invariant.Code (s.sites []) → s.declared? = some name →
      (∃ n, execute s m = .ok .next n) ∨ k.invariant.Meets (Machine.ofResult (execute s m))

theorem execute_ends {host : Hosting}
    (runs : ∀ effort, k.invariant.Evaluates (Run.evaluate host effort) ∧
      k.invariant.Executes (Run.execute host effort)) {effort : Nat} :
    k.Ends (Run.execute host effort) := by
  intro m s name stands code declared
  cases effort with
  | zero => exact .inr stands.toMeets
  | succ effort => exact declaration_ends effort (runs effort).1 stands code declared

section Reaching

variable {stops : Run.Stops} {evaluate : Nat → Expr → Run Value} {execute : Nat → Stmt → Run Flow}
  (runs : ∀ effort, k.invariant.Evaluates (evaluate effort) ∧ k.invariant.Executes (execute effort))

include runs

theorem reaching_executes (effort : Nat) :
    k.invariant.Executes (Run.executeReaching stops evaluate execute effort) := by
  intro m around s stands code declares
  cases effort with
  | zero => exact Keeps.halt stands.toMeets
  | succ effort =>
      exact stop_keeps stands.toMeets (Run.executeWith_keeps k.lawful (runs effort).1
        (runs effort).2 effort stands code declares)

/-- A declaration that is stopped has not come to its end. -/
theorem reaching_ends (effort : Nat) :
    k.Ends (Run.executeReaching stops evaluate execute effort) := by
  intro m s name stands code declared
  cases effort with
  | zero => exact .inr stands.toMeets
  | succ effort =>
      rw [Run.executeReaching]
      cases stopped : stops m with
      | some reason =>
          rw [Run.stop_bind_of_some stopped]
          exact .inr stands.toMeets
      | none =>
          rw [Run.stop_bind_of_none stopped]
          exact declaration_ends effort (runs effort).1 stands code declared

end Reaching

/-- A program keeps a global that none of the statements which it completes declares. -/
theorem runAll_keeps {execute : Stmt → Run Flow} (executes : k.invariant.Executes execute)
    (ends : k.Ends execute) {program : List Stmt} (stands : k.invariant.Stands m 0)
    (code : k.invariant.Code (programSites program)) :
    (∃ s ∈ Run.completed execute program m, s.declared? = some k.name) ∨
      k.invariant.Meets (Machine.ofResult (Run.runAll execute program m)) := by
  induction program generalizing m with
  | nil => exact .inr stands.toMeets
  | cons s rest ih =>
      obtain ⟨here, others⟩ := code_append.mp code
      rw [behind_nil] at others
      rw [Run.completed]
      change _ ∨ k.invariant.Meets (Machine.ofResult (EStateM.bind (execute s) _ m))
      unfold EStateM.bind
      by_cases declared : s.declared? = some k.name
      · rcases ends stands here declared with ⟨n, ended⟩ | meets
        · rw [ended]
          exact .inl ⟨s, List.mem_cons_self, declared⟩
        · revert meets
          cases execute s m with
          | error halt n => exact .inr
          | ok flow n =>
              intro meets
              cases flow with
              | next => exact .inl ⟨s, List.mem_cons_self, declared⟩
              | exit value => exact .inr meets
      · have keeps := executes stands here fun _ name declares same =>
          absurd (declares.trans (congrArg some same)) declared
        revert keeps
        cases execute s m with
        | error halt n => exact fun keeps => .inr keeps.2
        | ok flow n =>
            intro keeps
            cases flow with
            | exit value => exact .inr keeps.2.1
            | next =>
                refine (ih (stands.mono k.lawful keeps.1 keeps.2.1) others).imp_left ?_
                rintro ⟨other, ended, declares⟩
                exact ⟨other, List.mem_cons_of_mem s ended, declares⟩

/-- Behind statements that have come to their end, the rest of a program may run. -/
theorem stands_behind {host : Hosting} {effort : Nat} {front rest : List Stmt} {n : Machine}
    (executes : k.invariant.Executes (Run.execute host effort)) (declares : ∀ v, k.Kept (some v))
    (stands : k.invariant.Stands m 0) (code : k.invariant.Code (programSites (front ++ rest)))
    (ran : Run.runProgram host effort front m = .ok () n) :
    k.invariant.Stands n 0 ∧ k.invariant.Code (programSites rest) := by
  induction front generalizing m with
  | nil =>
      cases ran
      exact ⟨stands, code⟩
  | cons s front ih =>
      obtain ⟨here, others⟩ := code_append.mp code
      rw [behind_nil] at others
      obtain ⟨flow, n', first, later⟩ := Run.exists_of_bind_eq_ok ran
      have keeps := executes stands here fun _ _ _ _ => declares
      rw [first] at keeps
      cases flow with
      | exit value => cases later
      | next => exact ih (stands.mono k.lawful keeps.1 keeps.2.1) others later

/-- What is known of a global may be forgotten and learned anew. -/
theorem stands_anew (stands : k.invariant.Stands m 0) {sites : List Site}
    (code : k.invariant.Code sites) (same : k'.ledger = k.ledger)
    (kept : k'.Kept (m.forest.slot? Machine.globals k'.name)) :
    k'.invariant.Stands m 0 ∧ k'.invariant.Code sites := by
  have extends_ : k.ledger.Extends k'.ledger := same ▸ .refl _
  refine ⟨⟨⟨Holds.extend stands.holds extends_ kept, ?_⟩, stands.frame⟩, ?_⟩
  · exact stands.bindings_eq.trans (congrArg Ledger.bindings same).symm
  · exact fun site present mention standing => (code site present mention standing).extend extends_

end Keeping

/-! ## Completed statements -/

namespace Run

variable {execute : Stmt → Run Flow} {m n : Machine} {s : Stmt} {name : String}

theorem completed_prefix (execute : Stmt → Run Flow) (program : List Stmt) (m : Machine) :
    completed execute program m <+: program := by
  induction program generalizing m with
  | nil => exact List.nil_prefix
  | cons s rest ih =>
      rw [completed]
      split
      · exact List.cons_prefix_cons.mpr ⟨rfl, ih _⟩
      · exact List.nil_prefix

/-- A program that comes to its end completes all its statements. -/
theorem completed_of_ok {program : List Stmt} (ran : runAll execute program m = .ok () n) :
    completed execute program m = program := by
  induction program generalizing m with
  | nil => rfl
  | cons s rest ih =>
      obtain ⟨flow, n', first, later⟩ := exists_of_bind_eq_ok ran
      rw [completed, first]
      cases flow with
      | exit value => cases later
      | next => exact congrArg (s :: ·) (ih later)

/-- A declaration that comes to its end has defined its name. -/
theorem isSome_of_declared {host : Hosting} {effort : Nat} {flow : Flow}
    (ran : Run.execute host effort s m = .ok flow n) (declared : s.declared? = some name)
    (present : m.current < m.forest.frames.size) : (n.forest.slot? m.current name).isSome := by
  cases effort with
  | zero => cases ran
  | succ effort =>
      change executeWith _ _ effort s m = _ at ran
      rw [executeWith_declared effort declared] at ran
      obtain ⟨v, n', made, defined⟩ := exists_of_bind_eq_ok ran
      have continues := declaredValue_continues (evaluate_continues host effort) s m
      rw [made] at continues
      have current : n'.current = m.current := continues.current_eq
      have kept : m.current < n'.forest.frames.size := Nat.lt_of_lt_of_le present continues.size_le
      cases defined
      change (Forest.slot? (Forest.define _ _ _ _) _ _).isSome
      rw [current, Forest.slot?_define _ _ _ _ kept, if_pos ⟨rfl, rfl⟩]
      rfl

/-- The names that completed statements declare are there when the program has run. -/
theorem isSome_of_completed {host : Hosting} {effort : Nat} {program : List Stmt}
    (present : m.current < m.forest.frames.size)
    (ended : s ∈ completed (Run.execute host effort) program m)
    (declared : s.declared? = some name) :
    ((Machine.ofResult (runProgram host effort program m)).forest.slot? m.current name).isSome := by
  induction program generalizing m with
  | nil => cases ended
  | cons first rest ih =>
      have continues := execute_continues host effort first m
      rw [completed] at ended
      change (Forest.slot?
        (Machine.ofResult (EStateM.bind (Run.execute host effort first) _ m)).forest _ _).isSome
      unfold EStateM.bind
      cases ran : Run.execute host effort first m with
      | error halt n' =>
          rw [ran] at ended
          cases ended
      | ok flow n' =>
          rw [ran] at ended continues
          cases flow with
          | exit value => cases ended
          | next =>
              have goesOn := runProgram_continues host effort rest n'
              rcases List.mem_cons.mp ended with rfl | later
              · exact goesOn.slot?_isSome (isSome_of_declared ran declared present)
              · have current : n'.current = m.current := continues.current_eq
                rw [← current] at present ⊢
                exact ih (Nat.lt_of_lt_of_le present continues.size_le) later

/-- A program whose run ends well has come to its end. -/
theorem exists_of_interpret_ok {host : Hosting} {effort : Nat} {program : List Stmt}
    (ran : interpret host effort program m = .ok () n) :
    ∃ n', runProgram host effort program m = .ok () n' := by
  unfold interpret at ran
  revert ran
  cases runProgram host effort program m with
  | ok _ n' => exact fun _ => ⟨n', rfl⟩
  | error halt n' =>
      intro ran
      cases halt with
      | fault _ | output _ =>
          dsimp only at ran
          cases flushed : flush n' with
          | ok _ _ =>
              rw [flushed] at ran
              cases ran
          | error _ _ =>
              rw [flushed] at ran
              cases ran
      | breach _ | spent => cases ran

/-- Assigning to a name that no scope has and no global is fails, and makes none. -/
theorem evaluate_assign_of_undefined {host : Hosting} {effort : Nat} {id : Occurrence}
    {name : Ident} {e : Expr} {v : Value} (unbound : m.bindings[id]? = none)
    (ran : evaluate host effort e m = .ok v n)
    (absent : n.forest.slot? Machine.globals name.name = none) :
    evaluate host (effort + 1) (.assign id name e) m =
      .error (.fault ⟨name.line, .undefinedVariable name.name⟩) n := by
  have continues := evaluate_continues host effort e m
  rw [ran] at continues
  have still : n.bindings[id]? = none := (congrArg (·[id]?) continues.bindings_eq).trans unbound
  change EStateM.bind _ _ m = _
  unfold EStateM.bind
  rw [ran]
  change EStateM.bind _ _ n = _
  unfold EStateM.bind
  rw [assign_of_undefined still absent]

end Run

/-! ## Sessions -/

section Sessions

variable {session : Session} {program : Program} {source : String} {fresh first next : Occurrence}
  {k : Keeping}

/-- A compiled program starts on a session from whose globals nothing has leaked. -/
theorem Keeping.Holds.addProgram
    (holds : (Keeping.mk (session.ledger fresh) k.name fun _ => True).Holds session.machine.heap)
    (current : session.machine.current = Machine.globals) (later : fresh ≤ first)
    (compiled : program.Compiled first next) (closed : (session.ledger fresh).IsClosed)
    (ledger_eq : k.ledger = (session.ledger fresh).add program next)
    (kept : k.Kept (session.machine.forest.slot? Machine.globals k.name)) :
    k.invariant.Stands (session.machine.addBindings program.bindings) 0 ∧
      k.invariant.Code (programSites program.statements) := by
  have extends_ : (session.ledger fresh).Extends k.ledger :=
    ledger_eq ▸ Ledger.extends_add compiled later
  have extended : k.Holds session.machine.heap := holds.extend extends_ kept
  refine ⟨⟨⟨extended, ?_⟩, ⟨extended.present, congrArg some current⟩⟩, ?_⟩
  · exact (congrArg Ledger.bindings ledger_eq).symm
  · exact Keeping.code_of_bound (ledger_eq ▸ Ledger.boundAll_add compiled later closed)

theorem Keeping.holds_start (sink : Sink) (fresh : Occurrence) (name : String) :
    (Keeping.mk ((Session.start sink).ledger fresh) name fun _ => True).Holds
      (Machine.start sink).heap := by
  have empty : (Keeping.mk ((Session.start sink).ledger fresh) name fun _ => True).Holds
      (Machine.empty sink).heap :=
    { present := Nat.one_pos
      outermost := rfl
      slots := by
        intro frame name v found
        have slot : (Forest.empty.add none).slot? frame name = some v := found
        rw [Forest.slot?_add] at slot
        cases slot
      fields := by
        intro identity name v found
        have field : (∅ : Table Value)[name]? = some v := found
        rw [Std.TreeMap.getElem?_emptyc] at field
        cases field
      kept := trivial }
  exact empty.define (v := .native .clock) trivial
    fun _ _ => trivial

theorem Session.exists_of_failure_eq_none {host : Hosting} {effort : Nat}
    (compiled : compile source first = (.ok program, next))
    (ended : (session.run host effort source first).failure = none) :
    ∃ n, Run.interpret host effort program.statements
      (session.machine.addBindings program.bindings) = .ok () n := by
  unfold Session.run at ended
  rw [compiled] at ended
  dsimp only [Session.runProgram] at ended
  revert ended
  cases Run.interpret host effort program.statements
    (session.machine.addBindings program.bindings) with
  | ok _ n => exact fun _ => ⟨n, rfl⟩
  | error halt n => exact fun ended => nomatch ended

/-- In every session, functions stand where their mentions are bound. -/
theorem Session.Reachable.holds (reachable : session.Reachable fresh) (name : String) :
    (Keeping.mk (session.ledger fresh) name fun _ => True).Holds session.machine.heap := by
  induction reachable with
  | start sink fresh => exact Keeping.holds_start sink fresh name
  | @run session fresh reachable readings effort source first later ih =>
      have counted := fresh_le_compile source first
      have bindings := session.run_bindings (.withClock readings) effort source first
      have machine := session.run_session (.withClock readings) effort source first
      have numbers := session.run_fresh (.withClock readings) effort source first
      rcases compiles : compile source first with ⟨outcome, next⟩
      rw [compiles] at counted bindings machine numbers
      cases outcome with
      | error faults =>
          rw [Session.ledger, bindings, machine, numbers]
          exact ih.extend ⟨Nat.le_trans later counted, fun _ _ => rfl⟩ trivial
      | ok program =>
          rw [Session.ledger, bindings, machine, numbers]
          let k : Keeping := ⟨(session.ledger fresh).add program next, name, fun _ => True⟩
          obtain ⟨stands, code⟩ := Keeping.Holds.addProgram (k := k) ih reachable.current_eq later
            (Program.compiled_of_compile compiles) reachable.isClosed rfl trivial
          have executes : k.invariant.Executes (Run.execute (.withClock readings) effort) :=
            (Run.keeps_of_effort k.lawful (Hosting.handsOn_withClock readings)
              (fun _ _ _ _ _ _ _ => trivial) effort).2
          exact (Run.interpret_keeps k.lawful executes stands code
            fun _ _ _ _ _ _ => trivial).meets.holds
  | redirect _ sink ih => exact ih

/--
What a watch tells of the rest of a program until it is stopped. The watch raises its alarm; or the
program runs just the same, and then the global has the value that it had before or one that is
permitted, or a statement that has come to its end declares it.
-/
def Run.WatchTells (w : Watch) (stops : Stops) (host : Hosting) (effort : Nat) (rest : List Stmt)
    (m : Machine) : Prop :=
  let watched := runAll (watchAsFar w stops host effort) rest m
  let reached := runAll (executeAsFar stops host effort) rest m
  let value (m : Machine) := m.forest.slot? Machine.globals w.name
  (∃ n, watched = .error w.alarm n) ∨
    watched = reached ∧
      (value (Machine.ofResult reached) = value m ∨
        (∃ v, value (Machine.ofResult reached) = some v ∧ w.permits v = true) ∨
        ∃ s ∈ completed (executeAsFar stops host effort) rest m, s.declared? = some w.name)

theorem Keeping.watchTells {m : Machine} {host : Hosting} {rest : List Stmt}
    (hands : host.HandsOn) (stands : k.invariant.Stands m 0)
    (code : k.invariant.Code (programSites rest)) (w : Watch) (stops : Run.Stops) (effort : Nat) :
    Run.WatchTells w stops host effort rest m := by
  rcases Run.runAll_goesAs (Run.watchAsFar_goesAs w stops host effort) rest m with
    ⟨same, ends⟩ | raised
  · refine .inr ⟨same, ?_⟩
    let kept : Keeping := ⟨k.ledger, w.name, fun found =>
      found = m.forest.slot? Machine.globals w.name ∨ ∃ v, found = some v ∧ w.permits v = true⟩
    obtain ⟨stands', code'⟩ :
        kept.invariant.Stands m 0 ∧ kept.invariant.Code (programSites rest) :=
      stands_anew stands code rfl (.inl rfl)
    have runs := kept.watched_keeps hands rfl (fun v permitted => .inr ⟨v, rfl, permitted⟩) stops
    rcases runAll_keeps (reaching_executes runs effort) (reaching_ends runs effort) stands' code'
      with declares | keeps
    · exact .inr (.inr (ends ▸ declares))
    · have held := Holds.kept (k := kept) keeps.holds
      exact (same ▸ held).imp_right .inl
  · exact .inl raised

section Run

variable (reachable : session.Reachable fresh) (later : fresh ≤ first)
  (compiled : compile source first = (.ok program, next)) (readings : Nat → Except String Number)
  (effort : Nat)

include reachable later compiled

/-- What is known of a global in front of a program is known where the program starts. -/
theorem Session.Reachable.stands (ledger_eq : k.ledger = (session.ledger fresh).add program next)
    (kept : k.Kept (session.machine.forest.slot? Machine.globals k.name)) :
    k.invariant.Stands (session.machine.addBindings program.bindings) 0 ∧
      k.invariant.Code (programSites program.statements) :=
  Keeping.Holds.addProgram (reachable.holds k.name) reachable.current_eq later
    (Program.compiled_of_compile compiled) reachable.isClosed ledger_eq kept

/-- Behind a program are the globals in front of it and those that completed statements declare. -/
theorem Session.Reachable.isSome_run_iff (name : String) :
    let host := Hosting.withClock readings
    let before := session.machine.addBindings program.bindings
    let ran := session.run host effort source first
    (ran.session.machine.forest.slot? Machine.globals name).isSome ↔
      (session.machine.forest.slot? Machine.globals name).isSome ∨
        ∃ s ∈ Run.completed (Run.execute host effort) program.statements before,
          s.declared? = some name := by
  intro host before ran
  have after : ran.session.machine =
      Machine.ofResult (Run.runProgram host effort program.statements before) :=
    Session.machine_run_of_compile compiled
  rw [after]
  constructor
  · intro there
    by_contra neither
    obtain ⟨absent, undeclared⟩ := not_or.mp neither
    let k : Keeping := ⟨(session.ledger fresh).add program next, name, (· = none)⟩
    obtain ⟨stands, code⟩ :=
      reachable.stands later compiled (k := k) rfl (Option.not_isSome_iff_eq_none.mp absent)
    have runs := k.runs_of_stable (Hosting.handsOn_withClock readings)
      (fun _ _ impossible => nomatch impossible)
    have kept := (Keeping.runAll_keeps (runs effort).2 (Keeping.execute_ends runs) stands
      code).resolve_left undeclared
    rw [Run.runAll_execute] at kept
    have gone : (Machine.ofResult
        (Run.runProgram host effort program.statements before)).forest.slot? Machine.globals name =
          none := kept.holds.kept
    rw [gone] at there
    cases there
  · rintro (had | ⟨s, ended, declared⟩)
    · exact (Run.runProgram_continues host effort program.statements before).slot?_isSome had
    · have current : before.current = Machine.globals := reachable.current_eq
      have defined := Run.isSome_of_completed
        (current ▸ (reachable.holds name).present) ended declared
      rw [current] at defined
      exact defined

/-- A watch also tells of what is left of a program when some statements have come to their end. -/
theorem Session.Reachable.watchTells {front rest : List Stmt} {m : Machine}
    (split : program.statements = front ++ rest)
    (came : Run.runProgram (.withClock readings) effort front
      (session.machine.addBindings program.bindings) = .ok () m) (w : Watch) (stops : Run.Stops) :
    Run.WatchTells w stops (.withClock readings) effort rest m := by
  have hands : (Hosting.withClock readings).HandsOn := Hosting.handsOn_withClock readings
  let k : Keeping := ⟨(session.ledger fresh).add program next, w.name, fun _ => True⟩
  obtain ⟨stands, code⟩ := reachable.stands later compiled (k := k) rfl trivial
  have runs := k.runs_of_stable hands fun _ _ => id
  obtain ⟨stands', code'⟩ :=
    Keeping.stands_behind (runs effort).2 (fun _ => trivial) stands (split ▸ code) came
  exact Keeping.watchTells hands stands' code' w stops effort

end Run

/--
Globals change in the open only. Behind a program that a session runs, the globals have the names
that they had in front of it, and those that completed statements of the program declare: all its
statements if it ends well, and a beginning of them otherwise. To tell why the value of a global has
changed since some statements have come to their end, let the rest of the program run under watch,
with any alarm, until it is stopped anywhere: unless an assignment that is not bound is evaluated
and gives the global a value that is not permitted, the program runs just the same, and then the
global has the value that it had behind these statements or one that is permitted, or a statement
that has been completed since declares it. An assignment to a global that is not there fails and
makes none.
-/
theorem globals_change_in_the_open (reachable : session.Reachable fresh) (later : fresh ≤ first)
    (compiled : compile source first = (.ok program, next))
    (readings : Nat → Except String Number) (effort : Nat) :
    let host := Hosting.withClock readings
    let before := session.machine.addBindings program.bindings
    let ran := session.run host effort source first
    let completed := Run.completed (Run.execute host effort) program.statements before
    let value (session : Session) (name : String) :=
      session.machine.forest.slot? Machine.globals name
    completed <+: program.statements ∧
    (ran.failure = none → completed = program.statements) ∧
    (∀ name, (value ran.session name).isSome ↔
      (value session name).isSome ∨ ∃ s ∈ completed, s.declared? = some name) ∧
    (∀ (front rest : List Stmt) (m : Machine), program.statements = front ++ rest →
      Run.runProgram host effort front before = .ok () m →
        Machine.ofResult (Run.runAll (Run.executeAsFar .never host effort) rest m) =
          ran.session.machine ∧
        ∀ w stops, Run.WatchTells w stops host effort rest m) ∧
    ∀ (m n : Machine) (id : Occurrence) (name : Ident) (e : Expr) (v : Value),
      m.bindings[id]? = none → Run.evaluate host effort e m = .ok v n →
      n.forest.slot? Machine.globals name.name = none →
        Run.evaluate host (effort + 1) (.assign id name e) m =
          .error (.fault ⟨name.line, .undefinedVariable name.name⟩) n := by
  intro host before ran completed value
  refine ⟨Run.completed_prefix _ _ _, ?_, reachable.isSome_run_iff later compiled readings effort,
    ?_, ?_⟩
  · intro ended
    obtain ⟨n, interpreted⟩ := Session.exists_of_failure_eq_none compiled ended
    obtain ⟨n', finished⟩ := Run.exists_of_interpret_ok interpreted
    rw [← Run.runAll_execute] at finished
    exact Run.completed_of_ok finished
  · intro front rest m split came
    refine ⟨?_, reachable.watchTells later compiled readings effort split came⟩
    have after : ran.session.machine =
        Machine.ofResult (Run.runProgram host effort program.statements before) :=
      Session.machine_run_of_compile compiled
    rw [after, split, Run.runProgram_append_of_ok came, Run.executeAsFar_never, Run.runAll_execute]
  · intro m n id name e v unbound evaluated absent
    exact Run.evaluate_assign_of_undefined unbound evaluated absent

/-- A name of a block and one that is only assigned to are no globals afterwards. -/
theorem globals_change_in_the_open_of_block :
    ∃ program next,
      compile "let a = nil; \x7b let b = true; a = b; \x7d c = a;" 0 = (.ok program, next) ∧
      let readings : Nat → Except String Number := fun _ => .error "no clock"
      let session := Session.start .unlimited
      let completed := Run.completed (Run.execute (.withClock readings) 9) program.statements
        (session.machine.addBindings program.bindings)
      let ran := session.run (.withClock readings) 9
        "let a = nil; \x7b let b = true; a = b; \x7d c = a;" 0
      session.Reachable 0 ∧ completed.map Stmt.declared? = [some "a", none] ∧
        (ran.session.machine.forest.slot? Machine.globals "a").isSome ∧
        ∀ name ∈ ["b", "c"],
          ¬ (ran.session.machine.forest.slot? Machine.globals name).isSome := by
  have scanned : tokens "let a = nil; \x7b let b = true; a = b; \x7d c = a;" = .ok
      [⟨.keyword .letWord, "let", 1⟩, ⟨.identifier, "a", 1⟩, ⟨.mark .equal, "=", 1⟩,
       ⟨.keyword .nilWord, "nil", 1⟩, ⟨.mark .semicolon, ";", 1⟩, ⟨.mark .leftBrace, "\x7b", 1⟩,
       ⟨.keyword .letWord, "let", 1⟩, ⟨.identifier, "b", 1⟩, ⟨.mark .equal, "=", 1⟩,
       ⟨.keyword .trueWord, "true", 1⟩, ⟨.mark .semicolon, ";", 1⟩, ⟨.identifier, "a", 1⟩,
       ⟨.mark .equal, "=", 1⟩, ⟨.identifier, "b", 1⟩, ⟨.mark .semicolon, ";", 1⟩,
       ⟨.mark .rightBrace, "\x7d", 1⟩, ⟨.identifier, "c", 1⟩, ⟨.mark .equal, "=", 1⟩,
       ⟨.identifier, "a", 1⟩, ⟨.mark .semicolon, ";", 1⟩, ⟨.endOfInput, "", 1⟩] := by
    with_unfolding_all rfl
  have compiled : compile _ 0 = (.ok _, _) := compile_of_parse scanned rfl rfl
  refine ⟨_, _, compiled, ?_⟩
  intro readings session completed ran
  have reachable : session.Reachable 0 := .start .unlimited 0
  have names := (globals_change_in_the_open reachable (Nat.le_refl 0) compiled readings 9).2.2.1
  have declared : completed.map Stmt.declared? = [some "a", none] := by decide +kernel
  have local_ (name : String)
      (before : (session.machine.forest.slot? Machine.globals name).isSome = false)
      (other : some name ∉ completed.map Stmt.declared?) :
      ¬ (ran.session.machine.forest.slot? Machine.globals name).isSome := by
    intro there
    rcases (names name).mp there with had | ⟨s, ended, declares⟩
    · exact Bool.false_ne_true (before.symm.trans had)
    · exact other (declares ▸ List.mem_map_of_mem ended)
  refine ⟨reachable, declared, ?_, ?_⟩
  · obtain ⟨s, ended, declares⟩ := List.mem_map.mp (declared ▸ List.mem_cons_self)
    exact (names "a").mpr (.inr ⟨s, ended, declares⟩)
  · rw [declared] at local_
    simp only [List.forall_mem_cons]
    exact ⟨local_ "b" (by decide +kernel) (by decide), local_ "c" (by decide +kernel) (by decide),
      fun _ absent => nomatch absent⟩

end Sessions

end Rill
