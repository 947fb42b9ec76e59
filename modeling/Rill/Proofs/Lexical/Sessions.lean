import Rill.Proofs.Compilation
import Rill.Proofs.Lexical.Simulation
import Rill.Proofs.Syntax.Counting
import Rill.Session

/-!
# Sessions without frames

Source texts that are run one after the other lead a session and a store to the same output, the
same failures and corresponding values, whatever the texts do. So scopes are lexical, and what
resolution says of a program is always borne out by the frames of the machine.
-/

namespace Rill

/--
The session when its output goes elsewhere. A receiver that has made room since, or lost it, counts
as another one.
-/
def Session.redirect (session : Session) (sink : Sink) : Session :=
  ⟨{ session.machine with sink := sink }⟩

/--
The sessions that source texts lead to, with the least number that no earlier text has used. Every
text has its own effort and its own clock, and the receiver of output may change in between.
-/
inductive Session.Reachable : Session → Occurrence → Prop
  | start (sink : Sink) (fresh : Occurrence) : Reachable (Session.start sink) fresh
  | run {session : Session} {fresh : Occurrence} (reachable : Reachable session fresh)
      (readings : Nat → Except String Number) (effort : Nat) (source : String)
      {first : Occurrence} (later : fresh ≤ first) :
      Reachable (session.run (.withClock readings) effort source first).session
        (session.run (.withClock readings) effort source first).fresh
  | redirect {session : Session} {fresh : Occurrence} (reachable : Reachable session fresh)
      (sink : Sink) : Reachable (session.redirect sink) fresh

namespace Lexical

/-- The store when its output goes elsewhere. -/
def Store.redirect (store : Store) (sink : Sink) : Store := { store with sink := sink }

/-- A session and a store that the same source texts lead to. -/
inductive Parallel : Session → Store → Occurrence → Prop
  | start (sink : Sink) (fresh : Occurrence) :
      Parallel (Session.start sink) (Store.start sink) fresh
  | run {session : Session} {store : Store} {fresh : Occurrence}
      (parallel : Parallel session store fresh) (readings : Nat → Except String Number)
      (effort : Nat) (source : String) {first : Occurrence} (later : fresh ≤ first) :
      Parallel (session.run (.withClock readings) effort source first).session
        (store.run (.withClock readings) effort source first).store
        (session.run (.withClock readings) effort source first).fresh
  | redirect {session : Session} {store : Store} {fresh : Occurrence}
      (parallel : Parallel session store fresh) (sink : Sink) :
      Parallel (session.redirect sink) (store.redirect sink) fresh

/-- Every session that source texts lead to has a store that they lead to. -/
theorem exists_parallel {session : Session} {fresh : Occurrence}
    (reachable : session.Reachable fresh) : ∃ store, Parallel session store fresh := by
  induction reachable with
  | start sink fresh => exact ⟨Store.start sink, .start sink fresh⟩
  | run _ readings effort source later ih =>
      obtain ⟨store, parallel⟩ := ih
      exact ⟨_, parallel.run readings effort source later⟩
  | redirect _ sink ih =>
      obtain ⟨store, parallel⟩ := ih
      exact ⟨_, parallel.redirect sink⟩

/-! ## Clocks -/

/-- What a clock answers is a number or a fault, whatever kind of machine asks. -/
theorem answer_withClock (readings : Nat → Except String Number) (call : Nat) (f : Native) :
    (∃ reading : Number, ∀ {ε : Type} (values : List (Value ε)),
      (Hosting.withClock readings).answer call f values = .ok (.number reading)) ∨
    ∃ message, ∀ {ε : Type} (values : List (Value ε)),
      (Hosting.withClock readings).answer call f values = .error message := by
  by_cases clock : f = .clock
  · have answers {ε : Type} (values : List (Value ε)) :
        (Hosting.withClock readings).answer call f values = Value.number <$> readings call :=
      if_pos clock
    cases found : readings call with
    | ok reading =>
        rw [found] at answers
        exact .inl ⟨reading, answers⟩
    | error message =>
        rw [found] at answers
        exact .inr ⟨message, answers⟩
  · exact .inr ⟨_, fun _ => if_neg clock⟩

theorem hostsAlike_withClock (readings : Nat → Except String Number) :
    HostsAlike (.withClock readings) (.withClock readings) := by
  intro w call f values values' _
  rcases answer_withClock readings call f with ⟨reading, answers⟩ | ⟨message, answers⟩
  · exact .inl ⟨_, _, answers values, answers values', .number reading⟩
  · exact .inr ⟨message, answers values, answers values'⟩

/-! ## Between source texts -/

namespace World

/-- A world with another program in it. -/
def addProgram (w : World) (program : Program) (next : Occurrence) : World :=
  { w with ledger := w.ledger.add program next }

/-- A world in which a session and a store agree, and all code is numbered below a number. -/
structure Between (w : World) (session : Session) (store : Store) (fresh : Occurrence) : Prop where
  meets : w.Meets Machine.globals session.machine store
  closed : w.ledger.IsClosed
  limit_le : w.ledger.limit ≤ fresh

variable {w w' : World} {session : Session} {store : Store} {fresh first next : Occurrence}
  {program : Program}

theorem leadsTo_addProgram (compiled : program.Compiled first next)
    (above : w.ledger.limit ≤ first) : w.LeadsTo none (w.addProgram program next) where
  ledger := Ledger.extends_add compiled above
  size_le := Nat.le_refl _
  parent_eq _ _ := rfl
  place_eq_some same := same
  filled had := had
  place_eq _ _ _ := rfl

/-- Agreement goes on when a program is added, whose bindings only the machine has. -/
theorem Agree.addProgram {m : Machine} {s : Store} (agree : w.Agree m s)
    (compiled : program.Compiled first next) (above : w.ledger.limit ≤ first) :
    (w.addProgram program next).Agree (m.addBindings program.bindings) s where
  bindings_eq := by
    rw [Machine.addBindings, agree.bindings_eq]
    rfl
  present := agree.present
  outermost := agree.outermost
  shares := {
    agree.shares with
    slots := by
      intro frame name location placed
      exact optionRel_mono (agree.shares.slots placed) fun alike =>
        alike.imp (leadsTo_addProgram compiled above).implies }
  globals name := optionRel_mono (agree.globals name) fun alike =>
    alike.imp (leadsTo_addProgram compiled above).implies
  fields identity := optionRel_mono (agree.fields identity) fun alike =>
    alike.imp (leadsTo_addProgram compiled above).implies
  nextIdentity_eq := agree.nextIdentity_eq
  sink_eq := agree.sink_eq
  hostCalls_eq := agree.hostCalls_eq

/-- Outside all scopes, the globals are around a statement. -/
theorem around_globals {m : Machine} {s : Store} (agree : w.Agree m s) :
    w.Around [] Machine.globals .top where
  fits := ⟨rfl, agree.present, fun _ => Std.TreeMap.getElem?_emptyc⟩
  settled := Scopes.settled_nil
  top_iff := by simp
  tight name placed := by
    obtain ⟨location, found⟩ := Option.ne_none_iff_exists'.mp placed
    exact absurd rfl (agree.shares.placed found).1

namespace Between

/-- A session and a store go on to agree when the output of both goes elsewhere. -/
theorem redirect (between : w.Between session store fresh) (sink : Sink) :
    w.Between (session.redirect sink) (store.redirect sink) fresh where
  meets := ⟨between.meets.agree.setSink sink, between.meets.current_eq⟩
  closed := between.closed
  limit_le := between.limit_le

/-- A source text leads a session and a store to the same failure, and leaves them in agreement. -/
theorem run (between : w.Between session store fresh) (readings : Nat → Except String Number)
    (effort : Nat) (source : String) (later : fresh ≤ first) :
    (session.run (.withClock readings) effort source first).failure =
        (store.run (.withClock readings) effort source first).failure ∧
      (∀ breach, (session.run (.withClock readings) effort source first).failure ≠
        some (.runtime (.breach breach))) ∧
      ∃ w', w.LeadsTo (some Machine.globals) w' ∧
        w'.Between (session.run (.withClock readings) effort source first).session
          (store.run (.withClock readings) effort source first).store
          (session.run (.withClock readings) effort source first).fresh := by
  have above := Nat.le_trans between.limit_le later
  unfold Session.run Store.run
  cases compiles : compile source first with
  | mk compiled next =>
    have counted := fresh_le_compile source first
    rw [compiles] at counted
    cases compiled with
    | error faults =>
        refine ⟨rfl, by simp, w, .refl w _, between.meets, between.closed, ?_⟩
        exact Nat.le_trans above counted
    | ok program =>
        have compiled := Program.compiled_of_compile compiles
        have agree := between.meets.agree.addProgram compiled above
        have leads := leadsTo_addProgram compiled above
        have runs := interpret_alongside (hostsAlike_withClock readings) effort
          ⟨agree, between.meets.current_eq⟩ (around_globals agree)
          (Ledger.boundAll_add compiled above between.closed)
        have closed := Ledger.isClosed_add compiled above between.closed
        dsimp only [Session.runProgram]
        revert runs
        generalize Rill.Run.interpret (.withClock readings) effort program.statements
          (session.machine.addBindings program.bindings) = r
        generalize Run.interpret (.withClock readings) effort program.statements store = r'
        intro runs
        cases runs with
        | ok ended =>
            obtain ⟨w', becomes, meets, _⟩ := ended
            refine ⟨rfl, by simp, w', (leads.weaken _).trans becomes.toLeadsTo, meets, ?_, ?_⟩
            · rw [becomes.ledger_eq]
              exact closed
            · rw [becomes.ledger_eq]
              exact Nat.le_refl next
        | error ended =>
            obtain ⟨rfl, sound, w', becomes, meets⟩ := ended
            refine ⟨rfl, ?_, w', (leads.weaken _).trans becomes.toLeadsTo, meets, ?_, ?_⟩
            · intro breach failed
              cases failed
              exact sound breach rfl
            · rw [becomes.ledger_eq]
              exact closed
            · rw [becomes.ledger_eq]
              exact Nat.le_refl next

end Between

/-- The world of the globals alone, without code. -/
def empty : World where
  ledger := ⟨∅, 0⟩
  size := 1
  parent _ := none
  place _ _ := none
  Filled _ _ := False

theorem shares_empty : empty.Shares (Forest.empty.add none) ∅ 0 where
  size_eq := rfl
  enclosing?_eq frame := by
    rw [Forest.enclosing?_add]
    split <;> rfl
  placed found := by cases found
  injective found := by cases found
  slots found := by cases found
  vacant _ _ := Forest.slot?_add _ _ _ _
  filled had := had.elim
  unused _ _ := Std.TreeMap.getElem?_emptyc

theorem agree_empty (sink : Sink) :
    empty.Agree (Machine.empty sink) { Store.start sink with globals := ∅ } where
  bindings_eq := rfl
  present := Nat.one_pos
  outermost := rfl
  shares := shares_empty
  globals name := by
    rw [Std.TreeMap.getElem?_emptyc]
    exact .none
  fields identity := by
    rw [Machine.empty, Store.start, Std.TreeMap.getElem?_emptyc, Std.TreeMap.getElem?_emptyc]
    exact .none
  nextIdentity_eq := rfl
  sink_eq := rfl
  hostCalls_eq := rfl

/-- A new session agrees with a new store: both have the clock among their globals. -/
theorem between_start (sink : Sink) (fresh : Occurrence) :
    (empty.fill Machine.globals Native.clock.name).Between (Session.start sink)
      (Store.start sink) fresh where
  meets := ⟨(agree_empty sink).fillGlobal (.native .clock), rfl⟩
  closed _ _ := Std.TreeMap.getElem?_emptyc
  limit_le := Nat.zero_le fresh

end World

/-- Whatever source texts have done before, a session and its store agree. -/
theorem Parallel.exists_between {session : Session} {store : Store} {fresh : Occurrence}
    (parallel : Parallel session store fresh) : ∃ w : World, w.Between session store fresh := by
  induction parallel with
  | start sink fresh => exact ⟨_, World.between_start sink fresh⟩
  | run _ readings effort source later ih =>
      obtain ⟨w, between⟩ := ih
      obtain ⟨_, _, w', _, after⟩ := between.run readings effort source later
      exact ⟨w', after⟩
  | redirect _ sink ih =>
      obtain ⟨w, between⟩ := ih
      exact ⟨w, between.redirect sink⟩

/-! ## Lexical scoping -/

/--
Scopes are lexical. On a session that any source texts have led to, a source text has the same
output and the same failure as on the store that they lead to without frames, and leaves
corresponding globals and fields. Every variable that a function sees goes on to be the one that its
name stood for when the function was declared.
-/
theorem run_alongside {session : Session} {store : Store} {fresh first : Occurrence}
    (parallel : Parallel session store fresh) (later : fresh ≤ first)
    (readings : Nat → Except String Number) (effort : Nat) (source : String) :
    let ran := session.run (.withClock readings) effort source first
    let ran' := store.run (.withClock readings) effort source first
    ran.failure = ran'.failure ∧ ran.session.machine.sink = ran'.store.sink ∧
      ∃ w w' : World, w.Agree session.machine store ∧ w.LeadsTo (some Machine.globals) w' ∧
        w'.Agree ran.session.machine ran'.store ∧
        ∀ name : String, Option.Rel w'.Alike
          (ran.session.machine.forest.slot? Machine.globals name) ran'.store.globals[name]? := by
  obtain ⟨w, between⟩ := parallel.exists_between
  obtain ⟨same, _, w', leads, after⟩ := between.run readings effort source later
  exact ⟨same, after.meets.agree.sink_eq, w, w', between.meets.agree, leads, after.meets.agree,
    after.meets.agree.globals⟩

/-- A function goes on to see the global of an earlier text, though its scope has shadowed it. -/
theorem start_run_alongside_shadowing :
    let readings : Nat → Except String Number := fun _ => .error "no clock"
    let before := (Session.start .unlimited).run (.withClock readings) 9 "let a = true" 0
    let before' := (Store.start .unlimited).run (.withClock readings) 9 "let a = true" 0
    let source := "\x7b fn f() \x7b print a; \x7d let a = false; f(); \x7d"
    let ran := before.session.run (.withClock readings) 9 source before.fresh
    let ran' := before'.store.run (.withClock readings) 9 source before.fresh
    Parallel before.session before'.store before.fresh ∧ before.fresh ≤ before.fresh ∧
      ran.failure = ran'.failure ∧ ran.session.machine.sink = ran'.store.sink ∧
      ran'.store.sink.taken = "true\n".toUTF8 :=
  have parallel := (Parallel.start .unlimited 0).run (fun _ => .error "no clock") 9 "let a = true"
    (Nat.le_refl 0)
  have same := run_alongside parallel (Nat.le_refl _) (fun _ => .error "no clock") 9 _
  ⟨parallel, Nat.le_refl _, same.1, same.2.1, by decide +kernel⟩

end Lexical

/-! ## Bookkeeping -/

/--
The bookkeeping of a machine is never found broken: on a session that any source texts have led to,
no source text halts for want of a variable in its frame, for want of frames, or at a return outside
functions.
-/
theorem Session.Reachable.failure_ne_breach {session : Session} {fresh first : Occurrence}
    (reachable : session.Reachable fresh) (later : fresh ≤ first)
    (readings : Nat → Except String Number) (effort : Nat) (source : String) (breach : Breach) :
    (session.run (.withClock readings) effort source first).failure ≠
      some (.runtime (.breach breach)) := by
  obtain ⟨store, parallel⟩ := Lexical.exists_parallel reachable
  obtain ⟨w, between⟩ := parallel.exists_between
  obtain ⟨_, sound, _⟩ := between.run readings effort source later
  exact sound breach

/-- A function that one text declares can be called from the next one. -/
theorem Session.Reachable.failure_ne_shortChain_of_call :
    let readings : Nat → Except String Number := fun _ => .error "no clock"
    let declared := (Session.start .unlimited).run (.withClock readings) 9
      "fn f(x) \x7b return x; \x7d" 0
    declared.session.Reachable declared.fresh ∧ declared.fresh ≤ declared.fresh ∧
      (declared.session.run (.withClock readings) 9 "f(1);" declared.fresh).failure ≠
        some (.runtime (.breach .shortChain)) :=
  have reachable := (Session.Reachable.start .unlimited 0).run
    (fun _ => .error "no clock") 9 "fn f(x) \x7b return x; \x7d" (Nat.le_refl 0)
  ⟨reachable, Nat.le_refl _, reachable.failure_ne_breach (Nat.le_refl _) _ 9 _ .shortChain⟩

end Rill
