import Rill.Proofs.Inspection.Code
import Rill.Proofs.Property.Reading
import Rill.Proofs.Receiver.Rosters

/-!
# Runs that a register is right about

A run under inspection follows a run without if the latter keeps a roster, perhaps with more
instances and classes at its end, and both are the same run for every register that says what is
true then. So the inspection may ask for what is only known in the end: what becomes of a frame, an
instance or a class is known as soon as it is there. An inspector may also guard fields. Then the
run under inspection either leaves them as they are, or it breaks off and the other one goes on to
leave a guarded field that is there.
-/

namespace Rill

namespace Register

variable {r : Register} {m : Machine} {home : FrameId}

/-- The instance of the nearest frame of `self` that is seen from a frame. -/
def receiverOf (r : Register) (frame : FrameId) : Option Object :=
  (r.selfFrameOf frame).bind r.instanceOf

/-- A frame that holds an instance sees that instance. -/
theorem receiverOf_of_instance (describes : r.Describes m)
    (present : home < m.forest.frames.size) {o : Object} (is : r.instanceOf home = some o) :
    r.receiverOf home = some o := by
  have nearest : r.selfFrameOf home = some home := by
    rw [← describes.seen home present, describes.sought home present, is]
    rfl
  rw [receiverOf, nearest, Option.bind_some, is]

/-- What `self` is in code with some surroundings. -/
def self (r : Register) (home : FrameId) (line : Nat) (m : Machine) : Run.Ending Value :=
  match r.receiverOf home with
  | some o => .ok (.object o) m
  | none => .error (.fault ⟨line, .undefinedVariable "self"⟩) m

/-- What is said of an expression in some surroundings. -/
structure OfExpression (r : Register) (home : FrameId) (e : Expr) (m : Machine)
    (ending : Run.Ending Value) : Prop where
  front : r.Describes m
  behind : r.Describes (Machine.ofResult ending)
  knows : ∀ v n, ending = .ok v n → r.Knows n v
  /-- The nearest frame of `self` is the one that is seen from the surroundings. -/
  nearest : m.forest.locate? "self" m.current = r.selfFrameOf home
  self_eq : ∀ id line, e = .selfRef id line → ending = r.self home line m

/-- What is said of a statement in some surroundings. -/
structure OfStatement (r : Register) (home : FrameId) (s : Stmt) (m : Machine)
    (ending : Run.Ending Flow) : Prop where
  front : r.Describes m
  behind : r.Describes (Machine.ofResult ending)
  /-- The nearest frame of `self` is the one that is seen from the surroundings. -/
  nearest : m.forest.locate? "self" m.current = r.selfFrameOf home
  /-- The frame that a function keeps that is declared here sees the same frame of `self`. -/
  nested : ∀ routine, s = .function routine → ∃ c n, ending = .ok .next n ∧
    n.forest.slot? m.current routine.name.name = some (.closure c) ∧ c.routine = routine ∧
    r.selfFrameOf c.environment = r.selfFrameOf home

/--
What a call answers: an initializer the instance that its frame holds, and a class the instance with
the next identity.
-/
def Answers (r : Register) (m : Machine) (v : Value) : (callee : Value) → Prop
  | .closure c => c.isInitializer = true → ∃ o, r.instanceOf c.environment = some o ∧ v = .object o
  | .cls c => v = .object ⟨m.nextIdentity, c⟩
  | _ => True

/-- A method is bound to an instance, which is `self` in its code for good. -/
structure BindsMethod (r : Register) (method : Closure) (o : Object) (m : Machine) (c : Closure)
    (n : Machine) : Prop where
  bound : c.BoundTo method o m n
  instanceOf_eq : r.instanceOf c.environment = some o
  receiverOf_eq : r.receiverOf c.environment = some o

/-- What is said of a read: a field is as it is there, and a method is bound to the instance. -/
structure OfRead (r : Register) (o : Object) (name : Ident) (m : Machine)
    (ending : Run.Ending Value) : Prop where
  read : (m.property o name.name).Read o name m ending
  receiver : ∀ method, m.property o name.name = .method method →
    ∃ c n, ending = .ok (.closure c) n ∧ r.BindsMethod method o m c n

/--
Throughout a run, frames, instances, classes, `self`, calls, methods and nested functions are as a
register says.
-/
def inspection (r : Register) : Inspection where
  expression := r.OfExpression
  statement := r.OfStatement
  call callee m ending := r.Describes m ∧ ∀ v n, ending = .ok v n → r.Answers m v callee
  binding o m ending := ∃ initializer c n, o.cls.initializer? = some initializer ∧
    ending = .ok c n ∧ r.BindsMethod initializer o m c n
  read := r.OfRead
  write _ _ _ := True

end Register

/-- What it takes to inspect a run: what is asked of it, and how it breaks off. -/
structure Inspector where
  register : Register
  alarm : Halt
  /-- The fields that are not to be written to. -/
  guarded : Identity → String → Prop
  inspection : Inspection
  asks : inspection.NoMoreThan register.inspection
  write_iff : ∀ {o name v}, inspection.write o name v ↔ ¬ guarded o.identity name

namespace Inspector

variable {α : Type} {p : Inspector} {m m₁ m₂ : Machine} {inspected plain : Run.Ending α}

/-- One who asks for all that a register says, and guards no field. -/
def ofRegister (r : Register) (alarm : Halt) : Inspector where
  register := r
  alarm := alarm
  guarded _ _ := False
  inspection := r.inspection
  asks := .refl _
  write_iff := ⟨fun _ => id, fun _ => trivial⟩

/-- One who guards a single field. -/
def guarding (r : Register) (alarm : Halt) (identity : Identity) (name : String) : Inspector where
  register := r
  alarm := alarm
  guarded other key := other = identity ∧ key = name
  inspection := .sparing identity name
  asks := Inspection.sparing_noMoreThan _ _ _
  write_iff := Iff.rfl

/-- Guarded fields have been left as they were. -/
def Spares (p : Inspector) (m m' : Machine) : Prop :=
  ∀ identity name, p.guarded identity name →
    (m'.heap.fieldsOf identity)[name]? = (m.heap.fieldsOf identity)[name]?

/-- A guarded field is there. -/
def Finds (p : Inspector) (m : Machine) : Prop :=
  ∃ identity name, p.guarded identity name ∧ ((m.heap.fieldsOf identity)[name]?).isSome

/-- Either both runs are the same and guarded fields as they were, or one of them is there now. -/
def Tells (p : Inspector) (m : Machine) (inspected plain : Run.Ending α) : Prop :=
  inspected = plain ∧ p.Spares m (Machine.ofResult plain) ∨
    (∃ n, inspected = .error p.alarm n) ∧ p.Finds (Machine.ofResult plain)

theorem spares_of_fields (fields_eq : m₁.fields = m.fields) : p.Spares m m₁ := by
  intro identity name _
  rw [Heap.fieldsOf, Heap.fieldsOf, Machine.heap, Machine.heap, fields_eq]

theorem Spares.trans (former : p.Spares m m₁) (latter : p.Spares m₁ m₂) : p.Spares m m₂ :=
  fun identity name guarded =>
    (latter identity name guarded).trans (former identity name guarded)

theorem Finds.spared (finds : p.Finds m) (spares : p.Spares m m₁) : p.Finds m₁ := by
  obtain ⟨identity, name, guarded, there⟩ := finds
  refine ⟨identity, name, guarded, ?_⟩
  rw [spares identity name guarded]
  exact there

theorem Tells.same (equal : inspected = plain) (spares : p.Spares m (Machine.ofResult plain)) :
    p.Tells m inspected plain :=
  .inl ⟨equal, spares⟩

/-- Behind parts that spare guarded fields, the same is told. -/
theorem Tells.behind (spares : p.Spares m m₁) (tells : p.Tells m₁ inspected plain) :
    p.Tells m inspected plain :=
  tells.imp_left fun same => ⟨same.1, spares.trans same.2⟩

theorem Tells.congr {inspected' : Run.Ending α} (tells : p.Tells m inspected plain)
    (same : inspected' = inspected) : p.Tells m inspected' plain :=
  same ▸ tells

/-- A guarded field that is there stays there. -/
theorem Tells.finds (tells : p.Tells m inspected plain) (finds : p.Finds m) :
    p.Finds (Machine.ofResult plain) :=
  tells.elim (fun same => finds.spared same.2) fun raised => raised.2

theorem Tells.eq_of_ofRegister {r : Register} {alarm : Halt}
    (tells : (ofRegister r alarm).Tells m inspected plain) : inspected = plain :=
  tells.elim And.left fun ⟨_, _, _, impossible, _⟩ => impossible.elim

end Inspector

namespace Roster

/--
A run keeps a roster, perhaps with more instances and classes, and what every inspector tells whose
register is right in the end is true of it.
-/
def Follows {α : Type} (R : Roster) (m : Machine) (post : Roster → Forest → α → Prop)
    (inspected : Inspector → Run.Ending α) (plain : Run.Ending α) : Prop :=
  ∃ R' : Roster, R.Leads m R' (Machine.ofResult plain) ∧ R'.Meets (Machine.ofResult plain) ∧
    (∀ a n, plain = .ok a n → post R' n.forest a) ∧
    ∀ p : Inspector, p.register.Agrees R' (Machine.ofResult plain) → p.Tells m (inspected p) plain

namespace Follows

variable {α β : Type} {R R' : Roster} {m m' : Machine} {frame : FrameId}
  {post between : Roster → Forest → α → Prop} {x : Run α} {x' : Inspector → Run α}

/-- What is done without any code and without a write to a field is the same under inspection. -/
theorem step {a : α} (leads : R.Leads m R' m') (meets : R'.Meets m')
    (spares : ∀ p : Inspector, p.Spares m m') (ended : post R' m'.forest a) :
    R.Follows m post (fun _ => .ok a m') (.ok a m') := by
  refine ⟨R', leads, meets, ?_, fun p _ => .same rfl (spares p)⟩
  intro b n same
  cases same
  exact ended

/-- What makes no instance and no class keeps the roster as it is. -/
theorem change {a : α} (stays : m.forest.Stays m'.forest) (fields_eq : m'.fields = m.fields)
    (nextIdentity_le : m.nextIdentity ≤ m'.nextIdentity) (current_eq : m'.current = m.current)
    (meets : R.Meets m') (ended : post R m'.forest a) :
    R.Follows m post (fun _ => .ok a m') (.ok a m') :=
  step ⟨stays, rfl, id, id, nextIdentity_le, current_eq⟩ meets
    (fun _ => Inspector.spares_of_fields fields_eq) ended

theorem ok {a : α} (meets : R.Meets m) (ended : post R m.forest a) :
    R.Follows m post (fun _ => .ok a m) (.ok a m) :=
  change (.refl _) rfl (Nat.le_refl _) rfl meets ended

theorem halt {reason : Halt} (meets : R.Meets m) :
    R.Follows m post (fun _ => .error reason m) (.error reason m) :=
  ⟨R, .refl R m, meets, fun _ _ impossible => (nomatch impossible), fun _ _ =>
    .same rfl (Inspector.spares_of_fields rfl)⟩

theorem behind {inspected : Inspector → Run.Ending α} {plain : Run.Ending α}
    (leads : R.Leads m R' m') (fields_eq : m'.fields = m.fields)
    (follows : R'.Follows m' post inspected plain) : R.Follows m post inspected plain := by
  obtain ⟨R'', leads', meets, ended, tells⟩ := follows
  exact ⟨R'', leads.trans leads', meets, ended, fun p agrees =>
    (tells p agrees).behind (Inspector.spares_of_fields fields_eq)⟩

theorem mono {inspected : Inspector → Run.Ending α} {plain : Run.Ending α}
    (follows : R.Follows m between inspected plain)
    (implies : ∀ {R forest a}, between R forest a → post R forest a) :
    R.Follows m post inspected plain := by
  obtain ⟨R', leads, meets, ended, tells⟩ := follows
  exact ⟨R', leads, meets, fun a n ran => implies (ended a n ran), tells⟩

/-- A register that is right in the end is right when the first part is over. -/
theorem bind {post : Roster → Forest → β → Prop} {f : α → Run β} {f' : Inspector → α → Run β}
    (first : R.Follows m between (fun p => x' p m) (x m))
    (next : ∀ {R' n a}, R.Leads m R' n → R'.Meets n → between R' n.forest a →
      R'.Follows n post (fun p => f' p a n) (f a n)) :
    R.Follows m post (fun p => (x' p >>= f' p) m) ((x >>= f) m) := by
  obtain ⟨R', leads, meets, ended, tells⟩ := first
  cases ran : x m with
  | ok a n =>
      rw [ran] at leads meets ended tells
      obtain ⟨R'', leads', meets', ended', tells'⟩ := next leads meets (ended a n rfl)
      rw [Run.bind_of_ok ran]
      refine ⟨R'', leads.trans leads', meets', ended', fun p agrees => ?_⟩
      rcases tells p (agrees.earlier leads' meets) with ⟨same, spares⟩ | ⟨⟨_, raised⟩, finds⟩
      · exact ((tells' p agrees).behind spares).congr (Run.bind_of_ok same)
      · exact .inr ⟨⟨_, Run.bind_of_error raised⟩, (tells' p agrees).finds finds⟩
  | error reason n =>
      rw [ran] at leads meets tells
      rw [Run.bind_of_error ran]
      refine ⟨R', leads, meets, fun _ _ impossible => (nomatch impossible), fun p agrees => ?_⟩
      rcases tells p agrees with ⟨same, spares⟩ | ⟨⟨_, raised⟩, finds⟩
      · exact .same (Run.bind_of_error same) spares
      · exact .inr ⟨⟨_, Run.bind_of_error raised⟩, finds⟩

/-- What passes an inspection by a register that is right in the end raises no alarm. -/
theorem inspect {passes : Inspector → Machine → Run.Ending α → Prop}
    (follows : R.Follows m post (fun p => x' p m) (x m))
    (passed : ∀ {R'}, R.Leads m R' (Machine.ofResult (x m)) →
      R'.Meets (Machine.ofResult (x m)) → (∀ a n, x m = .ok a n → post R' n.forest a) →
      ∀ {p : Inspector}, p.register.Agrees R' (Machine.ofResult (x m)) → passes p m (x m)) :
    R.Follows m post (fun p => Run.inspect (passes p) p.alarm (x' p) m) (x m) := by
  obtain ⟨R', leads, meets, ended, tells⟩ := follows
  refine ⟨R', leads, meets, ended, fun p agrees => ?_⟩
  rcases tells p agrees with ⟨same, spares⟩ | ⟨⟨n, raised⟩, finds⟩
  · have equal : x' p m = x m := same
    refine .same ((Run.inspect_of_passes ?_ p.alarm).trans equal) spares
    rw [equal]
    exact passed leads meets ended agrees
  · exact .inr ⟨⟨n, Run.inspect_of_raised raised _⟩, finds⟩

/-- Either the run goes on from the same machine, or it is stopped there. -/
theorem stop {stops : Run.Stops} (meets : R.Meets m)
    (next : R.Follows m post (fun p => x' p m) (x m)) :
    R.Follows m post (fun p => (Run.stop stops >>= fun _ => x' p) m)
      ((Run.stop stops >>= fun _ => x) m) := by
  cases stopped : stops m with
  | some reason =>
      simp only [Run.stop_bind_of_some stopped]
      exact .halt meets
  | none =>
      simp only [Run.stop_bind_of_none stopped]
      exact next

theorem stopping {stops : Run.Stops} (meets : R.Meets m)
    (follows : R.Follows m post (fun p => x' p m) (x m)) :
    R.Follows m post (fun p => Run.stopping stops (x' p) m) (Run.stopping stops x m) := by
  refine stop meets (bind follows ?_)
  intro R' n a _ meets' ended
  exact stop meets' (.ok meets' ended)

/-- What runs while another frame is current. -/
theorem inFrame (runs : R.Follows { m with current := frame } post
      (fun p => x' p { m with current := frame }) (x { m with current := frame })) :
    R.Follows m post (fun p => Run.inFrame frame (x' p) m) (Run.inFrame frame x m) := by
  obtain ⟨R', leads, meets, ended, tells⟩ := runs
  refine ⟨R', ?_, ?_, ?_, fun p agrees => ?_⟩
  · rw [Run.ofResult_inFrame]
    exact { leads with current_eq := rfl }
  · rw [Run.ofResult_inFrame]
    exact ⟨meets.holds, meets.bindings_eq⟩
  · intro a n left
    obtain ⟨n', ran, rfl⟩ := Run.exists_of_inFrame_eq_ok left
    exact ended a n' ran
  · rw [Run.ofResult_inFrame] at agrees
    have told := tells p
      ⟨agrees.instanceOf_eq, agrees.selfFrameOf_eq, agrees.classOf_eq, agrees.declarationOf_eq⟩
    rw [Inspector.Tells, Run.ofResult_inFrame]
    refine told.imp ?_ ?_
    · rintro ⟨same, spares⟩
      exact ⟨Run.inFrame_congr same, spares⟩
    · rintro ⟨⟨_, raised⟩, finds⟩
      exact ⟨⟨_, Run.inFrame_of_error raised⟩, finds⟩

end Follows

/-! ## What is evaluated and executed -/

/-- A statement hands on a value that may be there, or none. -/
def AdmitsFlow (R : Roster) (forest : Forest) : Flow → Prop
  | .next => True
  | .exit v => R.Admits forest v

end Roster

/-- Under inspection, bound expressions are evaluated just the same in all surroundings. -/
def EvaluatesInspected (evaluate' : Inspector → FrameId → Expr → Run Value)
    (evaluate : Expr → Run Value) : Prop :=
  ∀ {R : Roster} {m : Machine} {home : FrameId} {scopes : Scopes} {e : Expr},
    R.Stands m home scopes → e.Bound R.ledger scopes → Selfless e.atoms →
    R.Follows m Roster.Admits (fun p => evaluate' p home e m) (evaluate e m)

/-- Under inspection, bound statements are executed just the same in all surroundings. -/
def ExecutesInspected (execute' : Inspector → FrameId → Stmt → Run Flow)
    (execute : Stmt → Run Flow) : Prop :=
  ∀ {R : Roster} {m : Machine} {home : FrameId} {scopes : Scopes} {inRoutine : Bool} {s : Stmt},
    R.Stands m home scopes → s.Bound R.ledger inRoutine scopes → Selfless s.atoms →
    R.Follows m Roster.AdmitsFlow (fun p => execute' p home s m) (execute s m)

namespace Run

open Roster

variable {α : Type} {R : Roster} {m : Machine} {home : FrameId} {scopes : Scopes} {frame : FrameId}
  {r : Register} {name : String} {v : Value} {o : Object}

/-! ## Frames and variables -/

theorem newIdentity_follows (meets : R.Meets m) :
    R.Follows m (fun _ _ _ => True) (fun _ => newIdentity m) (newIdentity m) :=
  .change (.refl _) rfl (Nat.le_succ _) rfl
    ⟨meets.holds.skip (Nat.le_succ _), meets.bindings_eq⟩ trivial

theorem newFrame_follows (meets : R.Meets m) (seated : m.forest.Seated scopes frame) :
    R.Follows m (fun _ forest new => forest.Seated ([] :: scopes) new ∧
        forest.enclosing? new = some frame)
      (fun _ => newFrame frame m) (newFrame frame m) :=
  .change (.add _ _) rfl (Nat.le_refl _) rfl
    ⟨meets.holds.addFrame (seated.lt_size meets.holds.tidy), meets.bindings_eq⟩
    ⟨seated.enter, (Forest.enclosing?_add ..).trans (if_pos rfl)⟩

/-- Under another name than `self`, frames where statements may stand can be written to. -/
theorem defineIn_follows (meets : R.Meets m) (present : frame < m.forest.frames.size)
    (vacant : m.forest.slot? frame "self" = none) (other : name ≠ "self")
    (admits : R.Admits m.forest v) :
    R.Follows m (fun _ _ _ => True) (fun _ => defineIn frame name v m)
      (defineIn frame name v m) :=
  .change (.define_of_ne other frame v) rfl (Nat.le_refl _) rfl
    ⟨meets.holds.define present vacant other admits, meets.bindings_eq⟩ trivial

theorem define_follows (stands : R.Stands m home scopes) (other : name ≠ "self")
    (admits : R.Admits m.forest v) :
    R.Follows m (fun _ _ _ => True) (fun _ => define name v m) (define name v m) :=
  defineIn_follows stands.toMeets stands.lt_size stands.vacant other admits

theorem inNewFrame_follows {post : Roster → Forest → α → Prop} {body : Run α}
    {body' : Inspector → Run α}
    (stands : R.Stands m home scopes)
    (runs : ∀ {R' : Roster} {n : Machine}, R.ledger.Extends R'.ledger →
      R'.Stands n home ([] :: scopes) → R'.Follows n post (fun p => body' p n) (body n)) :
    R.Follows m post (fun p => inNewFrame (body' p) m) (inNewFrame body m) := by
  change R.Follows m post
    (fun p => (newFrame m.current >>= fun frame => inFrame frame (body' p)) m)
    ((newFrame m.current >>= fun frame => inFrame frame body) m)
  refine Follows.bind (newFrame_follows stands.toMeets stands.seated) ?_
  rintro R' n frame leads meets ⟨seated, encloses⟩
  have stands' := stands.lead leads meets
  have current_eq : n.current = m.current := leads.current_eq
  have inside : R'.Meets { n with current := frame } := ⟨meets.holds, meets.bindings_eq⟩
  exact .inFrame (runs leads.ledger (inside.stands_inside seated rfl encloses stands'.home_lt
    (current_eq ▸ stands'.locate?_eq)))

theorem lookUp_follows (stands : R.Stands m home scopes) (id : Occurrence) (name : String)
    (line : Nat) : R.Follows m Admits (fun _ => lookUp id name line m) (lookUp id name line m) := by
  cases bound : m.bindings[id]? with
  | some d =>
      rw [lookUp, get_bind, bound]
      dsimp only
      cases got : m.forest.getAt m.current d name with
      | error breach => exact .halt stands.toMeets
      | ok v =>
          obtain ⟨owner, -, found⟩ := Forest.exists_of_getAt got
          exact .ok stands.toMeets (stands.holds.slots found)
  | none =>
      cases found : m.forest.slot? Machine.globals name with
      | some v =>
          rw [lookUp_of_global bound found]
          exact .ok stands.toMeets (stands.holds.slots found)
      | none =>
          rw [lookUp_of_undefined bound found]
          exact .halt stands.toMeets

/-- What is assigned to is no frame of `self`. -/
theorem assign_follows (stands : R.Stands m home scopes) {id : Occurrence} (other : name ≠ "self")
    (binds : R.ledger.Binds scopes id name) (admits : R.Admits m.forest v) (line : Nat) :
    R.Follows m (fun _ _ _ => True) (fun _ => assign id name v line m)
      (assign id name v line m) := by
  have meets := stands.toMeets
  have tells : m.bindings[id]? = scopes.depth? name := by
    rw [meets.bindings_eq]
    exact binds.getElem?_eq
  cases declared : scopes.depth? name with
  | some d =>
      obtain ⟨owner, reached, present, vacant⟩ := stands.seated.exists_owner other declared
      rw [assign_of_bound (tells.trans declared) reached]
      exact defineIn_follows meets present vacant other admits
  | none =>
      cases found : m.forest.slot? Machine.globals name with
      | some old =>
          rw [assign_of_global (tells.trans declared) found]
          exact defineIn_follows meets meets.holds.tidy.present meets.holds.tidy.vacant other admits
      | none =>
          rw [assign_of_undefined (tells.trans declared) found]
          exact .halt meets

/-- What is found under `self` is what the surroundings see. -/
theorem lookUp_self (stands : R.Stands m home scopes) {id : Occurrence}
    (binds : R.ledger.Binds scopes id "self") (agrees : r.Agrees R m) (line : Nat) :
    lookUp id "self" line m = r.self home line m := by
  have tidy : m.forest.Tidy := stands.holds.tidy
  have tells : m.bindings[id]? = scopes.depth? "self" := by
    rw [stands.bindings_eq]
    exact binds.getElem?_eq
  have located := stands.seated.locate?_self tidy
  rw [Register.self, Register.receiverOf, agrees.selfFrameOf_eq home stands.home_lt,
    ← stands.locate?_eq]
  cases declared : scopes.depth? "self" with
  | none =>
      rw [declared] at located
      rw [located, lookUp_of_undefined (tells.trans declared) tidy.vacant]
      rfl
  | some d =>
      rw [declared] at located
      obtain ⟨owner, o, reached, found, located⟩ := located
      have present : owner < m.forest.frames.size := by
        apply Nat.lt_of_not_le
        intro absent
        rw [Forest.slot?_eq_none _ _ _ absent] at found
        cases found
      obtain ⟨_, same, is⟩ := tidy.instance?_eq_some found
      cases same
      rw [lookUp_of_bound (tells.trans declared) reached found, located, Option.bind_some,
        agrees.instanceOf_eq owner present, is]

/-! ## Output -/

theorem write_follows (meets : R.Meets m) (text : String) :
    R.Follows m (fun _ _ _ => True) (fun _ => write text m) (write text m) := by
  rw [write, get_bind]
  obtain ⟨sink, fault⟩ := m.sink.write text
  have leads : R.Leads m R { m with sink := sink } :=
    ⟨.refl _, rfl, id, id, Nat.le_refl _, rfl⟩
  have meets' : R.Meets { m with sink := sink } := ⟨meets.holds, meets.bindings_eq⟩
  cases fault with
  | none => exact .step leads meets' (fun _ => Inspector.spares_of_fields rfl) trivial
  | some fault => exact .behind leads rfl (.halt meets')

theorem print_follows (meets : R.Meets m) (v : Value) :
    R.Follows m (fun _ _ _ => True) (fun _ => print v m) (print v m) := by
  refine Follows.bind (write_follows meets v.text) ?_
  intro R' n _ _ meets' _
  exact write_follows meets' "\n"

/-! ## Instances -/

/-- The fields of an instance that is yet to be made are none, and so are those of a new one. -/
theorem newObject_spares (meets : R.Meets m) (c : Class) (p : Inspector) :
    p.Spares m (Machine.ofResult (newObject c m)) := by
  intro identity name _
  refine (congrArg (fun fields : Table Value => fields[name]?)
    (Heap.fieldsOf_setFields m.heap.skipIdentity m.nextIdentity identity ∅)).trans ?_
  by_cases new : identity = m.nextIdentity
  · rw [if_pos new, new, Std.TreeMap.getElem?_emptyc]
    exact (meets.holds.blank (Nat.le_refl _) name).symm
  · rw [if_neg new]
    rfl

/-- A new instance is not one of those that there were. -/
theorem newObject_follows (meets : R.Meets m) {c : Class} (admits : R.AdmitsClass m.forest c) :
    R.Follows m (fun R' forest o => o = ⟨m.nextIdentity, c⟩ ∧ R'.Admits forest (.object o))
      (fun _ => newObject c m) (newObject c m) :=
  have known : R.Extends (R.enroll m.nextIdentity c) := meets.holds.extends_enroll c
  have enrolled : (R.enroll m.nextIdentity c).Meets
      (Machine.ofResult (newObject c m)) := ⟨meets.holds.newObject c, meets.bindings_eq⟩
  have leads : R.Leads m (R.enroll m.nextIdentity c) (Machine.ofResult (newObject c m)) :=
    ⟨.refl _, rfl, known.classOf_eq, id, Nat.le_succ _, rfl⟩
  .step leads enrolled (newObject_spares meets c)
    ⟨rfl, R.enroll_self _ _, admits.mono (.refl _) known⟩

/-- A method that is bound to an instance is in a frame that holds the instance. -/
theorem bind_follows (meets : R.Meets m) {method : Closure}
    (declared : R.AdmitsMethod m.forest method) (admits : R.Admits m.forest (.object o)) :
    R.Follows m (fun R' forest c => R'.AdmitsClosure forest c)
      (fun _ => bind method o m) (bind method o m) := by
  obtain ⟨scopes, seated, bound, selfless⟩ := declared
  have present := seated.lt_size meets.holds.tidy
  exact .change (.bind m.forest method.environment o) rfl (Nat.le_succ _) rfl
    ⟨(meets.holds.bind present admits).skip (Nat.le_succ _), meets.bindings_eq⟩
    ⟨selfScope :: scopes, seated.bind o, bound, selfless, fun _ => ⟨scopes, rfl⟩⟩

/-- The frame that is made by binding a method holds the instance for good. -/
theorem bindsMethod_of_boundTo {method c : Closure} {n : Machine} (made : c.BoundTo method o m n)
    (meets : R.Meets n) (agrees : r.Agrees R n) : r.BindsMethod method o m c n := by
  have present := Forest.lt_size_of_enclosing? made.enclosing?_eq
  have holds : n.forest.slot? c.environment "self" = some (.object o) :=
    (made.slot?_eq "self").trans (if_pos rfl)
  have is : r.instanceOf c.environment = some o := by
    rw [agrees.instanceOf_eq _ present, Forest.instance?, holds]
  exact ⟨made, is, Register.receiverOf_of_instance (agrees.describes meets.holds) present is⟩

theorem bindInspected_follows (meets : R.Meets m) {initializer : Closure}
    (has : o.cls.initializer? = some initializer) (admits : R.Admits m.forest (.object o)) :
    R.Follows m (fun R' forest c => R'.AdmitsClosure forest c)
      (fun p => inspect (p.inspection.binding o) p.alarm (bind initializer o) m)
      (bind initializer o m) := by
  refine .inspect (bind_follows meets (admits.2.methods has) admits) ?_
  intro R' _ meets' _ p agrees
  obtain ⟨c, n, ran, made⟩ := exists_bind initializer o m
  rw [ran] at meets' agrees
  exact p.asks.binding ⟨initializer, c, n, has, ran, bindsMethod_of_boundTo made meets' agrees⟩

theorem getProperty_follows (meets : R.Meets m) (admits : R.Admits m.forest (.object o))
    (name : Ident) : R.Follows m Admits (fun _ => getProperty o name m) (getProperty o name m) := by
  rw [getProperty, get_bind]
  cases found : (m.fieldsOf o)[name.name]? with
  | some v => exact .ok meets (meets.holds.fields found)
  | none =>
      dsimp only
      cases declared : o.cls.methods[name.name]? with
      | none => exact .halt meets
      | some method =>
          refine Follows.bind (bind_follows meets (admits.2.methods declared) admits) ?_
          intro R' n c _ meets' closure
          exact .ok meets' closure

/-- A method that is read is bound to the instance that it is read on. -/
theorem getInspected_follows (meets : R.Meets m) (admits : R.Admits m.forest (.object o))
    (name : Ident) :
    R.Follows m Admits (fun p => inspect (p.inspection.read o name) p.alarm (getProperty o name) m)
      (getProperty o name m) := by
  refine .inspect (getProperty_follows meets admits name) ?_
  intro R' _ meets' _ p agrees
  have read := getProperty_read o name m
  refine p.asks.read ⟨read, fun method found => ?_⟩
  rw [found] at read
  obtain ⟨c, n, ran, made⟩ := read
  rw [ran] at meets' agrees
  exact ⟨c, n, ran, bindsMethod_of_boundTo made meets' agrees⟩

/-- A write to a field spares all others, and one to a guarded field raises the alarm. -/
theorem setInspected_follows (meets : R.Meets m) (held : R.Admits m.forest (.object o))
    (admits : R.Admits m.forest v) (name : String) :
    R.Follows m (fun _ _ _ => True)
      (fun p => setInspected p.inspection p.alarm o name v m) (setProperty o name v m) := by
  have written : (m.heap.setFields o.identity ((m.heap.fieldsOf o.identity).insert name v)) =
      (Machine.ofResult (setProperty o name v m)).heap := rfl
  refine ⟨R, ⟨.refl _, rfl, id, id, Nat.le_refl _, rfl⟩,
    ⟨meets.holds.setField admits (meets.holds.given held.1) name, meets.bindings_eq⟩,
    fun _ _ _ => trivial, fun p _ => ?_⟩
  by_cases guarded : p.guarded o.identity name
  · have raises : setInspected p.inspection p.alarm o name v = throw p.alarm :=
      setInspected_of_not _ _ fun allowed => p.write_iff.mp allowed guarded
    refine .inr ⟨⟨m, congrFun raises m⟩, o.identity, name, guarded, ?_⟩
    rw [← written, Heap.fieldsOf_setFields, if_pos rfl, getElem?_insert_eq, if_pos rfl]
    rfl
  · have writes : setInspected p.inspection p.alarm o name v = setProperty o name v :=
      setInspected_of_write _ _ (p.write_iff.mpr guarded)
    refine .same (congrFun writes m) fun identity key other => ?_
    rw [← written, Heap.fieldsOf_setFields]
    split
    · next same =>
        subst same
        rw [getElem?_insert_eq, if_neg]
        rintro rfl
        exact guarded other
    · rfl

end Run

end Rill
