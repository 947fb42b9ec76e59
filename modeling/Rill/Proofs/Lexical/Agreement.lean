import Rill.Proofs.Lexical.World

/-!
# Machines and stores that agree

A machine agrees with a store, in a world, if their variables have alike values. Functions are alike
if they run the same code, bound among scopes that the names in force at their declaration fit.
Every change of the machine has a counterpart in the store, and the two leave agreeing states.
-/

namespace Rill.Lexical

namespace World

/-- A function and its counterpart run the same code where the same scopes are open. -/
structure Twins (w : World) (scopes : Scopes) (c : Closure) (c' : Closure Env) : Prop where
  identity_eq : c.identity = c'.identity
  routine_eq : c.routine = c'.routine
  isInitializer_eq : c.isInitializer = c'.isInitializer
  fits : w.Fits scopes c.environment c'.environment
  settled : scopes.Settled

theorem Twins.resembles {w : World} {scopes : Scopes} {c : Closure} {c' : Closure Env}
    (twins : w.Twins scopes c c') : c.Resembles c' where
  identity_eq := twins.identity_eq
  name_eq := by rw [Closure.name, Closure.name, twins.routine_eq]
  arity_eq := by rw [Closure.arity, Closure.arity, twins.routine_eq]
  isInitializer_eq := twins.isInitializer_eq

/--
The likeness of functions in a world. The scope of `self` is around a function that initializes
instances; around a method it is still to be opened.
-/
def likeness (w : World) : Likeness FrameId Env where
  closures c c' := ∃ scopes, w.Twins scopes c c' ∧ c.routine.Bound w.ledger scopes ∧
    (c.isInitializer = true → ∃ outer, scopes = [("self", .defined)] :: outer)
  methods c c' := ∃ scopes, w.Twins scopes c c' ∧
    c.routine.Bound w.ledger ([("self", .defined)] :: scopes)
  closures_resemble := by
    rintro c c' ⟨_, twins, _⟩
    exact twins.resembles
  methods_resemble := by
    rintro c c' ⟨_, twins, _⟩
    exact twins.resembles

/-- Two values are alike in a world. -/
abbrev Alike (w : World) : Value → Value Env → Prop := Value.Alike w.likeness

variable {w w' : World} {opened : Option FrameId} {scopes : Scopes}

theorem Twins.mono {c : Closure} {c' : Closure Env} (leads : w.LeadsTo opened w')
    (twins : w.Twins scopes c c') : w'.Twins scopes c c' where
  identity_eq := twins.identity_eq
  routine_eq := twins.routine_eq
  isInitializer_eq := twins.isInitializer_eq
  fits := twins.fits.mono leads
  settled := twins.settled

theorem LeadsTo.implies (leads : w.LeadsTo opened w') : w.likeness.Implies w'.likeness where
  closures := by
    rintro c c' ⟨scopes, twins, bound, initializes⟩
    exact ⟨scopes, twins.mono leads, bound.extend leads.ledger, initializes⟩
  methods := by
    rintro c c' ⟨scopes, twins, bound⟩
    exact ⟨scopes, twins.mono leads, bound.extend leads.ledger⟩

/-! ## Agreement -/

/-- The frames of a forest and the cells of a store hold alike values where a world places them. -/
structure Shares (w : World) (forest : Forest) (cells : Std.TreeMap Location (Value Env))
    (next : Location) : Prop where
  size_eq : forest.frames.size = w.size
  enclosing?_eq : ∀ frame, forest.enclosing? frame = w.parent frame
  placed : ∀ {frame name location}, w.place frame name = some location →
    frame ≠ Machine.globals ∧ frame < w.size ∧ location < next
  injective : ∀ {frame name other key location}, w.place frame name = some location →
    w.place other key = some location → other = frame ∧ key = name
  slots : ∀ {frame name location}, w.place frame name = some location →
    Option.Rel w.Alike (forest.slot? frame name) cells[location]?
  vacant : ∀ {frame name}, frame ≠ Machine.globals → w.place frame name = none →
    forest.slot? frame name = none
  filled : ∀ {frame name}, w.Filled frame name → (forest.slot? frame name).isSome
  unused : ∀ location, next ≤ location → cells[location]? = none

/-- A machine and a store agree. -/
structure Agree (w : World) (m : Machine) (s : Store) : Prop where
  bindings_eq : m.bindings = w.ledger.bindings
  present : 0 < w.size
  outermost : w.parent Machine.globals = none
  shares : w.Shares m.forest s.cells s.nextLocation
  globals : ∀ name : String,
    Option.Rel w.Alike (m.forest.slot? Machine.globals name) s.globals[name]?
  fields : ∀ identity : Identity,
    Option.Rel (TablesAlike w.likeness) m.fields[identity]? s.fields[identity]?
  nextIdentity_eq : m.nextIdentity = s.nextIdentity
  sink_eq : m.sink = s.sink
  hostCalls_eq : m.hostCalls = s.hostCalls

/-- A variable is the one that a frame has under a name. -/
inductive Denotes (w : World) (frame : FrameId) (name : String) : Variable → Prop
  | global : frame = Machine.globals → Denotes w frame name (.global name)
  | cell {location : Location} : w.place frame name = some location →
      Denotes w frame name (.cell location)

theorem Denotes.mono {frame : FrameId} {name : String} {v : Variable}
    (leads : w.LeadsTo opened w') (denotes : w.Denotes frame name v) :
    w'.Denotes frame name v := by
  cases denotes with
  | global outermost => exact .global outermost
  | cell placed => exact .cell (leads.place_eq_some placed)

namespace Shares

variable {forest : Forest} {cells : Std.TreeMap Location (Value Env)} {next : Location}
  {frame : FrameId} {name : String}

theorem addFrame (shares : w.Shares forest cells next) (enclosing : FrameId) :
    (w.addFrame enclosing).Shares (forest.add (some enclosing)) cells next where
  size_eq := by
    rw [Forest.size_add, shares.size_eq]
    rfl
  enclosing?_eq frame := by
    rw [Forest.enclosing?_add, shares.size_eq, shares.enclosing?_eq]
    rfl
  placed found :=
    have old := shares.placed found
    ⟨old.1, Nat.lt_succ_of_lt old.2.1, old.2.2⟩
  injective := shares.injective
  slots found := by
    rw [Forest.slot?_add]
    exact optionRel_mono (shares.slots found) fun alike =>
      alike.imp (w.leadsTo_addFrame enclosing).implies
  vacant inner none := by
    rw [Forest.slot?_add]
    exact shares.vacant inner none
  filled had := by
    rw [Forest.slot?_add]
    exact shares.filled had
  unused := shares.unused

/-- A new location is for a variable that has no value yet. -/
theorem put (shares : w.Shares forest cells next) (inner : frame ≠ Machine.globals)
    (present : frame < w.size) (vacant : w.place frame name = none) :
    (w.put frame name next).Shares forest cells (next + 1) where
  size_eq := shares.size_eq
  enclosing?_eq := shares.enclosing?_eq
  placed := by
    intro other key location found
    by_cases here : other = frame ∧ key = name
    · obtain ⟨rfl, rfl⟩ := here
      rw [place_put] at found
      cases found
      exact ⟨inner, present, Nat.lt_succ_self _⟩
    · rw [place_put_of_ne here] at found
      have old := shares.placed found
      exact ⟨old.1, old.2.1, Nat.lt_succ_of_lt old.2.2⟩
  injective := by
    intro first key second key' location found found'
    by_cases here : first = frame ∧ key = name
    · obtain ⟨rfl, rfl⟩ := here
      rw [place_put] at found
      cases found
      by_cases here' : second = first ∧ key' = key
      · exact here'
      · rw [place_put_of_ne here'] at found'
        exact absurd (shares.placed found').2.2 (Nat.lt_irrefl _)
    · rw [place_put_of_ne here] at found
      by_cases here' : second = frame ∧ key' = name
      · obtain ⟨rfl, rfl⟩ := here'
        rw [place_put] at found'
        cases found'
        exact absurd (shares.placed found).2.2 (Nat.lt_irrefl _)
      · rw [place_put_of_ne here'] at found'
        exact shares.injective found found'
  slots := by
    intro other key location found
    by_cases here : other = frame ∧ key = name
    · obtain ⟨rfl, rfl⟩ := here
      rw [place_put] at found
      cases found
      rw [shares.vacant inner vacant, shares.unused next (Nat.le_refl _)]
      exact .none
    · rw [place_put_of_ne here] at found
      exact optionRel_mono (shares.slots found) fun alike =>
        alike.imp (leadsTo_put next vacant).implies
  vacant := by
    intro other key other_inner none
    by_cases here : other = frame ∧ key = name
    · obtain ⟨rfl, rfl⟩ := here
      exact shares.vacant inner vacant
    · rw [place_put_of_ne here] at none
      exact shares.vacant other_inner none
  filled := shares.filled
  unused location past := shares.unused location (Nat.le_of_succ_le past)

/-- A variable gets a value in its frame and at its location. -/
theorem fill (shares : w.Shares forest cells next) {location : Location} {value : Value}
    {value' : Value Env} (place : w.place frame name = some location)
    (alike : (w.fill frame name).Alike value value') :
    (w.fill frame name).Shares (forest.define frame name value) (cells.insert location value')
      next where
  size_eq := by
    rw [Forest.size_define, shares.size_eq]
    rfl
  enclosing?_eq other := by
    rw [Forest.enclosing?_define, shares.enclosing?_eq]
    rfl
  placed := shares.placed
  injective := shares.injective
  slots := by
    intro other key here found
    rw [Forest.slot?_define, getElem?_insert_eq]
    · by_cases same : here = location
      · subst same
        rw [if_pos (shares.injective place found), if_pos rfl]
        exact .some alike
      · rw [if_neg, if_neg same]
        · exact optionRel_mono (shares.slots found) fun related =>
            related.imp (w.leadsTo_fill frame name).implies
        · rintro ⟨rfl, rfl⟩
          rw [show w.place other key = some here from found] at place
          cases place
          exact same rfl
    · rw [shares.size_eq]
      exact (shares.placed place).2.1
  vacant := by
    intro other key inner none
    rw [Forest.slot?_define, if_neg]
    · exact shares.vacant inner none
    · rintro ⟨rfl, rfl⟩
      rw [show w.place other key = Option.none from none] at place
      cases place
    · rw [shares.size_eq]
      exact (shares.placed place).2.1
  filled := by
    intro other key had
    rw [Forest.slot?_define]
    · by_cases here : other = frame ∧ key = name
      · rw [if_pos here]
        rfl
      · rw [if_neg here]
        cases had with
        | inl same => exact absurd same here
        | inr old => exact shares.filled old
    · rw [shares.size_eq]
      exact (shares.placed place).2.1
  unused past above := by
    rw [getElem?_insert_eq, if_neg]
    · exact shares.unused past above
    · rintro rfl
      exact absurd (shares.placed place).2.2 (Nat.not_lt.mpr above)

/-- A global gets a value, which changes no variable with a location. -/
theorem fillGlobal (shares : w.Shares forest cells next) (present : 0 < w.size) (name : String)
    (value : Value) :
    (w.fill Machine.globals name).Shares (forest.define Machine.globals name value) cells next := by
  have inFrames : Machine.globals < forest.frames.size := by
    rw [shares.size_eq]
    exact present
  refine ⟨?_, ?_, shares.placed, shares.injective, ?_, ?_, ?_, shares.unused⟩
  · rw [Forest.size_define, shares.size_eq]
    rfl
  · intro other
    rw [Forest.enclosing?_define, shares.enclosing?_eq]
    rfl
  · intro other key location found
    rw [Forest.slot?_define _ _ _ _ inFrames, if_neg]
    · exact optionRel_mono (shares.slots found) fun related =>
        related.imp (w.leadsTo_fill Machine.globals name).implies
    · exact fun here => (shares.placed found).1 here.1
  · intro other key inner none
    rw [Forest.slot?_define _ _ _ _ inFrames, if_neg]
    · exact shares.vacant inner none
    · exact fun here => inner here.1
  · intro other key had
    rw [Forest.slot?_define _ _ _ _ inFrames]
    by_cases here : other = Machine.globals ∧ key = name
    · rw [if_pos here]
      rfl
    · rw [if_neg here]
      cases had with
      | inl same => exact absurd same here
      | inr old => exact shares.filled old

end Shares

namespace Agree

variable {m : Machine} {s : Store} {frame : FrameId} {name : String}

theorem ancestor?_eq (agree : w.Agree m s) (depth : Nat) (frame : FrameId) :
    m.forest.ancestor? depth frame = w.ancestor? depth frame := by
  induction depth generalizing frame with
  | zero => rfl
  | succ depth ih =>
      rw [Forest.ancestor?, World.ancestor?, agree.shares.enclosing?_eq]
      cases w.parent frame with
      | none => rfl
      | some enclosing => exact ih enclosing

theorem nextId_eq (agree : w.Agree m s) : m.forest.nextId = w.size := agree.shares.size_eq

/-- Agreement in what is neither in frames nor in cells carries over to a later world. -/
theorem transfer (agree : w.Agree m s) (leads : w.LeadsTo opened w')
    (ledger_eq : w'.ledger = w.ledger) {forest : Forest}
    {cells : Std.TreeMap Location (Value Env)} {next : Location}
    (shares : w'.Shares forest cells next)
    (globals : ∀ name, forest.slot? Machine.globals name = m.forest.slot? Machine.globals name) :
    w'.Agree { m with forest := forest } { s with cells := cells, nextLocation := next } where
  bindings_eq := by
    rw [ledger_eq]
    exact agree.bindings_eq
  present := Nat.lt_of_lt_of_le agree.present leads.size_le
  outermost := by
    rw [leads.parent_eq Machine.globals agree.present, agree.outermost]
  shares := shares
  globals name := by
    rw [globals name]
    exact optionRel_mono (agree.globals name) fun alike => alike.imp leads.implies
  fields identity :=
    optionRel_mono (agree.fields identity) fun alike => alike.imp leads.implies
  nextIdentity_eq := agree.nextIdentity_eq
  sink_eq := agree.sink_eq
  hostCalls_eq := agree.hostCalls_eq

theorem addFrame (agree : w.Agree m s) (enclosing : FrameId) :
    (w.addFrame enclosing).Agree { m with forest := m.forest.add (some enclosing) } s :=
  agree.transfer (w.leadsTo_addFrame enclosing) rfl (agree.shares.addFrame enclosing) fun name =>
    Forest.slot?_add _ _ name _

theorem put (agree : w.Agree m s) (inner : frame ≠ Machine.globals) (present : frame < w.size)
    (vacant : w.place frame name = none) :
    (w.put frame name s.nextLocation).Agree m { s with nextLocation := s.nextLocation + 1 } :=
  agree.transfer (leadsTo_put s.nextLocation vacant) rfl
    (agree.shares.put inner present vacant) fun _ => rfl

theorem fill (agree : w.Agree m s) {location : Location} {value : Value} {value' : Value Env}
    (place : w.place frame name = some location)
    (alike : (w.fill frame name).Alike value value') :
    (w.fill frame name).Agree { m with forest := m.forest.define frame name value }
      (s.assign value' (.cell location)) := by
  have placed := agree.shares.placed place
  refine agree.transfer (w.leadsTo_fill frame name) rfl (agree.shares.fill place alike) ?_
  intro key
  rw [Forest.slot?_define, if_neg]
  · exact fun here => placed.1 here.1.symm
  · rw [agree.shares.size_eq]
    exact placed.2.1

theorem fillGlobal (agree : w.Agree m s) {value : Value} {value' : Value Env}
    (alike : (w.fill Machine.globals name).Alike value value') :
    (w.fill Machine.globals name).Agree
      { m with forest := m.forest.define Machine.globals name value }
      (s.assign value' (.global name)) where
  bindings_eq := agree.bindings_eq
  present := agree.present
  outermost := agree.outermost
  shares := agree.shares.fillGlobal agree.present name value
  globals key := by
    change Option.Rel _ ((m.forest.define Machine.globals name value).slot? _ key)
      (s.globals.insert name value')[key]?
    rw [Forest.slot?_define, getElem?_insert_eq]
    · by_cases same : key = name
      · rw [if_pos ⟨rfl, same⟩, if_pos same]
        exact .some alike
      · rw [if_neg (fun both => same both.2), if_neg same]
        exact optionRel_mono (agree.globals key) fun related =>
          related.imp (w.leadsTo_fill Machine.globals name).implies
    · rw [agree.shares.size_eq]
      exact agree.present
  fields identity := optionRel_mono (agree.fields identity) fun related =>
    related.imp (w.leadsTo_fill Machine.globals name).implies
  nextIdentity_eq := agree.nextIdentity_eq
  sink_eq := agree.sink_eq
  hostCalls_eq := agree.hostCalls_eq

/-- A variable gets a value in its frame and where the store keeps it. -/
theorem store (agree : w.Agree m s) {v : Variable} (denotes : w.Denotes frame name v)
    {value : Value} {value' : Value Env} (alike : (w.fill frame name).Alike value value') :
    (w.fill frame name).Agree { m with forest := m.forest.define frame name value }
      (s.assign value' v) := by
  cases denotes with
  | global outermost =>
      subst outermost
      exact agree.fillGlobal alike
  | cell placed => exact agree.fill placed alike

/-! ## Instances, output and counters -/

theorem fieldsOf (agree : w.Agree m s) {o : Object} {o' : Object Env}
    (alike : o.Alike w.likeness o') :
    TablesAlike w.likeness (m.fieldsOf o) (s.fieldsOf o') := by
  rw [Machine.fieldsOf, Store.fieldsOf, ← alike.identity_eq]
  rcases optionRel_cases (agree.fields o.identity) with
    ⟨table, table', here, here', related⟩ | ⟨absent, absent'⟩
  · rw [here, here']
    exact related
  · rw [absent, absent']
    exact tablesAlike_empty

theorem setFields (agree : w.Agree m s) (identity : Identity) {table : Table Value}
    {table' : Table (Value Env)} (alike : TablesAlike w.likeness table table') :
    w.Agree { m with fields := m.fields.insert identity table }
      { s with fields := s.fields.insert identity table' } where
  bindings_eq := agree.bindings_eq
  present := agree.present
  outermost := agree.outermost
  shares := agree.shares
  globals := agree.globals
  fields := optionRel_insert agree.fields identity alike
  nextIdentity_eq := agree.nextIdentity_eq
  sink_eq := agree.sink_eq
  hostCalls_eq := agree.hostCalls_eq

theorem newIdentity (agree : w.Agree m s) :
    w.Agree { m with nextIdentity := m.nextIdentity + 1 }
      { s with nextIdentity := s.nextIdentity + 1 } :=
  { agree with nextIdentity_eq := congrArg (· + 1) agree.nextIdentity_eq }

theorem countHostCall (agree : w.Agree m s) :
    w.Agree { m with hostCalls := m.hostCalls + 1 } { s with hostCalls := s.hostCalls + 1 } :=
  { agree with hostCalls_eq := congrArg (· + 1) agree.hostCalls_eq }

theorem setSink (agree : w.Agree m s) (sink : Sink) :
    w.Agree { m with sink := sink } { s with sink := sink } :=
  { agree with sink_eq := rfl }

theorem setCurrent (agree : w.Agree m s) (current : FrameId) :
    w.Agree { m with current := current } s :=
  { agree with }

end Agree

end World

end Rill.Lexical
