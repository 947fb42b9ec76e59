import Rill.Proofs.Machine.Likeness
import Rill.Proofs.Scope.Bound
import Rill.Proofs.Syntax.Recast

/-!
# Paired machines

Two machines are paired if they have the same frames, and in them values that are alike: functions
are if they keep the same frame and the code of the second is that of the first, recast so that
every mention is bound as it was. Every change of one machine has a counterpart in the other, and
the two leave the machines paired.
-/

namespace Rill

/-- A sink takes whatever is written and can be flushed. -/
structure Sink.NeverFails (sink : Sink) : Prop where
  room_eq : sink.room = none
  flushes : sink.flushes = true

namespace Sink.NeverFails

variable {sink : Sink}

theorem write_eq (never : sink.NeverFails) (text : String) :
    sink.write text = ({ sink with taken := sink.taken ++ text.toUTF8 }, none) := by
  rw [write, never.room_eq]

theorem take (never : sink.NeverFails) (bytes : ByteArray) :
    NeverFails { sink with taken := bytes } :=
  ⟨never.room_eq, never.flushes⟩

theorem flush_eq (never : sink.NeverFails) : sink.flush = none := by
  rw [flush, if_pos never.flushes]

end Sink.NeverFails

/-- How the code of two machines belongs together. -/
structure Pairing where
  /-- The code of the first machine. -/
  ledger : Ledger
  /-- The bindings of the second machine. -/
  table : Bindings
  /-- By how many lines code may stand further down in the second machine. -/
  Lowers : Nat → Prop

namespace Pairing

/-- A recast binds mentions in the second machine as they are bound in the first. -/
structure Suits (p : Pairing) (r : Recast) (mentions : List Mention) : Prop where
  lowers : p.Lowers r.lines
  binds : ∀ id ∈ mentionIds mentions,
    id < p.ledger.limit ∧ p.ledger.bindings[id]? = p.table[r.ids id]?

/-- Two functions keep the same frame and run the same code, one of them recast. -/
structure Twins (p : Pairing) (c c' : Closure) : Prop where
  identity_eq : c.identity = c'.identity
  environment_eq : c.environment = c'.environment
  isInitializer_eq : c.isInitializer = c'.isInitializer
  recast : ∃ r, p.Suits r (Stmt.mentionsAll c.routine.body) ∧ c'.routine = c.routine.recast r

variable {p q : Pairing}

theorem Twins.resembles {c c' : Closure} (twins : p.Twins c c') : c.Resembles c' where
  identity_eq := twins.identity_eq
  name_eq := by
    obtain ⟨r, _, same⟩ := twins.recast
    rw [Closure.name, Closure.name, same]
    rfl
  arity_eq := by
    obtain ⟨r, _, same⟩ := twins.recast
    rw [Closure.arity, Closure.arity, same]
    exact (List.length_map _).symm
  isInitializer_eq := twins.isInitializer_eq

/-- The likeness of functions in paired machines. -/
def likeness (p : Pairing) : Likeness FrameId FrameId where
  closures := p.Twins
  methods := p.Twins
  closures_resemble := Twins.resembles
  methods_resemble := Twins.resembles

/-- Two values are alike in paired machines. -/
abbrev Alike (p : Pairing) : Value → Value → Prop := Value.Alike p.likeness

/-- Two machines have the same frames, alike values in them, and output that does not fail. -/
structure Agree (p : Pairing) (m m' : Machine) : Prop where
  bindings_eq : m.bindings = p.ledger.bindings
  table_eq : m'.bindings = p.table
  size_eq : m.forest.frames.size = m'.forest.frames.size
  enclosing?_eq : ∀ frame, m.forest.enclosing? frame = m'.forest.enclosing? frame
  slots : ∀ (frame : FrameId) (name : String),
    Option.Rel p.Alike (m.forest.slot? frame name) (m'.forest.slot? frame name)
  fields : ∀ identity : Identity,
    Option.Rel (TablesAlike p.likeness) m.fields[identity]? m'.fields[identity]?
  nextIdentity_eq : m.nextIdentity = m'.nextIdentity
  current_eq : m.current = m'.current
  sink_eq : m.sink = m'.sink
  neverFails : m.sink.NeverFails
  hostCalls_eq : m.hostCalls = m'.hostCalls

/-- Two runs halted for the same reason, which the second one may report further down. -/
inductive HaltsAlike (p : Pairing) : Halt → Halt → Prop
  | fault {lines : Nat} (line : Nat) (cause : RuntimeCause) : p.Lowers lines →
      HaltsAlike p (.fault ⟨line, cause⟩) (.fault ⟨line + lines, cause⟩)
  | breach (breach : Breach) : HaltsAlike p (.breach breach) (.breach breach)
  | spent : HaltsAlike p .spent .spent

/-! ## More code -/

/-- A pairing covers another one, and more code of the first machine besides. -/
structure Extends (p q : Pairing) : Prop where
  ledger : p.ledger.Extends q.ledger
  table_eq : q.table = p.table
  lowers : ∀ lines, p.Lowers lines → q.Lowers lines

theorem Suits.extend {r : Recast} {mentions : List Mention} (suits : p.Suits r mentions)
    (extends_ : p.Extends q) : q.Suits r mentions where
  lowers := extends_.lowers _ suits.lowers
  binds := by
    intro id present
    obtain ⟨below, same⟩ := suits.binds id present
    rw [extends_.ledger.getElem?_eq id below, extends_.table_eq]
    exact ⟨Nat.lt_of_lt_of_le below extends_.ledger.limit_le, same⟩

theorem Twins.extend {c c' : Closure} (twins : p.Twins c c') (extends_ : p.Extends q) :
    q.Twins c c' where
  identity_eq := twins.identity_eq
  environment_eq := twins.environment_eq
  isInitializer_eq := twins.isInitializer_eq
  recast := by
    obtain ⟨r, suits, same⟩ := twins.recast
    exact ⟨r, suits.extend extends_, same⟩

theorem Extends.implies (extends_ : p.Extends q) : p.likeness.Implies q.likeness where
  closures twins := Twins.extend twins extends_
  methods twins := Twins.extend twins extends_

/-- A recast suits what it suits in two parts. -/
theorem suits_append {r : Recast} {first second : List Mention} :
    p.Suits r (first ++ second) ↔ p.Suits r first ∧ p.Suits r second := by
  constructor
  · intro suits
    refine ⟨⟨suits.lowers, ?_⟩, ⟨suits.lowers, ?_⟩⟩
    · intro id present
      exact suits.binds id (by simp [present])
    · intro id present
      exact suits.binds id (by simp [present])
  · intro ⟨left, right⟩
    refine ⟨left.lowers, ?_⟩
    intro id present
    rw [mentionIds_append, List.mem_append] at present
    rcases present with here | there
    · exact left.binds id here
    · exact right.binds id there

/-! ## Changes -/

namespace Agree

variable {m m' : Machine} {frame : FrameId} {name : String} {value value' : Value}

theorem nextId_eq (agree : p.Agree m m') : m.forest.nextId = m'.forest.nextId := agree.size_eq

theorem setCurrent (agree : p.Agree m m') (frame : FrameId) :
    p.Agree { m with current := frame } { m' with current := frame } :=
  { agree with current_eq := rfl }

theorem addFrame (agree : p.Agree m m') (enclosing : FrameId) :
    p.Agree { m with forest := m.forest.add (some enclosing) }
      { m' with forest := m'.forest.add (some enclosing) } where
  bindings_eq := agree.bindings_eq
  table_eq := agree.table_eq
  size_eq := by
    rw [Forest.size_add, Forest.size_add, agree.size_eq]
  enclosing?_eq frame := by
    rw [Forest.enclosing?_add, Forest.enclosing?_add, agree.size_eq, agree.enclosing?_eq]
  slots frame name := by
    rw [Forest.slot?_add, Forest.slot?_add]
    exact agree.slots frame name
  fields := agree.fields
  nextIdentity_eq := agree.nextIdentity_eq
  current_eq := agree.current_eq
  sink_eq := agree.sink_eq
  neverFails := agree.neverFails
  hostCalls_eq := agree.hostCalls_eq

theorem define (agree : p.Agree m m') (frame : FrameId) (name : String)
    (alike : p.Alike value value') :
    p.Agree { m with forest := m.forest.define frame name value }
      { m' with forest := m'.forest.define frame name value' } where
  bindings_eq := agree.bindings_eq
  table_eq := agree.table_eq
  size_eq := by
    rw [Forest.size_define, Forest.size_define, agree.size_eq]
  enclosing?_eq other := by
    rw [Forest.enclosing?_define, Forest.enclosing?_define, agree.enclosing?_eq]
  slots other key := by
    by_cases present : frame < m.forest.frames.size
    · have present' : frame < m'.forest.frames.size := agree.size_eq ▸ present
      rw [Forest.slot?_define _ _ _ _ present, Forest.slot?_define _ _ _ _ present']
      by_cases here : other = frame ∧ key = name
      · rw [if_pos here, if_pos here]
        exact .some alike
      · rw [if_neg here, if_neg here]
        exact agree.slots other key
    · have absent := Nat.not_lt.mp present
      rw [Forest.slot?_define_of_absent _ _ _ _ _ absent,
        Forest.slot?_define_of_absent _ _ _ _ _ (agree.size_eq ▸ absent)]
      exact agree.slots other key
  fields := agree.fields
  nextIdentity_eq := agree.nextIdentity_eq
  current_eq := agree.current_eq
  sink_eq := agree.sink_eq
  neverFails := agree.neverFails
  hostCalls_eq := agree.hostCalls_eq

theorem setFields (agree : p.Agree m m') (identity : Identity) {table table' : Table Value}
    (alike : TablesAlike p.likeness table table') :
    p.Agree { m with fields := m.fields.insert identity table }
      { m' with fields := m'.fields.insert identity table' } :=
  { agree with fields := optionRel_insert agree.fields identity alike }

theorem newIdentity (agree : p.Agree m m') :
    p.Agree { m with nextIdentity := m.nextIdentity + 1 }
      { m' with nextIdentity := m'.nextIdentity + 1 } :=
  { agree with nextIdentity_eq := congrArg Nat.succ agree.nextIdentity_eq }

theorem countHostCall (agree : p.Agree m m') :
    p.Agree { m with hostCalls := m.hostCalls + 1 } { m' with hostCalls := m'.hostCalls + 1 } :=
  { agree with hostCalls_eq := congrArg Nat.succ agree.hostCalls_eq }

theorem setSink (agree : p.Agree m m') {sink : Sink} (never : sink.NeverFails) :
    p.Agree { m with sink := sink } { m' with sink := sink } :=
  { agree with
    sink_eq := rfl
    neverFails := never }

/-- Machines stay paired when more code is added to the first. -/
theorem extend (agree : p.Agree m m') (extends_ : p.Extends q) :
    q.Agree { m with bindings := q.ledger.bindings } m' where
  bindings_eq := rfl
  table_eq := agree.table_eq.trans extends_.table_eq.symm
  size_eq := agree.size_eq
  enclosing?_eq := agree.enclosing?_eq
  slots frame name := optionRel_mono (agree.slots frame name) fun alike =>
    alike.imp extends_.implies
  fields identity := optionRel_mono (agree.fields identity) fun alike =>
    alike.imp extends_.implies
  nextIdentity_eq := agree.nextIdentity_eq
  current_eq := agree.current_eq
  sink_eq := agree.sink_eq
  neverFails := agree.neverFails
  hostCalls_eq := agree.hostCalls_eq

/-! ## What is found -/

theorem fieldsOf (agree : p.Agree m m') {o o' : Object} (objects : o.Alike p.likeness o') :
    TablesAlike p.likeness (m.fieldsOf o) (m'.fieldsOf o') := by
  rw [Machine.fieldsOf, Machine.fieldsOf, ← objects.identity_eq]
  rcases optionRel_cases (agree.fields o.identity) with
    ⟨table, table', found, found', alike⟩ | ⟨absent, absent'⟩
  · rw [found, found']
    exact alike
  · rw [absent, absent']
    exact tablesAlike_empty

theorem ancestor?_eq (agree : p.Agree m m') (depth : Nat) (frame : FrameId) :
    m.forest.ancestor? depth frame = m'.forest.ancestor? depth frame := by
  induction depth generalizing frame with
  | zero => rfl
  | succ depth ih =>
      rw [Forest.ancestor?, Forest.ancestor?, agree.enclosing?_eq]
      exact Option.bind_congr fun outer _ => ih outer

theorem ownerAt_eq (agree : p.Agree m m') (depth : Nat) (frame : FrameId) :
    m.forest.ownerAt frame depth = m'.forest.ownerAt frame depth := by
  rw [Forest.ownerAt, Forest.ownerAt, agree.ancestor?_eq]

/--
A frame so many frames outward has alike values under a name, or is missing or lacks it in both.
-/
theorem getAt (agree : p.Agree m m') (frame : FrameId) (depth : Nat) (name : String) :
    (∃ value value', m.forest.getAt frame depth name = .ok value ∧
      m'.forest.getAt frame depth name = .ok value' ∧ p.Alike value value') ∨
    ∃ breach, m.forest.getAt frame depth name = .error breach ∧
      m'.forest.getAt frame depth name = .error breach := by
  simp only [Forest.getAt, ← agree.ownerAt_eq]
  cases m.forest.ownerAt frame depth with
  | error breach => exact .inr ⟨breach, rfl, rfl⟩
  | ok owner =>
      simp only [bind, Except.bind]
      rcases optionRel_cases (agree.slots owner name) with
        ⟨value, value', found, found', alike⟩ | ⟨absent, absent'⟩
      · rw [found, found']
        exact .inl ⟨value, value', rfl, rfl, alike⟩
      · rw [absent, absent']
        exact .inr ⟨_, rfl, rfl⟩

end Agree

end Pairing

end Rill
