import Rill.Proofs.Machine.Forest
import Rill.Proofs.Relabelling.Values

/-!
# Machines under other identities

Two machines agree up to a relabelling if they have the same frames, in them values that differ in
their identities alone, and for every instance the same fields under the identity that stands for
its own. Every change of one machine has a counterpart in the other, and the two leave machines that
agree.
-/

namespace Rill

namespace Relabelling

variable {π ρ : Relabelling}

/-- Two machines are the same, except for the identities that they have given out. -/
structure Agree (π : Relabelling) (m m' : Machine) : Prop where
  limit_le : π.limit ≤ m.nextIdentity
  nextIdentity_eq : m.nextIdentity = m'.nextIdentity
  current_eq : m.current = m'.current
  bindings_eq : ∀ id : Occurrence, m.bindings[id]? = m'.bindings[id]?
  size_eq : m.forest.frames.size = m'.forest.frames.size
  enclosing?_eq : ∀ frame, m.forest.enclosing? frame = m'.forest.enclosing? frame
  slots : ∀ (frame : FrameId) (name : String),
    Option.Rel (Value.Relabelled π m.nextIdentity) (m.forest.slot? frame name)
      (m'.forest.slot? frame name)
  fields : ∀ identity : Identity, Option.Rel (TablesRelabelled π m.nextIdentity)
    m.fields[identity]? m'.fields[π.label identity]?
  /-- What has not been given out has no fields. -/
  unused : ∀ {identity : Identity}, m.nextIdentity ≤ identity → m.fields[identity]? = none
  unused' : ∀ {identity : Identity}, m'.nextIdentity ≤ identity → m'.fields[identity]? = none
  sink_eq : m.sink = m'.sink
  hostCalls_eq : m.hostCalls = m'.hostCalls

namespace Agree

variable {m m' : Machine} {frame : FrameId} {name : String} {value value' : Value}

theorem nextId_eq (agree : π.Agree m m') : m.forest.nextId = m'.forest.nextId := agree.size_eq

/-! ## Changes -/

theorem setCurrent (agree : π.Agree m m') (frame : FrameId) :
    π.Agree { m with current := frame } { m' with current := frame } :=
  { agree with current_eq := rfl }

theorem countHostCall (agree : π.Agree m m') :
    π.Agree { m with hostCalls := m.hostCalls + 1 } { m' with hostCalls := m'.hostCalls + 1 } :=
  { agree with hostCalls_eq := congrArg Nat.succ agree.hostCalls_eq }

theorem setSink (agree : π.Agree m m') (sink : Sink) :
    π.Agree { m with sink := sink } { m' with sink := sink } :=
  { agree with sink_eq := rfl }

theorem addBindings (agree : π.Agree m m') {bindings bindings' : Bindings}
    (same : ∀ id : Occurrence, bindings[id]? = bindings'[id]?) :
    π.Agree (m.addBindings bindings) (m'.addBindings bindings') :=
  { agree with
    bindings_eq := by
      intro id
      rw [Machine.addBindings, Machine.addBindings, Std.TreeMap.getElem?_union,
        Std.TreeMap.getElem?_union, same, agree.bindings_eq] }

theorem addFrame (agree : π.Agree m m') (enclosing : FrameId) :
    π.Agree { m with forest := m.forest.add (some enclosing) }
      { m' with forest := m'.forest.add (some enclosing) } :=
  { agree with
    size_eq := by rw [Forest.size_add, Forest.size_add, agree.size_eq]
    enclosing?_eq := by
      intro frame
      rw [Forest.enclosing?_add, Forest.enclosing?_add, agree.size_eq, agree.enclosing?_eq]
    slots := by
      intro frame name
      rw [Forest.slot?_add, Forest.slot?_add]
      exact agree.slots frame name }

theorem define (agree : π.Agree m m') (frame : FrameId) (name : String)
    (related : value.Relabelled π m.nextIdentity value') :
    π.Agree { m with forest := m.forest.define frame name value }
      { m' with forest := m'.forest.define frame name value' } :=
  { agree with
    size_eq := by rw [Forest.size_define, Forest.size_define, agree.size_eq]
    enclosing?_eq := by
      intro other
      rw [Forest.enclosing?_define, Forest.enclosing?_define, agree.enclosing?_eq]
    slots := by
      intro other key
      by_cases present : frame < m.forest.frames.size
      · have present' : frame < m'.forest.frames.size := agree.size_eq ▸ present
        rw [Forest.slot?_define _ _ _ _ present, Forest.slot?_define _ _ _ _ present']
        by_cases here : other = frame ∧ key = name
        · rw [if_pos here, if_pos here]
          exact .some related
        · rw [if_neg here, if_neg here]
          exact agree.slots other key
      · have absent := Nat.not_lt.mp present
        rw [Forest.slot?_define_of_absent _ _ _ _ _ absent,
          Forest.slot?_define_of_absent _ _ _ _ _ (agree.size_eq ▸ absent)]
        exact agree.slots other key }

theorem setFields (agree : π.Agree m m') {identity : Identity} (given : identity < m.nextIdentity)
    {table table' : Table Value} (related : TablesRelabelled π m.nextIdentity table table') :
    π.Agree { m with fields := m.fields.insert identity table }
      { m' with fields := m'.fields.insert (π.label identity) table' } :=
  { agree with
    fields := by
      intro other
      rw [getElem?_insert_eq, getElem?_insert_eq]
      by_cases here : other = identity
      · rw [if_pos here, if_pos (congrArg π.label here)]
        exact .some related
      · rw [if_neg here, if_neg fun same => here (π.injective same)]
        exact agree.fields other
    unused := by
      intro other past
      rw [getElem?_insert_eq, if_neg (Nat.ne_of_gt (Nat.lt_of_lt_of_le given past))]
      exact agree.unused past
    unused' := by
      intro other past
      have given' : π.label identity < m'.nextIdentity :=
        agree.nextIdentity_eq ▸ π.label_lt agree.limit_le given
      rw [getElem?_insert_eq, if_neg (Nat.ne_of_gt (Nat.lt_of_lt_of_le given' past))]
      exact agree.unused' past }

/--
Identities are given out in both machines, as many in the one as in the other. What is known of the
others may now be known of these as well, under another relabelling.
-/
theorem giveOut (agree : π.Agree m m') (count : Nat)
    (covers : π.Covers m.nextIdentity ρ (m.nextIdentity + count))
    (limit_le : ρ.limit ≤ m.nextIdentity + count)
    (new : ∀ {identity : Identity}, m.nextIdentity ≤ identity →
      m.nextIdentity ≤ ρ.label identity) :
    ρ.Agree { m with nextIdentity := m.nextIdentity + count }
      { m' with nextIdentity := m'.nextIdentity + count } :=
  { agree with
    limit_le
    nextIdentity_eq := congrArg (· + count) agree.nextIdentity_eq
    slots := fun frame name => optionRel_mono (agree.slots frame name)
      (Value.Relabelled.cover covers)
    fields := by
      intro identity
      by_cases given : identity < m.nextIdentity
      · rw [covers.label_eq given]
        exact optionRel_mono (agree.fields identity) (TablesRelabelled.cover covers)
      · have past := Nat.not_lt.mp given
        rw [agree.unused past, agree.unused' (agree.nextIdentity_eq ▸ new past)]
        exact .none
    unused := fun past => agree.unused (Nat.le_trans (Nat.le_add_right _ count) past)
    unused' := fun past => agree.unused' (Nat.le_trans (Nat.le_add_right _ count) past) }

theorem newIdentity (agree : π.Agree m m') :
    π.Agree { m with nextIdentity := m.nextIdentity + 1 }
      { m' with nextIdentity := m'.nextIdentity + 1 } := by
  refine agree.giveOut 1 (π.covers_of_le (Nat.le_add_right _ 1))
    (Nat.le_trans agree.limit_le (Nat.le_add_right _ 1)) ?_
  intro identity past
  rwa [π.label_of_le (Nat.le_trans agree.limit_le past)]

/-- Only the values in its frames count of a machine, not how its tables are built. -/
theorem congr_forest (agree : π.Agree m m') {forest : Forest}
    (size_eq : m'.forest.frames.size = forest.frames.size)
    (enclosing?_eq : ∀ frame, m'.forest.enclosing? frame = forest.enclosing? frame)
    (slot?_eq : ∀ frame name, m'.forest.slot? frame name = forest.slot? frame name) :
    π.Agree m { m' with forest } :=
  { agree with
    size_eq := agree.size_eq.trans size_eq
    enclosing?_eq := fun frame => (agree.enclosing?_eq frame).trans (enclosing?_eq frame)
    slots := fun frame name => slot?_eq frame name ▸ agree.slots frame name }

/-! ## What is found -/

theorem fieldsOf (agree : π.Agree m m') {o o' : Object}
    (objects : o.Relabelled π m.nextIdentity o') :
    TablesRelabelled π m.nextIdentity (m.fieldsOf o) (m'.fieldsOf o') := by
  rw [Machine.fieldsOf, Machine.fieldsOf, objects.identity_eq]
  rcases optionRel_cases (agree.fields o.identity) with
    ⟨table, table', found, found', related⟩ | ⟨absent, absent'⟩
  · rw [found, found']
    exact related
  · rw [absent, absent']
    exact tablesRelabelled_empty

theorem ancestor?_eq (agree : π.Agree m m') (depth : Nat) (frame : FrameId) :
    m.forest.ancestor? depth frame = m'.forest.ancestor? depth frame := by
  induction depth generalizing frame with
  | zero => rfl
  | succ depth ih =>
      rw [Forest.ancestor?, Forest.ancestor?, agree.enclosing?_eq]
      exact Option.bind_congr fun outer _ => ih outer

theorem ownerAt_eq (agree : π.Agree m m') (depth : Nat) (frame : FrameId) :
    m.forest.ownerAt frame depth = m'.forest.ownerAt frame depth := by
  rw [Forest.ownerAt, Forest.ownerAt, agree.ancestor?_eq]

/--
A frame so many frames outward has relabelled values under a name, or is missing or lacks it in
both machines.
-/
theorem getAt (agree : π.Agree m m') (frame : FrameId) (depth : Nat) (name : String) :
    (∃ value value', m.forest.getAt frame depth name = .ok value ∧
      m'.forest.getAt frame depth name = .ok value' ∧
        value.Relabelled π m.nextIdentity value') ∨
    ∃ breach, m.forest.getAt frame depth name = .error breach ∧
      m'.forest.getAt frame depth name = .error breach := by
  simp only [Forest.getAt, ← agree.ownerAt_eq]
  cases m.forest.ownerAt frame depth with
  | error breach => exact .inr ⟨breach, rfl, rfl⟩
  | ok owner =>
      simp only [bind, Except.bind]
      rcases optionRel_cases (agree.slots owner name) with
        ⟨value, value', found, found', related⟩ | ⟨absent, absent'⟩
      · rw [found, found']
        exact .inl ⟨value, value', rfl, rfl, related⟩
      · rw [absent, absent']
        exact .inr ⟨_, rfl, rfl⟩

/-- Globals of machines that agree look the same. -/
theorem appearance?_eq (agree : π.Agree m m') : m.appearance? = m'.appearance? := by
  funext name
  rw [Machine.appearance?_eq, Machine.appearance?_eq]
  rcases optionRel_cases (agree.slots Machine.globals name) with
    ⟨v, v', found, found', related⟩ | ⟨absent, absent'⟩
  · rw [found, found', Option.map_some, Option.map_some, related.look_eq agree.fieldsOf]
  · rw [absent, absent', Option.map_none, Option.map_none]

end Agree

end Relabelling

end Rill
