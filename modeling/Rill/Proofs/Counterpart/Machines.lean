import Rill.Proofs.Counterpart.Code
import Rill.Proofs.Machine.Forest
import Rill.Proofs.Machine.Likeness

/-!
# Machines side by side

Two machines run akin code side by side: they have the same frames, and in each frame alike values
under names that correspond in the spelling of the frame. Frames are only ever added, each with a
spelling of its own. Every change of one machine has a counterpart in the other, and the two leave
the machines side by side.
-/

namespace Rill

/-- For every frame, how names are spelled in it and outward of it. -/
abbrev Places := List Spellings

namespace Places

variable {p q : Places} {frame : FrameId} {Γ Δ : Spellings}

theorem at_of_grows (grows : p <+: q) (place : p[frame]? = some Γ) : q[frame]? = some Γ := by
  obtain ⟨more, rfl⟩ := grows
  obtain ⟨present, _⟩ := List.getElem?_eq_some_iff.mp place
  rw [List.getElem?_append_left present, place]

theorem at_concat_iff :
    (p ++ [Δ])[frame]? = some Γ ↔ p[frame]? = some Γ ∨ frame = p.length ∧ Δ = Γ := by
  rw [List.getElem?_append]
  by_cases present : frame < p.length
  · rw [if_pos present]
    simp only [Nat.ne_of_lt present, false_and, or_false]
  · rw [if_neg present, List.getElem?_eq_none (Nat.not_lt.mp present), List.getElem?_singleton]
    by_cases last : frame = p.length
    · simp [last]
    · have past := Nat.lt_of_le_of_ne (Nat.not_lt.mp present) (Ne.symm last)
      simp [last, Nat.sub_ne_zero_of_lt past]

end Places

namespace Ledgers

/--
Two functions keep the same frame and run akin code. Between the frame and the code there may be
other scopes: for a method, the one that holds `self`.
-/
structure Twins (l : Ledgers) (p : Places) (inner : Spellings) (c c' : Closure) : Prop where
  identity_eq : c.identity = c'.identity
  environment_eq : c.environment = c'.environment
  isInitializer_eq : c.isInitializer = c'.isInitializer
  akin : ∃ Γ, p[c.environment]? = some Γ ∧ Stmt.AkinRoutine l (inner ++ Γ) c.routine c'.routine

variable {l k : Ledgers} {p q : Places} {inner : Spellings} {c c' : Closure}

theorem Twins.resembles (twins : l.Twins p inner c c') : c.Resembles c' where
  identity_eq := twins.identity_eq
  name_eq := by
    obtain ⟨Γ, _, akin⟩ := twins.akin
    rw [Closure.name, Closure.name, akin.name_eq]
  arity_eq := by
    obtain ⟨Γ, _, akin⟩ := twins.akin
    exact akin.length_eq
  isInitializer_eq := twins.isInitializer_eq

/-- The likeness of functions in machines side by side. -/
def likeness (l : Ledgers) (p : Places) : Likeness FrameId FrameId where
  closures := l.Twins p []
  methods := l.Twins p [.same]
  closures_resemble := Twins.resembles
  methods_resemble := Twins.resembles

/-- Two values are alike in machines side by side. -/
abbrev Alike (l : Ledgers) (p : Places) : Value → Value → Prop := Value.Alike (l.likeness p)

/-! ## More code and more frames -/

theorem Extends.refl (l : Ledgers) : l.Extends l := ⟨.refl _, .refl _⟩

theorem Twins.extend (twins : l.Twins p inner c c') (extends_ : l.Extends k) (grows : p <+: q) :
    k.Twins q inner c c' where
  identity_eq := twins.identity_eq
  environment_eq := twins.environment_eq
  isInitializer_eq := twins.isInitializer_eq
  akin := by
    obtain ⟨Γ, place, akin⟩ := twins.akin
    exact ⟨Γ, Places.at_of_grows grows place, akin.extend extends_⟩

theorem Extends.implies (extends_ : l.Extends k) (grows : p <+: q) :
    (l.likeness p).Implies (k.likeness q) where
  closures twins := Twins.extend twins extends_ grows
  methods twins := Twins.extend twins extends_ grows

theorem implies_of_grows (grows : p <+: q) : (l.likeness p).Implies (l.likeness q) :=
  (Extends.refl l).implies grows

/-! ## Agreement -/

/-- Two machines have the same frames and, names apart, alike values in them. -/
structure Agree (l : Ledgers) (p : Places) (m m' : Machine) : Prop where
  bindings_eq : m.bindings = l.first.bindings
  bindings_eq' : m'.bindings = l.second.bindings
  size_eq : m.forest.frames.size = p.length
  size_eq' : m'.forest.frames.size = p.length
  enclosing?_eq : ∀ frame, m.forest.enclosing? frame = m'.forest.enclosing? frame
  outermost : p[Machine.globals]? = some []
  outward : ∀ {frame outer : FrameId} {Γ : Spellings}, m.forest.enclosing? frame = some outer →
    p[frame]? = some Γ → p[outer]? = some Γ.tail
  slots : ∀ {frame : FrameId} {Γ : Spellings}, p[frame]? = some Γ → ∀ name : String,
    Option.Rel (l.Alike p) (m.forest.slot? frame name) (m'.forest.slot? frame (Γ.here.spell name))
  fields : ∀ identity : Identity,
    Option.Rel (TablesAlike (l.likeness p)) m.fields[identity]? m'.fields[identity]?
  nextIdentity_eq : m.nextIdentity = m'.nextIdentity
  sink_eq : m.sink = m'.sink
  hostCalls_eq : m.hostCalls = m'.hostCalls

/-- Two machines that agree stand in the same frame, with its spellings. -/
structure Stand (l : Ledgers) (p : Places) (frame : FrameId) (Γ : Spellings) (m m' : Machine) :
    Prop extends l.Agree p m m' where
  current_eq : m.current = frame
  current_eq' : m'.current = frame
  place : p[frame]? = some Γ

variable {m m' : Machine} {frame : FrameId} {Γ : Spellings} {name : String} {value value' : Value}

/-! ## Changes -/

namespace Agree

theorem nextId_eq (agree : l.Agree p m m') : m.forest.nextId = m'.forest.nextId :=
  agree.size_eq.trans agree.size_eq'.symm

/-- A new frame takes any spelling, in front of those of the frame around it. -/
theorem addFrame (agree : l.Agree p m m') (place : p[frame]? = some Γ) (ρ : Spelling) :
    l.Agree (p ++ [ρ :: Γ]) { m with forest := m.forest.add (some frame) }
      { m' with forest := m'.forest.add (some frame) } where
  bindings_eq := agree.bindings_eq
  bindings_eq' := agree.bindings_eq'
  size_eq := by rw [Forest.size_add, agree.size_eq, List.length_append, List.length_singleton]
  size_eq' := by rw [Forest.size_add, agree.size_eq', List.length_append, List.length_singleton]
  enclosing?_eq other := by
    rw [Forest.enclosing?_add, Forest.enclosing?_add, agree.size_eq, agree.size_eq',
      agree.enclosing?_eq]
  outermost := Places.at_of_grows (List.prefix_append _ _) agree.outermost
  outward := by
    intro other outer Δ encloses found
    rw [Forest.enclosing?_add] at encloses
    rcases Places.at_concat_iff.mp found with before | ⟨rfl, rfl⟩
    · obtain ⟨present, _⟩ := List.getElem?_eq_some_iff.mp before
      rw [if_neg (Nat.ne_of_lt (agree.size_eq ▸ present))] at encloses
      exact Places.at_of_grows (List.prefix_append _ _) (agree.outward encloses before)
    · rw [if_pos agree.size_eq.symm] at encloses
      cases encloses
      exact Places.at_of_grows (List.prefix_append _ _) place
  slots := by
    intro other Δ found name
    rw [Forest.slot?_add, Forest.slot?_add]
    rcases Places.at_concat_iff.mp found with before | ⟨rfl, rfl⟩
    · exact optionRel_mono (agree.slots before name) fun alike =>
        alike.imp (implies_of_grows (List.prefix_append _ _))
    · rw [Forest.slot?_eq_none _ _ _ (Nat.le_of_eq agree.size_eq),
        Forest.slot?_eq_none _ _ _ (Nat.le_of_eq agree.size_eq')]
      exact .none
  fields identity := optionRel_mono (agree.fields identity) fun alike =>
    alike.imp (implies_of_grows (List.prefix_append _ _))
  nextIdentity_eq := agree.nextIdentity_eq
  sink_eq := agree.sink_eq
  hostCalls_eq := agree.hostCalls_eq

/-- A name of a frame takes alike values, in the second machine as the frame spells it. -/
theorem define (agree : l.Agree p m m') (place : p[frame]? = some Γ) (name : String)
    (alike : l.Alike p value value') :
    l.Agree p { m with forest := m.forest.define frame name value }
      { m' with forest := m'.forest.define frame (Γ.here.spell name) value' } where
  bindings_eq := agree.bindings_eq
  bindings_eq' := agree.bindings_eq'
  size_eq := by rw [Forest.size_define, agree.size_eq]
  size_eq' := by rw [Forest.size_define, agree.size_eq']
  enclosing?_eq other := by
    rw [Forest.enclosing?_define, Forest.enclosing?_define, agree.enclosing?_eq]
  outermost := agree.outermost
  outward := by
    intro other outer Δ encloses
    rw [Forest.enclosing?_define] at encloses
    exact agree.outward encloses
  slots := by
    intro other Δ found key
    obtain ⟨present, _⟩ := List.getElem?_eq_some_iff.mp place
    rw [Forest.slot?_define _ _ _ _ (agree.size_eq ▸ present),
      Forest.slot?_define _ _ _ _ (agree.size_eq' ▸ present)]
    by_cases here : other = frame ∧ key = name
    · obtain ⟨rfl, rfl⟩ := here
      cases place.symm.trans found
      rw [if_pos ⟨rfl, rfl⟩, if_pos ⟨rfl, rfl⟩]
      exact .some alike
    · rw [if_neg here, if_neg]
      · exact agree.slots found key
      · rintro ⟨rfl, same⟩
        cases place.symm.trans found
        exact here ⟨rfl, Γ.here.injective same⟩
  fields := agree.fields
  nextIdentity_eq := agree.nextIdentity_eq
  sink_eq := agree.sink_eq
  hostCalls_eq := agree.hostCalls_eq

theorem setFields (agree : l.Agree p m m') (identity : Identity) {table table' : Table Value}
    (alike : TablesAlike (l.likeness p) table table') :
    l.Agree p { m with fields := m.fields.insert identity table }
      { m' with fields := m'.fields.insert identity table' } :=
  { agree with fields := optionRel_insert agree.fields identity alike }

theorem newIdentity (agree : l.Agree p m m') :
    l.Agree p { m with nextIdentity := m.nextIdentity + 1 }
      { m' with nextIdentity := m'.nextIdentity + 1 } :=
  { agree with nextIdentity_eq := congrArg Nat.succ agree.nextIdentity_eq }

theorem countHostCall (agree : l.Agree p m m') :
    l.Agree p { m with hostCalls := m.hostCalls + 1 } { m' with hostCalls := m'.hostCalls + 1 } :=
  { agree with hostCalls_eq := congrArg Nat.succ agree.hostCalls_eq }

theorem setSink (agree : l.Agree p m m') (sink : Sink) :
    l.Agree p { m with sink := sink } { m' with sink := sink } :=
  { agree with sink_eq := rfl }

theorem setCurrent (agree : l.Agree p m m') (place : p[frame]? = some Γ) :
    l.Stand p frame Γ { m with current := frame } { m' with current := frame } where
  toAgree := { agree with }
  current_eq := rfl
  current_eq' := rfl
  place := place

/-- Machines stay side by side when more code is added to both. -/
theorem extend (agree : l.Agree p m m') (extends_ : l.Extends k) :
    k.Agree p { m with bindings := k.first.bindings }
      { m' with bindings := k.second.bindings } where
  bindings_eq := rfl
  bindings_eq' := rfl
  size_eq := agree.size_eq
  size_eq' := agree.size_eq'
  enclosing?_eq := agree.enclosing?_eq
  outermost := agree.outermost
  outward := agree.outward
  slots found name := optionRel_mono (agree.slots found name) fun alike =>
    alike.imp (extends_.implies List.prefix_rfl)
  fields identity := optionRel_mono (agree.fields identity) fun alike =>
    alike.imp (extends_.implies List.prefix_rfl)
  nextIdentity_eq := agree.nextIdentity_eq
  sink_eq := agree.sink_eq
  hostCalls_eq := agree.hostCalls_eq

/-! ## What is found -/

theorem fieldsOf (agree : l.Agree p m m') {o o' : Object} (objects : o.Alike (l.likeness p) o') :
    TablesAlike (l.likeness p) (m.fieldsOf o) (m'.fieldsOf o') := by
  rw [Machine.fieldsOf, Machine.fieldsOf, ← objects.identity_eq]
  rcases optionRel_cases (agree.fields o.identity) with
    ⟨table, table', found, found', alike⟩ | ⟨absent, absent'⟩
  · rw [found, found']
    exact alike
  · rw [absent, absent']
    exact tablesAlike_empty

theorem global (agree : l.Agree p m m') (name : String) :
    Option.Rel (l.Alike p) (m.forest.slot? Machine.globals name)
      (m'.forest.slot? Machine.globals name) :=
  agree.slots agree.outermost name

theorem ancestor?_eq (agree : l.Agree p m m') (depth : Nat) (frame : FrameId) :
    m.forest.ancestor? depth frame = m'.forest.ancestor? depth frame := by
  induction depth generalizing frame with
  | zero => rfl
  | succ depth ih =>
      rw [Forest.ancestor?, Forest.ancestor?, agree.enclosing?_eq]
      exact Option.bind_congr fun outer _ => ih outer

theorem ownerAt_eq (agree : l.Agree p m m') (depth : Nat) (frame : FrameId) :
    m.forest.ownerAt frame depth = m'.forest.ownerAt frame depth := by
  rw [Forest.ownerAt, Forest.ownerAt, agree.ancestor?_eq]

/-- Outward of a frame, names are spelled as is known at the frame. -/
theorem place_ancestor (agree : l.Agree p m m') (place : p[frame]? = some Γ) {depth : Nat}
    {owner : FrameId} (reached : m.forest.ancestor? depth frame = some owner) :
    p[owner]? = some (Γ.drop depth) := by
  induction depth generalizing frame Γ with
  | zero =>
      cases reached
      exact place
  | succ depth ih =>
      obtain ⟨outer, encloses, rest⟩ := Option.bind_eq_some_iff.mp reached
      rw [← List.drop_tail]
      exact ih (agree.outward encloses place) rest

/-- The frame that a binding leads to has the spelling of the scope that it leads to. -/
theorem place_ownerAt (agree : l.Agree p m m') (place : p[frame]? = some Γ) {depth : Nat}
    {owner : FrameId} (reached : m.forest.ownerAt frame depth = .ok owner) :
    p[owner]? = some (Γ.drop depth) := by
  refine agree.place_ancestor place ?_
  rw [Forest.ownerAt] at reached
  cases found : m.forest.ancestor? depth frame with
  | none =>
      rw [found] at reached
      cases reached
  | some other =>
      rw [found] at reached
      cases reached
      rfl

/--
The frame so many frames outward has alike values under corresponding names, or it is missing or
lacks them in both machines.
-/
theorem getAt (agree : l.Agree p m m') (place : p[frame]? = some Γ) (depth : Nat) (name : String) :
    (∃ value value', m.forest.getAt frame depth name = .ok value ∧
      m'.forest.getAt frame depth ((Γ.bound (some depth)).spell name) = .ok value' ∧
        l.Alike p value value') ∨
    ∃ breach breach', m.forest.getAt frame depth name = .error breach ∧
      m'.forest.getAt frame depth ((Γ.bound (some depth)).spell name) = .error breach' := by
  simp only [Forest.getAt, ← agree.ownerAt_eq]
  cases owned : m.forest.ownerAt frame depth with
  | error breach => exact .inr ⟨breach, breach, rfl, rfl⟩
  | ok owner =>
      have slots := agree.slots (agree.place_ownerAt place owned) name
      rw [Spellings.here_drop] at slots
      simp only [bind, Except.bind]
      rcases optionRel_cases slots with ⟨value, value', found, found', alike⟩ | ⟨absent, absent'⟩
      · rw [found, found']
        exact .inl ⟨value, value', rfl, rfl, alike⟩
      · rw [absent, absent']
        exact .inr ⟨_, _, rfl, rfl⟩

end Agree

namespace Stand

/-- Machines that have changed without leaving their frame still stand in it. -/
theorem keep {n n' : Machine} (stand : l.Stand p frame Γ m m') (grows : p <+: q)
    (agree : l.Agree q n n') (current : n.current = m.current)
    (current' : n'.current = m'.current) :
    l.Stand q frame Γ n n' where
  toAgree := agree
  current_eq := current.trans stand.current_eq
  current_eq' := current'.trans stand.current_eq'
  place := Places.at_of_grows grows stand.place

end Stand

end Ledgers

end Rill
