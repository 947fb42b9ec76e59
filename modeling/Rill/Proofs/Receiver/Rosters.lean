import Rill.Proofs.Machine.Invariant
import Rill.Proofs.Property.Declarations
import Rill.Proofs.Receiver.Frames
import Rill.Proofs.Syntax.Atoms

/-!
# Rosters

A roster knows the class of every instance that there is, the declaration of every class, and the
bindings of all code. A heap meets it if its frames are in order and all that it holds is: functions
are bound in their frames, those that initialize instances are in frames of `self`, instances have
the class that the roster says, and classes are as they have been declared. Every change that code
makes of a heap leaves one that meets the roster, or that meets it with one more instance or class
in it. No code has `self` for a name of its own.
-/

namespace Rill

/-! ## Names of code -/

/-- Nothing is declared or assigned to under `self`. -/
def Selfless (atoms : List Atom) : Prop := .name "self" ∉ atoms

theorem selfless_append {first second : List Atom} :
    Selfless (first ++ second) ↔ Selfless first ∧ Selfless second := by
  rw [Selfless, List.mem_append, not_or]
  rfl

theorem selfless_cons {a : Atom} {rest : List Atom} :
    Selfless (a :: rest) ↔ a ≠ .name "self" ∧ Selfless rest := by
  rw [Selfless, List.mem_cons, not_or]
  exact and_congr_left' ne_comm

theorem Selfless.name_ne {name : String} {rest : List Atom}
    (selfless : Selfless (.name name :: rest)) : name ≠ "self" :=
  fun same => (selfless_cons.mp selfless).1 (congrArg Atom.name same)

/-! ## What rosters admit -/

/-- The bindings of all code, the classes of all instances, and how classes have been declared. -/
structure Roster where
  ledger : Ledger
  classOf : Identity → Option Class
  declarationOf : Identity → Option ClassDeclaration

namespace Roster

/-- The roster with no instances and no classes. -/
def bare (ledger : Ledger) : Roster := ⟨ledger, fun _ => none, fun _ => none⟩

/-- The roster with one more instance. -/
def enroll (R : Roster) (identity : Identity) (c : Class) : Roster :=
  { R with classOf := fun other => if other = identity then some c else R.classOf other }

theorem enroll_self (R : Roster) (identity : Identity) (c : Class) :
    (R.enroll identity c).classOf identity = some c :=
  if_pos rfl

theorem enroll_of_ne (R : Roster) {identity other : Identity} (differs : other ≠ identity)
    (c : Class) : (R.enroll identity c).classOf other = R.classOf other :=
  if_neg differs

/-- The roster with one more class. -/
def declare (R : Roster) (d : ClassDeclaration) : Roster :=
  { R with
    declarationOf := fun other =>
      if other = d.made.identity then some d else R.declarationOf other }

theorem declare_self (R : Roster) (d : ClassDeclaration) :
    (R.declare d).declarationOf d.made.identity = some d :=
  if_pos rfl

theorem declare_of_ne (R : Roster) (d : ClassDeclaration) {other : Identity}
    (differs : other ≠ d.made.identity) :
    (R.declare d).declarationOf other = R.declarationOf other :=
  if_neg differs

/-- What one roster knows, so does the other. -/
structure Extends (R R' : Roster) : Prop where
  ledger : R.ledger.Extends R'.ledger
  classOf_eq : ∀ {identity c}, R.classOf identity = some c → R'.classOf identity = some c
  declarationOf_eq : ∀ {identity d}, R.declarationOf identity = some d →
    R'.declarationOf identity = some d

theorem Extends.refl (R : Roster) : R.Extends R := ⟨.refl _, id, id⟩

theorem Extends.of_ledger (R : Roster) {ledger : Ledger} (extends_ : R.ledger.Extends ledger) :
    R.Extends { R with ledger := ledger } :=
  ⟨extends_, id, id⟩

/-- A function is bound where it stands, in a frame of `self` if it initializes instances. -/
def AdmitsClosure (R : Roster) (forest : Forest) (c : Closure) : Prop :=
  ∃ scopes, forest.Seated scopes c.environment ∧ c.routine.Bound R.ledger scopes ∧
    Selfless c.routine.atoms ∧ (c.isInitializer = true → ∃ outer, scopes = selfScope :: outer)

/-- A method is bound inside a frame of `self` that is yet to be made where it stands. -/
def AdmitsMethod (R : Roster) (forest : Forest) (method : Closure) : Prop :=
  ∃ scopes, forest.Seated scopes method.environment ∧
    method.routine.Bound R.ledger (selfScope :: scopes) ∧ Selfless method.routine.atoms

/-- A class is as declared, and its methods are bound. -/
structure AdmitsClass (R : Roster) (forest : Forest) (c : Class) : Prop where
  declared : ∃ d, R.declarationOf c.identity = some d ∧ c = d.made
  methods : ∀ {name : String} {method : Closure}, c.methods[name]? = some method →
    R.AdmitsMethod forest method

/-- What values a heap may hold. -/
def Admits (R : Roster) (forest : Forest) : Value → Prop
  | .number _ | .string _ | .bool _ | .nil | .native _ => True
  | .closure c => R.AdmitsClosure forest c
  | .cls c => R.AdmitsClass forest c
  | .object o => R.classOf o.identity = some o.cls ∧ R.AdmitsClass forest o.cls

/-- A heap is in order, and all that it holds may be there. -/
structure Holds (R : Roster) (h : Heap) : Prop where
  tidy : h.forest.Tidy
  slots : ∀ {frame name v}, h.forest.slot? frame name = some v → R.Admits h.forest v
  fields : ∀ {identity : Identity} {name : String} {v}, (h.fieldsOf identity)[name]? = some v →
    R.Admits h.forest v
  given : ∀ {identity c}, R.classOf identity = some c → identity < h.nextIdentity
  declared : ∀ {identity d}, R.declarationOf identity = some d → identity < h.nextIdentity
  /-- Instances that are yet to be made have no fields. -/
  blank : ∀ {identity : Identity}, h.nextIdentity ≤ identity → ∀ name : String,
    (h.fieldsOf identity)[name]? = none

/-- A machine meets a roster. -/
structure Meets (R : Roster) (m : Machine) : Prop where
  holds : R.Holds m.heap
  bindings_eq : m.bindings = R.ledger.bindings

/--
A machine meets a roster where statements may stand among scopes. The code has surroundings, from
which the same `self` is seen.
-/
structure Stands (R : Roster) (m : Machine) (home : FrameId) (scopes : Scopes) : Prop
    extends R.Meets m where
  seated : m.forest.Seated scopes m.current
  isOpen : scopes.Open
  home_lt : home < m.forest.frames.size
  locate?_eq : m.forest.locate? "self" m.current = m.forest.locate? "self" home

/-- A machine goes on from another one, perhaps with more instances and classes. -/
structure Leads (R : Roster) (m : Machine) (R' : Roster) (m' : Machine) : Prop where
  stays : m.forest.Stays m'.forest
  ledger_eq : R'.ledger = R.ledger
  classOf_eq : ∀ {identity c}, R.classOf identity = some c → R'.classOf identity = some c
  declarationOf_eq : ∀ {identity d}, R.declarationOf identity = some d →
    R'.declarationOf identity = some d
  nextIdentity_le : m.nextIdentity ≤ m'.nextIdentity
  current_eq : m'.current = m.current

variable {R R' : Roster} {m m' : Machine} {home : FrameId} {forest later : Forest}
  {scopes : Scopes} {v : Value}

/-! ## What lasts -/

theorem Leads.refl (R : Roster) (m : Machine) : R.Leads m R m :=
  ⟨.refl _, rfl, id, id, Nat.le_refl _, rfl⟩

theorem Leads.trans {R₁ R₂ R₃ : Roster} {m₁ m₂ m₃ : Machine} (former : R₁.Leads m₁ R₂ m₂)
    (latter : R₂.Leads m₂ R₃ m₃) : R₁.Leads m₁ R₃ m₃ where
  stays := former.stays.trans latter.stays
  ledger_eq := latter.ledger_eq.trans former.ledger_eq
  classOf_eq known := latter.classOf_eq (former.classOf_eq known)
  declarationOf_eq known := latter.declarationOf_eq (former.declarationOf_eq known)
  nextIdentity_le := Nat.le_trans former.nextIdentity_le latter.nextIdentity_le
  current_eq := latter.current_eq.trans former.current_eq

/-- What is bound stays so. -/
theorem Leads.ledger (leads : R.Leads m R' m') : R.ledger.Extends R'.ledger := by
  rw [leads.ledger_eq]
  exact .refl _

theorem Leads.extends (leads : R.Leads m R' m') : R.Extends R' :=
  ⟨leads.ledger, leads.classOf_eq, leads.declarationOf_eq⟩

section Mono

variable (stays : forest.Stays later) (extends_ : R.Extends R')

include stays extends_

theorem AdmitsClosure.mono {c : Closure} (admits : R.AdmitsClosure forest c) :
    R'.AdmitsClosure later c := by
  obtain ⟨scopes, seated, bound, rest⟩ := admits
  exact ⟨scopes, seated.mono stays, bound.extend extends_.ledger, rest⟩

theorem AdmitsClass.mono {c : Class} (admits : R.AdmitsClass forest c) :
    R'.AdmitsClass later c where
  declared := by
    obtain ⟨d, known, same⟩ := admits.declared
    exact ⟨d, extends_.declarationOf_eq known, same⟩
  methods found := by
    obtain ⟨scopes, seated, bound, selfless⟩ := admits.methods found
    exact ⟨scopes, seated.mono stays, bound.extend extends_.ledger, selfless⟩

theorem Admits.mono (admits : R.Admits forest v) : R'.Admits later v := by
  cases v with
  | closure c => exact AdmitsClosure.mono stays extends_ admits
  | cls c => exact AdmitsClass.mono stays extends_ admits
  | object o => exact ⟨extends_.classOf_eq admits.1, admits.2.mono stays extends_⟩
  | _ => trivial

end Mono

theorem Admits.lead (leads : R.Leads m R' m') (admits : R.Admits m.forest v) :
    R'.Admits m'.forest v :=
  admits.mono leads.stays leads.extends

theorem Meets.tidy (meets : R.Meets m) : m.forest.Tidy := meets.holds.tidy

/-- What a frame sees of `self` stays the same. -/
theorem Leads.locate?_eq (leads : R.Leads m R' m') (meets : R.Meets m) {frame : FrameId}
    (old : frame < m.forest.frames.size) :
    m'.forest.locate? "self" frame = m.forest.locate? "self" frame :=
  leads.stays.locate?_eq meets.tidy.linked old

theorem Stands.lt_size (stands : R.Stands m home scopes) : m.current < m.forest.frames.size :=
  stands.seated.lt_size stands.holds.tidy

theorem Stands.vacant (stands : R.Stands m home scopes) : m.forest.slot? m.current "self" = none :=
  stands.seated.vacant stands.holds.tidy stands.isOpen

theorem Stands.lead (stands : R.Stands m home scopes) (leads : R.Leads m R' m')
    (meets : R'.Meets m') : R'.Stands m' home scopes where
  toMeets := meets
  seated := by
    rw [leads.current_eq]
    exact stands.seated.mono leads.stays
  isOpen := stands.isOpen
  home_lt := Nat.lt_of_lt_of_le stands.home_lt leads.stays.size_le
  locate?_eq := by
    rw [leads.current_eq, leads.locate?_eq stands.toMeets stands.lt_size, stands.locate?_eq,
      leads.locate?_eq stands.toMeets stands.home_lt]

/-- A name of the innermost scope may get another status. -/
theorem Stands.mark (stands : R.Stands m home scopes) {name : String} (other : name ≠ "self")
    (status : Status) : R.Stands m home (scopes.mark name status) where
  toMeets := stands.toMeets
  seated := stands.seated.mark stands.isOpen other status
  isOpen := stands.isOpen.mark other status
  home_lt := stands.home_lt
  locate?_eq := stands.locate?_eq

/-- Code that runs in a frame sees the `self` that the frame around it sees. -/
theorem Meets.stands_inside (meets : R.Meets m) {outer : FrameId}
    (seated : m.forest.Seated scopes m.current) (isOpen : scopes.Open)
    (encloses : m.forest.enclosing? m.current = some outer)
    (home_lt : home < m.forest.frames.size)
    (locate?_eq : m.forest.locate? "self" outer = m.forest.locate? "self" home) :
    R.Stands m home scopes where
  toMeets := meets
  seated := seated
  isOpen := isOpen
  home_lt := home_lt
  locate?_eq := by
    have tidy := meets.tidy
    rw [tidy.linked.locate?_eq, seated.vacant tidy isOpen, encloses]
    exact locate?_eq

/-! ## Changes of heaps -/

theorem holds_bare (ledger : Ledger) (sink : Sink) :
    (bare ledger).Holds (Machine.empty sink).heap where
  tidy := .globals
  slots found := nomatch (Forest.slot?_add ..).symm.trans found
  fields found := nomatch found
  given known := nomatch known
  declared known := nomatch known
  blank _ _ := rfl

namespace Holds

variable {h : Heap} {frame enclosing : FrameId} {name : String}

/-- What is bound stays so when there is more code. -/
theorem extend (holds : R.Holds h) {ledger : Ledger} (extends_ : R.ledger.Extends ledger) :
    Roster.Holds { R with ledger := ledger } h where
  tidy := holds.tidy
  slots found := (holds.slots found).mono (.refl _) (.of_ledger R extends_)
  fields found := (holds.fields found).mono (.refl _) (.of_ledger R extends_)
  given := holds.given
  declared := holds.declared
  blank := holds.blank

theorem addFrame (holds : R.Holds h) (present : enclosing < h.forest.frames.size) :
    R.Holds (h.addFrame enclosing) where
  tidy := holds.tidy.add present
  slots := by
    intro frame name v found
    have old : h.forest.slot? frame name = some v := (Forest.slot?_add ..).symm.trans found
    exact (holds.slots old).mono (.add _ _) (.refl R)
  fields found := (holds.fields found).mono (.add _ _) (.refl R)
  given := holds.given
  declared := holds.declared
  blank := holds.blank

theorem define (holds : R.Holds h) (present : frame < h.forest.frames.size)
    (vacant : h.forest.slot? frame "self" = none) (other : name ≠ "self")
    (admits : R.Admits h.forest v) : R.Holds (h.define frame name v) where
  tidy := holds.tidy.define present vacant other v
  slots := by
    intro here key u found
    have stays : h.forest.Stays (h.forest.define frame name v) := .define_of_ne other frame v
    rw [Heap.define, Forest.slot?_define _ _ _ _ present] at found
    split at found
    · cases found
      exact admits.mono stays (.refl R)
    · exact (holds.slots found).mono stays (.refl R)
  fields found := (holds.fields found).mono (.define_of_ne other frame v) (.refl R)
  given := holds.given
  declared := holds.declared
  blank := holds.blank

/-- To bind a method is to make a frame that holds an instance and nothing else. -/
theorem bind (holds : R.Holds h) (present : enclosing < h.forest.frames.size) {o : Object}
    (admits : R.Admits h.forest (.object o)) :
    R.Holds { h with forest := h.forest.bind enclosing o } where
  tidy := holds.tidy.bind present o
  slots := by
    intro frame name v found
    rw [Forest.slot?_bind] at found
    split at found
    · cases found
      exact admits.mono (.bind _ _ _) (.refl R)
    · exact (holds.slots found).mono (.bind _ _ _) (.refl R)
  fields found := (holds.fields found).mono (.bind _ _ _) (.refl R)
  given := holds.given
  declared := holds.declared
  blank := holds.blank

/-- Identities may be given out to nothing that is known. -/
theorem skip (holds : R.Holds h) {next : Identity} (later : h.nextIdentity ≤ next) :
    R.Holds { h with nextIdentity := next } where
  tidy := holds.tidy
  slots := holds.slots
  fields := holds.fields
  given known := Nat.lt_of_lt_of_le (holds.given known) later
  declared known := Nat.lt_of_lt_of_le (holds.declared known) later
  blank unmade := holds.blank (Nat.le_trans later unmade)

/-- A class that has been declared is known. -/
theorem extends_declare (holds : R.Holds h) {d : ClassDeclaration}
    (new : h.nextIdentity ≤ d.made.identity) : R.Extends (R.declare d) where
  ledger := .refl R.ledger
  classOf_eq := id
  declarationOf_eq known := by
    rw [R.declare_of_ne d (Nat.ne_of_lt (Nat.lt_of_lt_of_le (holds.declared known) new)), known]

theorem declare (holds : R.Holds h) {d : ClassDeclaration}
    (new : h.nextIdentity ≤ d.made.identity) :
    (R.declare d).Holds { h with nextIdentity := d.made.identity + 1 } where
  tidy := holds.tidy
  slots found := (holds.slots found).mono (.refl _) (holds.extends_declare new)
  fields found := (holds.fields found).mono (.refl _) (holds.extends_declare new)
  given known := Nat.lt_succ_of_lt (Nat.lt_of_lt_of_le (holds.given known) new)
  declared := by
    intro identity other known
    by_cases same : identity = d.made.identity
    · rw [same]
      exact Nat.lt_succ_self _
    · rw [R.declare_of_ne d same] at known
      exact Nat.lt_succ_of_lt (Nat.lt_of_lt_of_le (holds.declared known) new)
  blank unmade := holds.blank (Nat.le_trans new (Nat.le_of_succ_le unmade))

/-- An instance that has been made is known. -/
theorem extends_enroll (holds : R.Holds h) (c : Class) :
    R.Extends (R.enroll h.nextIdentity c) where
  ledger := .refl R.ledger
  classOf_eq known := by rw [R.enroll_of_ne (Nat.ne_of_lt (holds.given known)), known]
  declarationOf_eq := id

/-- A new instance is enrolled with its class. -/
theorem newObject (holds : R.Holds h) (c : Class) :
    (R.enroll h.nextIdentity c).Holds (h.skipIdentity.setFields h.nextIdentity ∅) where
  tidy := holds.tidy
  slots found := (holds.slots found).mono (.refl _) (holds.extends_enroll c)
  fields := by
    intro identity name v found
    rw [Heap.fieldsOf_setFields] at found
    split at found
    · rw [Std.TreeMap.getElem?_emptyc] at found
      cases found
    · exact (holds.fields found).mono (.refl _) (holds.extends_enroll c)
  given := by
    intro identity known found
    by_cases same : identity = h.nextIdentity
    · rw [same]
      exact Nat.lt_succ_self h.nextIdentity
    · rw [R.enroll_of_ne same] at found
      exact Nat.lt_succ_of_lt (holds.given found)
  declared known := Nat.lt_succ_of_lt (holds.declared known)
  blank := by
    intro identity unmade name
    rw [Heap.fieldsOf_setFields, if_neg (Nat.ne_of_gt unmade)]
    exact holds.blank (Nat.le_of_succ_le unmade) name

theorem setField (holds : R.Holds h) (admits : R.Admits h.forest v) {identity : Identity}
    (made : identity < h.nextIdentity) (name : String) :
    R.Holds (h.setFields identity ((h.fieldsOf identity).insert name v)) where
  tidy := holds.tidy
  slots := holds.slots
  fields := by
    intro other key u found
    rw [Heap.fieldsOf_setFields] at found
    split at found
    · rw [getElem?_insert_eq] at found
      split at found
      · cases found
        exact admits
      · exact holds.fields found
    · exact holds.fields found
  given := holds.given
  declared := holds.declared
  blank := by
    intro other unmade key
    rw [Heap.fieldsOf_setFields, if_neg (Nat.ne_of_gt (Nat.lt_of_lt_of_le made unmade))]
    exact holds.blank unmade key

end Holds

end Roster

/-! ## Registers -/

/-- What is true of frames, instances and classes once and for all. -/
structure Register where
  /-- The instance that a frame holds under `self`. -/
  instanceOf : FrameId → Option Object
  /-- The nearest frame of `self` that is seen from a frame. -/
  selfFrameOf : FrameId → Option FrameId
  /-- The class of an instance. -/
  classOf : Identity → Option Class
  /-- How a class has been declared. -/
  declarationOf : Identity → Option ClassDeclaration

namespace Register

/-- A class has been made, and is as declared. -/
def KnowsClass (r : Register) (m : Machine) (c : Class) : Prop :=
  c.identity < m.nextIdentity ∧ ∃ d, r.declarationOf c.identity = some d ∧ c = d.made

/-- What a value is made of is there: instances have their classes, and classes are as declared. -/
def Knows (r : Register) (m : Machine) : Value → Prop
  | .number _ | .string _ | .bool _ | .nil | .native _ | .closure _ => True
  | .cls c => r.KnowsClass m c
  | .object o => o.identity < m.nextIdentity ∧ r.classOf o.identity = some o.cls ∧
    r.KnowsClass m o.cls

/-- A machine is as a register says. -/
structure Describes (r : Register) (m : Machine) : Prop where
  /-- A frame that holds an instance has no other name than `self`. -/
  bound : ∀ frame < m.forest.frames.size, ∀ o, r.instanceOf frame = some o →
    ∀ name, m.forest.slot? frame name = if name = "self" then some (.object o) else none
  unbound : ∀ frame < m.forest.frames.size, r.instanceOf frame = none →
    m.forest.slot? frame "self" = none
  /-- A frame that holds no instance has the `self` of the frame that encloses it. -/
  sought : ∀ frame < m.forest.frames.size, m.forest.locate? "self" frame =
    if (r.instanceOf frame).isSome then some frame
    else (m.forest.enclosing? frame).bind (m.forest.locate? "self")
  seen : ∀ frame < m.forest.frames.size, m.forest.locate? "self" frame = r.selfFrameOf frame
  slots : ∀ frame name v, m.forest.slot? frame name = some v → r.Knows m v
  fields : ∀ (identity : Identity) (name : String) (v : Value),
    (m.heap.fieldsOf identity)[name]? = some v → r.Knows m v

/-- A register says what is true now. -/
structure Agrees (r : Register) (R : Roster) (m : Machine) : Prop where
  instanceOf_eq : ∀ frame < m.forest.frames.size, r.instanceOf frame = m.forest.instance? frame
  selfFrameOf_eq : ∀ frame < m.forest.frames.size,
    r.selfFrameOf frame = m.forest.locate? "self" frame
  classOf_eq : ∀ {identity c}, R.classOf identity = some c → r.classOf identity = some c
  declarationOf_eq : ∀ {identity d}, R.declarationOf identity = some d →
    r.declarationOf identity = some d

variable {r : Register} {R R' : Roster} {m m' : Machine} {v : Value}

/-- What is true at last has been true before. -/
theorem Agrees.earlier (leads : R.Leads m R' m') (meets : R.Meets m) (agrees : r.Agrees R' m') :
    r.Agrees R m where
  instanceOf_eq frame old := by
    rw [agrees.instanceOf_eq frame (Nat.lt_of_lt_of_le old leads.stays.size_le),
      leads.stays.instance?_eq old]
  selfFrameOf_eq frame old := by
    rw [agrees.selfFrameOf_eq frame (Nat.lt_of_lt_of_le old leads.stays.size_le),
      leads.locate?_eq meets old]
  classOf_eq known := agrees.classOf_eq (leads.classOf_eq known)
  declarationOf_eq known := agrees.declarationOf_eq (leads.declarationOf_eq known)

/-- Where code stands, the nearest frame of `self` is the one that is seen from its surroundings. -/
theorem Agrees.nearest (agrees : r.Agrees R m) {home : FrameId} {scopes : Scopes}
    (stands : R.Stands m home scopes) : m.forest.locate? "self" m.current = r.selfFrameOf home :=
  stands.locate?_eq.trans (agrees.selfFrameOf_eq home stands.home_lt).symm

theorem Agrees.knowsClass (agrees : r.Agrees R m) (holds : R.Holds m.heap) {c : Class}
    (admits : R.AdmitsClass m.forest c) : r.KnowsClass m c := by
  obtain ⟨d, known, same⟩ := admits.declared
  exact ⟨holds.declared known, d, agrees.declarationOf_eq known, same⟩

theorem Agrees.knows (agrees : r.Agrees R m) (holds : R.Holds m.heap)
    (admits : R.Admits m.forest v) : r.Knows m v := by
  cases v with
  | cls c => exact agrees.knowsClass holds admits
  | object o =>
      exact ⟨holds.given admits.1, agrees.classOf_eq admits.1, agrees.knowsClass holds admits.2⟩
  | _ => trivial

theorem Agrees.describes (agrees : r.Agrees R m) (holds : R.Holds m.heap) : r.Describes m where
  bound := by
    intro frame present o is name
    rw [agrees.instanceOf_eq frame present] at is
    cases found : m.forest.slot? frame "self" with
    | none =>
        rw [Forest.Tidy.instance?_eq_none found] at is
        cases is
    | some value =>
        obtain ⟨other, rfl, same⟩ := holds.tidy.instance?_eq_some found
        cases same.symm.trans is
        by_cases self : name = "self"
        · rw [if_pos self, self, found]
        · rw [if_neg self]
          exact holds.tidy.alone found name self
  unbound := by
    intro frame present isNone
    rw [agrees.instanceOf_eq frame present] at isNone
    cases found : m.forest.slot? frame "self" with
    | none => rfl
    | some value =>
        obtain ⟨o, -, is⟩ := holds.tidy.instance?_eq_some found
        cases isNone.symm.trans is
  sought := by
    intro frame present
    have tidy : m.forest.Tidy := holds.tidy
    rw [agrees.instanceOf_eq frame present, tidy.linked.locate?_eq]
    cases found : m.forest.slot? frame "self" with
    | none =>
        rw [Forest.Tidy.instance?_eq_none found]
        rfl
    | some value =>
        obtain ⟨o, -, is⟩ := tidy.instance?_eq_some found
        rw [is]
        rfl
  seen frame present := (agrees.selfFrameOf_eq frame present).symm
  slots _ _ _ found := agrees.knows holds (holds.slots found)
  fields _ _ _ found := agrees.knows holds (holds.fields found)

end Register

end Rill
