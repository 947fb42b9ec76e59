import Rill.Proofs.Machine.Appearance

/-!
# Values under other identities

Two runs that make the same functions, classes and instances in another order give them other
identities. A relabelling tells which identity of the second run stands for one of the first. Values
that differ in their identities alone cannot be told apart: they print the same, operators treat
them the same, and two of them are equal in one run if their counterparts are in the other.
-/

namespace Rill

/--
Which identities of a second run stand for those of a first one. Identities are given out in order,
and from some point on they are the same in both.
-/
structure Relabelling where
  label : Identity → Identity
  injective : ∀ {i j : Identity}, label i = label j → i = j
  /-- From here on, identities are the same. -/
  limit : Identity
  label_of_le : ∀ {i : Identity}, limit ≤ i → label i = i

namespace Relabelling

/-- All identities are the same. -/
def same : Relabelling where
  label i := i
  injective equal := equal
  limit := 0
  label_of_le _ := rfl

theorem beq_label (π : Relabelling) (i j : Identity) : (π.label i == π.label j) = (i == j) := by
  rw [Bool.eq_iff_iff, beq_iff_eq, beq_iff_eq]
  exact ⟨π.injective, congrArg π.label⟩

/-- Identities from before the same ones are relabelled among each other. -/
theorem label_lt (π : Relabelling) {next i : Identity} (past : π.limit ≤ next) (lt : i < next) :
    π.label i < next := by
  refine Nat.lt_of_not_le fun le => ?_
  have fixed : π.label (π.label i) = π.label i := π.label_of_le (Nat.le_trans past le)
  rw [π.injective fixed] at le
  exact Nat.not_lt.mpr le lt

end Relabelling

/-! ## Relabelled values -/

section Relabelled

variable (π : Relabelling) (next : Identity)

/-- A function that was made before some identity was given out has another identity instead. -/
structure Closure.Relabelled (c c' : Closure) : Prop where
  lt : c.identity < next
  eq : c' = { c with identity := π.label c.identity }

/-- Two tables of methods have relabelled functions under the same names. -/
def MethodsRelabelled (table table' : Table Closure) : Prop :=
  ∀ name : String, Option.Rel (Closure.Relabelled π next) table[name]? table'[name]?

/-- A class and its methods have other identities instead. -/
structure Class.Relabelled (c c' : Class) : Prop where
  lt : c.identity < next
  identity_eq : c'.identity = π.label c.identity
  name_eq : c.name = c'.name
  methods : MethodsRelabelled π next c.methods c'.methods

/-- An instance and its class have other identities instead. -/
structure Object.Relabelled (o o' : Object) : Prop where
  lt : o.identity < next
  identity_eq : o'.identity = π.label o.identity
  cls : o.cls.Relabelled π next o'.cls

/-- What a value is made of has other identities instead. -/
inductive Value.Relabelled : Value → Value → Prop
  | number (value : Number) : Relabelled (.number value) (.number value)
  | string (text : String) : Relabelled (.string text) (.string text)
  | bool (value : Bool) : Relabelled (.bool value) (.bool value)
  | nil : Relabelled .nil .nil
  | closure {c c' : Closure} : c.Relabelled π next c' → Relabelled (.closure c) (.closure c')
  | native (f : Native) : Relabelled (.native f) (.native f)
  | cls {c c' : Class} : c.Relabelled π next c' → Relabelled (.cls c) (.cls c')
  | object {o o' : Object} : o.Relabelled π next o' → Relabelled (.object o) (.object o')

/-- Two tables have relabelled values under the same names. -/
def TablesRelabelled (table table' : Table Value) : Prop :=
  ∀ name : String, Option.Rel (Value.Relabelled π next) table[name]? table'[name]?

/-- Two lists have relabelled values, one by one. -/
inductive ValuesRelabelled : List Value → List Value → Prop
  | nil : ValuesRelabelled [] []
  | cons {v v' : Value} {values values' : List Value} : v.Relabelled π next v' →
      ValuesRelabelled values values' → ValuesRelabelled (v :: values) (v' :: values')

/-- What a statement hands on is relabelled. -/
inductive Flow.Relabelled : Flow → Flow → Prop
  | next : Relabelled .next .next
  | exit {v v' : Value} : v.Relabelled π next v' → Relabelled (.exit v) (.exit v')

end Relabelled

variable {π ρ : Relabelling} {next later : Identity}

/-! ## Other relabellings -/

/-- A relabelling that says the same of all identities before some one, or of more of them. -/
structure Relabelling.Covers (π : Relabelling) (next : Identity) (ρ : Relabelling)
    (later : Identity) : Prop where
  le : next ≤ later
  label_eq : ∀ {i : Identity}, i < next → ρ.label i = π.label i

theorem Relabelling.covers_of_le (π : Relabelling) (le : next ≤ later) :
    π.Covers next π later :=
  ⟨le, fun _ => rfl⟩

section Covering

variable (covers : π.Covers next ρ later)

include covers

theorem Closure.Relabelled.cover {c c' : Closure} (related : c.Relabelled π next c') :
    c.Relabelled ρ later c' where
  lt := Nat.lt_of_lt_of_le related.lt covers.le
  eq := by rw [covers.label_eq related.lt, related.eq]

theorem MethodsRelabelled.cover {table table' : Table Closure}
    (related : MethodsRelabelled π next table table') : MethodsRelabelled ρ later table table' :=
  fun name => optionRel_mono (related name) (Closure.Relabelled.cover covers)

theorem Class.Relabelled.cover {c c' : Class} (related : c.Relabelled π next c') :
    c.Relabelled ρ later c' where
  lt := Nat.lt_of_lt_of_le related.lt covers.le
  identity_eq := by rw [covers.label_eq related.lt, related.identity_eq]
  name_eq := related.name_eq
  methods := related.methods.cover covers

theorem Object.Relabelled.cover {o o' : Object} (related : o.Relabelled π next o') :
    o.Relabelled ρ later o' where
  lt := Nat.lt_of_lt_of_le related.lt covers.le
  identity_eq := by rw [covers.label_eq related.lt, related.identity_eq]
  cls := related.cls.cover covers

theorem Value.Relabelled.cover {v v' : Value} (related : v.Relabelled π next v') :
    v.Relabelled ρ later v' := by
  cases related with
  | number value => exact .number value
  | string text => exact .string text
  | bool value => exact .bool value
  | nil => exact .nil
  | closure related => exact .closure (related.cover covers)
  | native f => exact .native f
  | cls related => exact .cls (related.cover covers)
  | object related => exact .object (related.cover covers)

theorem TablesRelabelled.cover {table table' : Table Value}
    (related : TablesRelabelled π next table table') : TablesRelabelled ρ later table table' :=
  fun name => optionRel_mono (related name) (Value.Relabelled.cover covers)

theorem ValuesRelabelled.cover {values values' : List Value}
    (related : ValuesRelabelled π next values values') :
    ValuesRelabelled ρ later values values' := by
  induction related with
  | nil => exact .nil
  | cons first _ ih => exact .cons (first.cover covers) ih

end Covering

/-! ## Tables and lists -/

theorem optionRel_empty {α β : Type} {r : α → β → Prop} (name : String) :
    Option.Rel r (∅ : Table α)[name]? (∅ : Table β)[name]? := by
  rw [Std.TreeMap.getElem?_emptyc, Std.TreeMap.getElem?_emptyc]
  exact .none

theorem tablesRelabelled_empty : TablesRelabelled π next ∅ ∅ := optionRel_empty

theorem methodsRelabelled_empty : MethodsRelabelled π next ∅ ∅ := optionRel_empty

theorem TablesRelabelled.insert {table table' : Table Value} {v v' : Value}
    (related : TablesRelabelled π next table table') (name : String)
    (value : v.Relabelled π next v') :
    TablesRelabelled π next (table.insert name v) (table'.insert name v') :=
  optionRel_insert related name value

theorem MethodsRelabelled.insert {table table' : Table Closure} {c c' : Closure}
    (related : MethodsRelabelled π next table table') (name : String)
    (method : c.Relabelled π next c') :
    MethodsRelabelled π next (table.insert name c) (table'.insert name c') :=
  optionRel_insert related name method

theorem ValuesRelabelled.length_eq {values values' : List Value}
    (related : ValuesRelabelled π next values values') : values.length = values'.length := by
  induction related with
  | nil => rfl
  | cons _ _ ih => rw [List.length_cons, List.length_cons, ih]

/-! ## What does not tell relabelled values apart -/

namespace Class.Relabelled

variable {c c' : Class}

theorem initializer? (related : c.Relabelled π next c') :
    Option.Rel (Closure.Relabelled π next) c.initializer? c'.initializer? :=
  related.methods initializerName

theorem arity_eq (related : c.Relabelled π next c') : c.arity = c'.arity := by
  unfold Class.arity
  rcases optionRel_cases related.initializer? with
    ⟨method, method', first, second, ⟨_, rfl⟩⟩ | ⟨first, second⟩
  · rw [first, second]
    rfl
  · rw [first, second]

theorem description_eq (related : c.Relabelled π next c') : c.description = c'.description := by
  unfold Class.description
  rw [related.name_eq, keys_eq_of_optionRel related.methods]

end Class.Relabelled

theorem Closure.Relabelled.description_eq {c c' : Closure} (related : c.Relabelled π next c') :
    c.description = c'.description := by
  rw [related.eq]
  rfl

theorem Object.Relabelled.description_eq {o o' : Object} (related : o.Relabelled π next o')
    {fields fields' : Table Value} (same : TablesRelabelled π next fields fields') :
    o.description fields = o'.description fields' := by
  unfold Object.description
  rw [related.cls.name_eq, keys_eq_of_optionRel same]

namespace Value.Relabelled

variable {v v' u u' : Value}

theorem typeName_eq (related : v.Relabelled π next v') : v.typeName = v'.typeName := by
  cases related <;> rfl

theorem text_eq (related : v.Relabelled π next v') : v.text = v'.text := by
  cases related with
  | closure related =>
      rw [related.eq]
      rfl
  | cls related => simp only [Value.text, related.name_eq]
  | object related => simp only [Value.text, related.cls.name_eq]
  | _ => rfl

theorem isTruthy_eq (related : v.Relabelled π next v') : v.isTruthy = v'.isTruthy := by
  cases related <;> rfl

theorem arity?_eq (related : v.Relabelled π next v') : Run.arity? v = Run.arity? v' := by
  cases related with
  | closure related =>
      rw [related.eq]
      rfl
  | cls related => simp only [Run.arity?, related.arity_eq]
  | _ => rfl

/-- Values are equal in one run if and only if their counterparts are in the other. -/
theorem equals_eq (first : v.Relabelled π next v') (second : u.Relabelled π next u') :
    v.equals u = v'.equals u' := by
  cases first with
  | closure left =>
      cases second with
      | closure right => simp only [Value.equals, left.eq, right.eq, π.beq_label]
      | _ => rfl
  | cls left =>
      cases second with
      | cls right => simp only [Value.equals, left.identity_eq, right.identity_eq, π.beq_label]
      | _ => rfl
  | object left =>
      cases second with
      | object right => simp only [Value.equals, left.identity_eq, right.identity_eq, π.beq_label]
      | _ => rfl
  | _ => cases second <;> rfl

/-- A value without identities is its own counterpart. -/
theorem ofLiteral (value : Literal) :
    (Value.ofLiteral value).Relabelled π next (.ofLiteral value) := by
  cases value with
  | number value => exact .number value
  | string text => exact .string text
  | bool value => exact .bool value
  | nil => exact .nil

/-- Values that are relabelled look the same, if the fields of instances are relabelled too. -/
theorem look_eq {m m' : Machine} (related : v.Relabelled π next v')
    (fieldsOf : ∀ {o o' : Object}, o.Relabelled π next o' →
      TablesRelabelled π next (m.fieldsOf o) (m'.fieldsOf o')) :
    m.look v = m'.look v' := by
  have described : m.describe? v = m'.describe? v' := by
    cases related with
    | closure related => exact congrArg some related.description_eq
    | cls related => exact congrArg some related.description_eq
    | object related => exact congrArg some (related.description_eq (fieldsOf related))
    | _ => rfl
  rw [Machine.look, Machine.look, related.typeName_eq, related.text_eq, described]

end Value.Relabelled

/-! ## Operators -/

/-- Two results of operators are relabelled, or break the same rule. -/
inductive ResultsRelabelled (π : Relabelling) (next : Identity) :
    Except OperandRule Value → Except OperandRule Value → Prop
  | ok {v v' : Value} : v.Relabelled π next v' → ResultsRelabelled π next (.ok v) (.ok v')
  | error (rule : OperandRule) : ResultsRelabelled π next (.error rule) (.error rule)

theorem UnaryOp.apply_relabelled (operator : UnaryOp) {v v' : Value}
    (related : v.Relabelled π next v') :
    ResultsRelabelled π next (operator.apply v) (operator.apply v') := by
  cases operator with
  | minus =>
      cases related with
      | number value => exact .ok (.number _)
      | _ => exact .error _
  | bang =>
      simp only [UnaryOp.apply, related.isTruthy_eq]
      exact .ok (.bool _)

theorem BinaryOp.applyNumbers_relabelled (operator : BinaryOp) (a b : Number) :
    Value.Relabelled π next (operator.applyNumbers a b) (operator.applyNumbers a b) := by
  cases operator with
  | plus | minus | star | slash => exact .number _
  | _ => exact .bool _

theorem BinaryOp.apply_relabelled (operator : BinaryOp) {v v' u u' : Value}
    (first : v.Relabelled π next v') (second : u.Relabelled π next u') :
    ResultsRelabelled π next (operator.apply v u) (operator.apply v' u') := by
  cases operator with
  | equalEqual | bangEqual =>
      simp only [BinaryOp.apply, first.equals_eq second]
      exact .ok (.bool _)
  | plus =>
      cases first with
      | number a =>
          cases second with
          | number b => exact .ok (.number _)
          | _ => exact .error _
      | string a =>
          cases second with
          | string b => exact .ok (.string _)
          | _ => exact .error _
      | _ => cases second <;> exact .error _
  | _ =>
      cases first with
      | number a =>
          cases second with
          | number b => exact .ok (applyNumbers_relabelled _ a b)
          | _ => exact .error _
      | _ => cases second <;> exact .error _

theorem LogicalOp.isDecidedBy_relabelled (operator : LogicalOp) {v v' : Value}
    (related : v.Relabelled π next v') : operator.isDecidedBy v = operator.isDecidedBy v' := by
  cases operator <;> simp only [LogicalOp.isDecidedBy, related.isTruthy_eq]

end Rill
