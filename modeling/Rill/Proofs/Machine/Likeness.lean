import Rill.Machine.Evaluation
import Rill.Proofs.Machine.Forest

/-!
# Alike values

Two runs that go on alike have values that are alike: numbers, texts and the like are the same, and
functions, classes and instances have one identity. What functions have in common besides is left
open; it is all that a likeness fixes. Nothing that operators or printing do tells alike values
apart.
-/

namespace Rill

variable {ε δ : Type}

/-- Two functions look the same from outside. -/
structure Closure.Resembles (c : Closure ε) (c' : Closure δ) : Prop where
  identity_eq : c.identity = c'.identity
  name_eq : c.name = c'.name
  arity_eq : c.arity = c'.arity
  isInitializer_eq : c.isInitializer = c'.isInitializer

/-- When two functions, or two methods of a class, count as alike. -/
structure Likeness (ε δ : Type) where
  closures : Closure ε → Closure δ → Prop
  methods : Closure ε → Closure δ → Prop
  closures_resemble : ∀ {c c'}, closures c c' → c.Resembles c'
  methods_resemble : ∀ {c c'}, methods c c' → c.Resembles c'

namespace Likeness

/-- What is alike in one sense is alike in the other. -/
structure Implies (likeness other : Likeness ε δ) : Prop where
  closures : ∀ {c c'}, likeness.closures c c' → other.closures c c'
  methods : ∀ {c c'}, likeness.methods c c' → other.methods c c'

theorem Implies.trans {first second third : Likeness ε δ} (former : first.Implies second)
    (latter : second.Implies third) : first.Implies third where
  closures alike := latter.closures (former.closures alike)
  methods alike := latter.methods (former.methods alike)

end Likeness

/-- Two classes are alike, with all their methods. -/
structure Class.Alike (likeness : Likeness ε δ) (c : Class ε) (c' : Class δ) : Prop where
  identity_eq : c.identity = c'.identity
  name_eq : c.name = c'.name
  methods : ∀ name : String, Option.Rel likeness.methods c.methods[name]? c'.methods[name]?

/-- Two instances are alike. -/
structure Object.Alike (likeness : Likeness ε δ) (o : Object ε) (o' : Object δ) : Prop where
  identity_eq : o.identity = o'.identity
  cls : o.cls.Alike likeness o'.cls

/-- Two values are alike. -/
inductive Value.Alike (likeness : Likeness ε δ) : Value ε → Value δ → Prop
  | number (value : Number) : Alike likeness (.number value) (.number value)
  | string (text : String) : Alike likeness (.string text) (.string text)
  | bool (value : Bool) : Alike likeness (.bool value) (.bool value)
  | nil : Alike likeness .nil .nil
  | closure {c : Closure ε} {c' : Closure δ} : likeness.closures c c' →
      Alike likeness (.closure c) (.closure c')
  | native (f : Native) : Alike likeness (.native f) (.native f)
  | cls {c : Class ε} {c' : Class δ} : c.Alike likeness c' → Alike likeness (.cls c) (.cls c')
  | object {o : Object ε} {o' : Object δ} : o.Alike likeness o' →
      Alike likeness (.object o) (.object o')

/-- Two tables have alike values under the same names. -/
def TablesAlike (likeness : Likeness ε δ) (table : Table (Value ε)) (table' : Table (Value δ)) :
    Prop :=
  ∀ name : String, Option.Rel (Value.Alike likeness) table[name]? table'[name]?

/-- Two lists have alike values, one by one. -/
inductive ValuesAlike (likeness : Likeness ε δ) : List (Value ε) → List (Value δ) → Prop
  | nil : ValuesAlike likeness [] []
  | cons {v : Value ε} {v' : Value δ} {values : List (Value ε)} {values' : List (Value δ)} :
      v.Alike likeness v' → ValuesAlike likeness values values' →
      ValuesAlike likeness (v :: values) (v' :: values')

variable {likeness other : Likeness ε δ}

/-! ## Other likenesses -/

/-- Options that are related stay so in a weaker sense. -/
theorem optionRel_mono {α β : Type} {r s : α → β → Prop} {a : Option α} {b : Option β}
    (rel : Option.Rel r a b) (implies : ∀ {a b}, r a b → s a b) : Option.Rel s a b := by
  cases rel with
  | some related => exact .some (implies related)
  | none => exact .none

/-- Of related options, both are there or none is. -/
theorem optionRel_cases {α β : Type} {r : α → β → Prop} {a : Option α} {b : Option β}
    (rel : Option.Rel r a b) :
    (∃ x y, a = some x ∧ b = some y ∧ r x y) ∨ a = none ∧ b = none := by
  cases rel with
  | some related => exact .inl ⟨_, _, rfl, rfl, related⟩
  | none => exact .inr ⟨rfl, rfl⟩

theorem Class.Alike.imp {c : Class ε} {c' : Class δ} (alike : c.Alike likeness c')
    (implies : likeness.Implies other) : c.Alike other c' where
  identity_eq := alike.identity_eq
  name_eq := alike.name_eq
  methods name := optionRel_mono (alike.methods name) implies.methods

theorem Object.Alike.imp {o : Object ε} {o' : Object δ} (alike : o.Alike likeness o')
    (implies : likeness.Implies other) : o.Alike other o' where
  identity_eq := alike.identity_eq
  cls := alike.cls.imp implies

theorem Value.Alike.imp {v : Value ε} {v' : Value δ} (alike : v.Alike likeness v')
    (implies : likeness.Implies other) : v.Alike other v' := by
  cases alike with
  | number value => exact .number value
  | string text => exact .string text
  | bool value => exact .bool value
  | nil => exact .nil
  | closure related => exact .closure (implies.closures related)
  | native f => exact .native f
  | cls related => exact .cls (related.imp implies)
  | object related => exact .object (related.imp implies)

theorem TablesAlike.imp {table : Table (Value ε)} {table' : Table (Value δ)}
    (alike : TablesAlike likeness table table') (implies : likeness.Implies other) :
    TablesAlike other table table' :=
  fun name => optionRel_mono (alike name) fun related => related.imp implies

theorem ValuesAlike.imp {values : List (Value ε)} {values' : List (Value δ)}
    (alike : ValuesAlike likeness values values') (implies : likeness.Implies other) :
    ValuesAlike other values values' := by
  induction alike with
  | nil => exact .nil
  | cons first _ ih => exact .cons (first.imp implies) ih

theorem ValuesAlike.length_eq {values : List (Value ε)} {values' : List (Value δ)}
    (alike : ValuesAlike likeness values values') : values.length = values'.length := by
  induction alike with
  | nil => rfl
  | cons _ _ ih => rw [List.length_cons, List.length_cons, ih]

/-! ## Likeness to oneself -/

/-- What is alike to anything in one sense is alike to itself in the other. -/
structure Likeness.Reflects (likeness : Likeness ε δ) (own : Likeness ε ε) : Prop where
  closures : ∀ {c c'}, likeness.closures c c' → own.closures c c
  methods : ∀ {c c'}, likeness.methods c c' → own.methods c c

theorem optionRel_reflect {α β : Type} {r : α → β → Prop} {s : α → α → Prop} {a : Option α}
    {b : Option β} (rel : Option.Rel r a b) (reflects : ∀ {a b}, r a b → s a a) :
    Option.Rel s a a := by
  cases rel with
  | some related => exact .some (reflects related)
  | none => exact .none

section Reflection

variable {own : Likeness ε ε} (reflects : likeness.Reflects own)

include reflects

theorem Class.Alike.reflect {c : Class ε} {c' : Class δ} (alike : c.Alike likeness c') :
    c.Alike own c :=
  ⟨rfl, rfl, fun name => optionRel_reflect (alike.methods name) reflects.methods⟩

theorem Value.Alike.reflect {v : Value ε} {v' : Value δ} (alike : v.Alike likeness v') :
    v.Alike own v := by
  cases alike with
  | number value => exact .number value
  | string text => exact .string text
  | bool value => exact .bool value
  | nil => exact .nil
  | closure related => exact .closure (reflects.closures related)
  | native f => exact .native f
  | cls related => exact .cls (related.reflect reflects)
  | object related => exact .object ⟨rfl, related.cls.reflect reflects⟩

theorem TablesAlike.reflect {table : Table (Value ε)} {table' : Table (Value δ)}
    (alike : TablesAlike likeness table table') : TablesAlike own table table :=
  fun name => optionRel_reflect (alike name) fun related => related.reflect reflects

end Reflection

/-! ## Tables -/

/-- Related tables stay so with one more related entry. -/
theorem optionRel_insert {κ α β : Type} [Ord κ] [Std.TransOrd κ] [Std.LawfulEqOrd κ]
    [DecidableEq κ] {r : α → β → Prop} {table : Std.TreeMap κ α} {table' : Std.TreeMap κ β}
    (rel : ∀ key : κ, Option.Rel r table[key]? table'[key]?) (key : κ) {a : α} {b : β}
    (related : r a b) (other : κ) :
    Option.Rel r (table.insert key a)[other]? (table'.insert key b)[other]? := by
  rw [getElem?_insert_eq, getElem?_insert_eq]
  by_cases same : other = key
  · rw [if_pos same, if_pos same]
    exact .some related
  · rw [if_neg same, if_neg same]
    exact rel other

theorem tablesAlike_empty : TablesAlike likeness ∅ ∅ := by
  intro name
  rw [Std.TreeMap.getElem?_emptyc, Std.TreeMap.getElem?_emptyc]
  exact .none

theorem TablesAlike.insert {table : Table (Value ε)} {table' : Table (Value δ)} {v : Value ε}
    {v' : Value δ} (alike : TablesAlike likeness table table') (name : String)
    (related : v.Alike likeness v') :
    TablesAlike likeness (table.insert name v) (table'.insert name v') :=
  optionRel_insert alike name related

/-! ## What does not tell alike values apart -/

namespace Class.Alike

variable {c : Class ε} {c' : Class δ}

theorem initializer? (alike : c.Alike likeness c') :
    Option.Rel likeness.methods c.initializer? c'.initializer? :=
  alike.methods initializerName

theorem arity_eq (alike : c.Alike likeness c') : c.arity = c'.arity := by
  unfold Class.arity
  rcases optionRel_cases alike.initializer? with
    ⟨method, method', first, second, related⟩ | ⟨first, second⟩
  · rw [first, second]
    exact (likeness.methods_resemble related).arity_eq
  · rw [first, second]

end Class.Alike

namespace Value.Alike

variable {v u : Value ε} {v' u' : Value δ}

theorem text_eq (alike : v.Alike likeness v') : v.text = v'.text := by
  cases alike with
  | closure related => simp only [Value.text, (likeness.closures_resemble related).name_eq]
  | cls related => simp only [Value.text, related.name_eq]
  | object related => simp only [Value.text, related.cls.name_eq]
  | bool value => cases value <;> rfl
  | _ => rfl

theorem isTruthy_eq (alike : v.Alike likeness v') : v.isTruthy = v'.isTruthy := by
  cases alike <;> rfl

theorem arity?_eq (alike : v.Alike likeness v') : Run.arity? v = Run.arity? v' := by
  cases alike with
  | closure related => simp only [Run.arity?, (likeness.closures_resemble related).arity_eq]
  | cls related => simp only [Run.arity?, related.arity_eq]
  | _ => rfl

theorem equals_eq (first : v.Alike likeness v') (second : u.Alike likeness u') :
    v.equals u = v'.equals u' := by
  cases first with
  | closure left =>
      cases second with
      | closure right =>
          simp only [Value.equals, (likeness.closures_resemble left).identity_eq,
            (likeness.closures_resemble right).identity_eq]
      | _ => rfl
  | cls left =>
      cases second with
      | cls right => simp only [Value.equals, left.identity_eq, right.identity_eq]
      | _ => rfl
  | object left =>
      cases second with
      | object right => simp only [Value.equals, left.identity_eq, right.identity_eq]
      | _ => rfl
  | _ => cases second <;> rfl

end Value.Alike

/-- Two results of operators are alike, or break the same rule. -/
inductive ResultsAlike (likeness : Likeness ε δ) :
    Except OperandRule (Value ε) → Except OperandRule (Value δ) → Prop
  | ok {v : Value ε} {v' : Value δ} : v.Alike likeness v' →
      ResultsAlike likeness (.ok v) (.ok v')
  | error (rule : OperandRule) : ResultsAlike likeness (.error rule) (.error rule)

theorem UnaryOp.apply_alike (operator : UnaryOp) {v : Value ε} {v' : Value δ}
    (alike : v.Alike likeness v') :
    ResultsAlike likeness (operator.apply v) (operator.apply v') := by
  cases operator with
  | minus =>
      cases alike with
      | number value => exact .ok (.number _)
      | _ => exact .error _
  | bang =>
      simp only [UnaryOp.apply, alike.isTruthy_eq]
      exact .ok (.bool _)

theorem BinaryOp.applyNumbers_alike (operator : BinaryOp) (a b : Number) :
    Value.Alike likeness (operator.applyNumbers a b) (operator.applyNumbers a b) := by
  cases operator with
  | plus | minus | star | slash => exact .number _
  | _ => exact .bool _

theorem BinaryOp.apply_alike (operator : BinaryOp) {v u : Value ε} {v' u' : Value δ}
    (first : v.Alike likeness v') (second : u.Alike likeness u') :
    ResultsAlike likeness (operator.apply v u) (operator.apply v' u') := by
  cases operator with
  | equalEqual =>
      simp only [BinaryOp.apply, first.equals_eq second]
      exact .ok (.bool _)
  | bangEqual =>
      simp only [BinaryOp.apply, first.equals_eq second]
      exact .ok (.bool _)
  | plus =>
      cases first with
      | number a =>
          cases second with
          | number b => exact .ok (.number _)
          | _ => exact .error _
      | string a =>
          cases second with
          | string b => exact .ok (.string _)
          | _ => exact .error _
      | _ => cases second <;> exact .error _
  | _ =>
      cases first with
      | number a =>
          cases second with
          | number b => exact .ok (BinaryOp.applyNumbers_alike _ a b)
          | _ => exact .error _
      | _ => cases second <;> exact .error _

theorem LogicalOp.isDecidedBy_eq (operator : LogicalOp) {v : Value ε} {v' : Value δ}
    (alike : v.Alike likeness v') : operator.isDecidedBy v = operator.isDecidedBy v' := by
  cases operator <;> simp only [LogicalOp.isDecidedBy, alike.isTruthy_eq]

end Rill
