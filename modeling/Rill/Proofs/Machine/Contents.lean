import Rill.Session

/-!
# What values are made of

A value holds on to functions and instances: a function is one itself, a class has its methods, and
an instance its class. Nothing that operators or constants give holds on to any.
-/

namespace Rill

/-- Which functions, methods and instances values may be made of. -/
structure Parts where
  closures : Closure → Prop
  methods : Closure → Prop
  objects : Identity → Prop

/-- All parts of one kind are parts of the other. -/
structure Parts.Implies (parts other : Parts) : Prop where
  closures : ∀ {c}, parts.closures c → other.closures c
  methods : ∀ {c}, parts.methods c → other.methods c
  objects : ∀ {identity}, parts.objects identity → other.objects identity

variable {parts other : Parts}

/-- A class is made of its methods. -/
def Class.MadeOf (parts : Parts) (c : Class) : Prop :=
  ∀ (name : String) (method : Closure), c.methods[name]? = some method → parts.methods method

/-- What a value is made of. -/
def Value.MadeOf (parts : Parts) : Value → Prop
  | .number _ | .string _ | .bool _ | .nil | .native _ => True
  | .closure c => parts.closures c
  | .cls c => c.MadeOf parts
  | .object o => parts.objects o.identity ∧ o.cls.MadeOf parts

theorem Class.MadeOf.imp {c : Class} (made : c.MadeOf parts) (implies : parts.Implies other) :
    c.MadeOf other :=
  fun name method found => implies.methods (made name method found)

theorem Value.MadeOf.imp {v : Value} (made : v.MadeOf parts) (implies : parts.Implies other) :
    v.MadeOf other := by
  cases v with
  | closure c => exact implies.closures made
  | cls c => exact Class.MadeOf.imp made implies
  | object o => exact ⟨implies.objects made.1, made.2.imp implies⟩
  | _ => trivial

/-- What a statement hands on is made of such parts. -/
def Flow.MadeOf (parts : Parts) : Flow → Prop
  | .next => True
  | .exit value => value.MadeOf parts

/-! ## Constants and operators -/

theorem Value.madeOf_ofLiteral (parts : Parts) (value : Literal) :
    (Value.ofLiteral value).MadeOf parts := by
  cases value <;> trivial

theorem UnaryOp.madeOf_apply {operator : UnaryOp} {v result : Value} (parts : Parts)
    (applied : operator.apply v = .ok result) : result.MadeOf parts := by
  cases operator with
  | minus => cases v <;> cases applied; trivial
  | bang => cases applied; trivial

theorem BinaryOp.madeOf_applyNumbers (parts : Parts) (operator : BinaryOp) (a b : Number) :
    (operator.applyNumbers a b : Value).MadeOf parts := by
  cases operator <;> trivial

theorem BinaryOp.madeOf_apply {operator : BinaryOp} {v u result : Value} (parts : Parts)
    (applied : operator.apply v u = .ok result) : result.MadeOf parts := by
  unfold BinaryOp.apply at applied
  split at applied <;> cases applied
  · trivial
  · trivial
  · trivial
  · exact madeOf_applyNumbers parts operator _ _

/-! ## Functions of the host -/

/-- A host hands on what it is given, and nothing else that is made of anything. -/
def Hosting.HandsOn (host : Hosting) : Prop :=
  ∀ {call : Nat} {f : Native} {values : List Value} {answer : Value},
    host.answer call f values = .ok answer →
      ∀ parts : Parts, (∀ v ∈ values, v.MadeOf parts) → answer.MadeOf parts

theorem Hosting.handsOn_withClock (readings : Nat → Except String Number) :
    (Hosting.withClock readings).HandsOn := by
  intro call f values answer answered parts _
  simp only [withClock] at answered
  split at answered
  · cases read : readings call with
    | ok value =>
        rw [read] at answered
        cases answered
        trivial
    | error message =>
        rw [read] at answered
        cases answered
  · cases answered

end Rill
