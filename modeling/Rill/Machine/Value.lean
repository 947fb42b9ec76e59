import Rill.Number.Notation
import Rill.Syntax.Tree
import Rill.Text.Quoted
import Std.Data.TreeMap

/-!
# Values

Functions, classes and instances have an identity, by which they are compared. What never changes
about them is part of the value; what changes, the slots of frames and the fields of instances, is
kept by the machine under the identities found here. A function also keeps the environment it was
declared in. For the machine that is a frame; nothing in this module depends on what it is.
-/

namespace Rill

/-- Names with what they stand for, in the order of the names. -/
abbrev Table (α : Type) := Std.TreeMap String α

/-- The identity of a frame. -/
abbrev FrameId := Nat

/-- The identity of a function, class or instance. -/
abbrev Identity := Nat

/-- A function: its declaration and the environment it was declared in. -/
structure Closure (ε : Type := FrameId) where
  identity : Identity
  routine : Routine
  environment : ε
  /-- Whether it is a method that initializes instances. -/
  isInitializer : Bool

variable {ε : Type}

namespace Closure

def name (c : Closure ε) : String := c.routine.name.name

/-- How many arguments a function takes. -/
def arity (c : Closure ε) : Nat := c.routine.params.length

end Closure

/-- A class: its name and its methods. -/
structure Class (ε : Type := FrameId) where
  identity : Identity
  name : String
  methods : Table (Closure ε)

namespace Class

/-- The method that runs on every new instance, if the class has one. -/
def initializer? (c : Class ε) : Option (Closure ε) := c.methods[initializerName]?

/-- Calling a class takes the arguments of its initializer, or none. -/
def arity (c : Class ε) : Nat :=
  match c.initializer? with
  | some initializer => initializer.arity
  | none => 0

end Class

/-- An instance of a class. Its fields are kept under its identity. -/
structure Object (ε : Type := FrameId) where
  identity : Identity
  cls : Class ε

/-- A function that the host provides, known by its name. -/
structure Native where
  name : String
  arity : Nat
deriving DecidableEq

/-- Values. -/
inductive Value (ε : Type := FrameId)
  | number (value : Number)
  | string (text : String)
  | bool (value : Bool)
  | nil
  | closure (closure : Closure ε)
  | native (native : Native)
  | cls (cls : Class ε)
  | object (object : Object ε)

instance : Inhabited (Value ε) := ⟨.nil⟩

namespace Value

/-- The value of a constant. -/
def ofLiteral : Literal → Value ε
  | .number value => .number value
  | .string text => .string text
  | .bool value => .bool value
  | .nil => .nil

/-- The name of a value's type. -/
def typeName : Value ε → String
  | number _ => "number"
  | string _ => "string"
  | bool _ => "bool"
  | nil => "nil"
  | closure _ | native _ => "function"
  | cls _ => "class"
  | object _ => "instance"

/-- The text of a value, as it is printed. -/
def text : Value ε → String
  | number value => value.valueText
  | string text => text
  | bool true => "true"
  | bool false => "false"
  | nil => "nil"
  | closure c => "<fn " ++ c.name ++ ">"
  | native f => "<native fn " ++ f.name ++ ">"
  | cls c => "<class " ++ c.name ++ ">"
  | object o => "<" ++ o.cls.name ++ " instance>"

/-- Whether a value counts as true: all but `nil` and `false` do. -/
def isTruthy : Value ε → Bool
  | nil => false
  | bool value => value
  | _ => true

/--
Equality of values. Numbers compare as numbers, texts by their characters, and functions, classes
and instances by identity; values of different types are never equal.
-/
def equals : Value ε → Value ε → Bool
  | number a, number b => a.equals b
  | string a, string b => a == b
  | bool a, bool b => a == b
  | nil, nil => true
  | closure a, closure b => a.identity == b.identity
  | native a, native b => decide (a = b)
  | cls a, cls b => a.identity == b.identity
  | object a, object b => a.identity == b.identity
  | _, _ => false

end Value

/-! ## Descriptions -/

/-- Names in brackets, quoted and in order. -/
def quotedNames (names : List String) : String :=
  "[" ++ ", ".intercalate (names.map quote) ++ "]"

/-- What a function is, in more detail than its text. -/
def Closure.description (c : Closure ε) : String :=
  "Function \x7b name: " ++ quote c.name ++ ", arity: " ++ toString c.arity ++
    ", is_initializer: " ++ toString c.isInitializer ++ ", .. \x7d"

/-- What a class is, in more detail than its text. -/
def Class.description (c : Class ε) : String :=
  "Class \x7b name: " ++ quote c.name ++ ", methods: " ++ quotedNames c.methods.keys ++ " \x7d"

/-- What an instance with the given fields is, in more detail than its text. -/
def Object.description (o : Object ε) (fields : Table (Value ε)) : String :=
  "Instance \x7b class: " ++ quote o.cls.name ++ ", fields: " ++ quotedNames fields.keys ++ " \x7d"

end Rill
