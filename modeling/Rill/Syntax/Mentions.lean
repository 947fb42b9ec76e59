import Rill.Syntax.Tree

/-!
# Mentions of names

`mentions` lists the expressions of a tree that name a variable or `self`, in the order of the tree:
statements in order, the parts of a node from left to right, and an assignment behind its value.
-/

namespace Rill

/-- The ways in which an expression names something. -/
inductive MentionKind
  | read
  | write
  | self
deriving DecidableEq

/-- An expression that names a variable or `self`. -/
structure Mention where
  id : Occurrence
  kind : MentionKind
  name : Ident
deriving DecidableEq

/-- The numbers of mentions, in order. -/
def mentionIds (mentions : List Mention) : List Occurrence := mentions.map Mention.id

@[simp] theorem mentionIds_append (first second : List Mention) :
    mentionIds (first ++ second) = mentionIds first ++ mentionIds second :=
  List.map_append

@[simp] theorem mentionIds_nil : mentionIds [] = [] := rfl

@[simp] theorem mentionIds_cons (m : Mention) (rest : List Mention) :
    mentionIds (m :: rest) = m.id :: mentionIds rest := rfl

namespace Expr

mutual

/-- The mentions in an expression. -/
def mentions : Expr → List Mention
  | literal _ => []
  | unary _ operand _ => operand.mentions
  | binary left _ right _ => left.mentions ++ right.mentions
  | logical left _ right => left.mentions ++ right.mentions
  | group inner => inner.mentions
  | var id name => [⟨id, .read, name⟩]
  | assign id name value => value.mentions ++ [⟨id, .write, name⟩]
  | call callee arguments _ => callee.mentions ++ mentionsAll arguments
  | get object _ => object.mentions
  | set object _ value => object.mentions ++ value.mentions
  | selfRef id line => [⟨id, .self, ⟨"self", line⟩⟩]

/-- The mentions in expressions. -/
def mentionsAll : List Expr → List Mention
  | [] => []
  | e :: rest => e.mentions ++ mentionsAll rest

end

/-- The mentions in an expression that may be absent. -/
def mentionsOption : Option Expr → List Mention
  | some e => e.mentions
  | none => []

end Expr

/-- The mentions in the first value of a loop variable that may be absent. -/
def LoopVar.mentionsOption : Option LoopVar → List Mention
  | some counter => counter.value.mentions
  | none => []

namespace Stmt

mutual

/-- The mentions in a statement. -/
def mentions : Stmt → List Mention
  | expression value => value.mentions
  | print value => value.mentions
  | declare _ initializer => Expr.mentionsOption initializer
  | block body => mentionsAll body
  | function ⟨_, _, body⟩ => mentionsAll body
  | branch condition thenBody none => condition.mentions ++ mentionsAll thenBody
  | branch condition thenBody (some elseBody) =>
    condition.mentions ++ mentionsAll thenBody ++ mentionsAll elseBody
  | loop counter condition increment body =>
    LoopVar.mentionsOption counter ++ Expr.mentionsOption condition ++
      Expr.mentionsOption increment ++ mentionsAll body
  | exit _ value => Expr.mentionsOption value
  | classDef _ methods => mentionsMethods methods

/-- The mentions in statements. -/
def mentionsAll : List Stmt → List Mention
  | [] => []
  | s :: rest => s.mentions ++ mentionsAll rest

/-- The mentions in methods. -/
def mentionsMethods : List Routine → List Mention
  | [] => []
  | ⟨_, _, body⟩ :: rest => mentionsAll body ++ mentionsMethods rest

end

end Stmt

end Rill
