import Rill.Syntax.Program

/-!
# The grammar

The grammar says which token sequences are programs and what tree each of them stands for, without
saying how it is found. A phrase stands between two places of a token sequence: every rule relates
the place where a phrase begins, the tree it stands for, and the place behind it. A place is a
cursor, so it also tells which occurrence is given out next; the rules number occurrences in the
order of the tokens, an assignment behind its value.

```
program     → body EOF
body        → NEWLINE* ( declaration NEWLINE* )*
declaration → class | "fn" routine | "let" IDENT ( "=" expression )? end | statement
class       → "class" IDENT "{" NEWLINE* ( "fn" routine NEWLINE* )* "}"
routine     → IDENT "(" ( IDENT ( "," IDENT )* )? ")" block
statement   → "print" expression end | conditional | loop | "return" expression? end | block
            | expression end
conditional → "if" expression block ( NEWLINE* "else" ( conditional | block ) )?
loop        → "for" counter? ";" expression? ";" expression? block
counter     → "let"? IDENT "=" expression
block       → "{" body "}"
expression  → ( call "." )? IDENT "=" expression | operands 0
operands n  → operands (n + 1) ( connective n operands (n + 1) )*, where operands 6 is signed
signed      → ( "!" | "-" ) signed | call
call        → primary ( "(" arguments ")" | "." IDENT )*
arguments   → NEWLINE* ( expression ( NEWLINE* "," NEWLINE* expression )* NEWLINE* )?
primary     → NUMBER | STRING | "true" | "false" | "nil" | "self" | IDENT
            | "(" NEWLINE* expression NEWLINE* ")"
end         → NEWLINE | ";" | nothing, directly before "}" or EOF
```

Parameters and arguments number at most `Grammar.maximum`.
-/

namespace Rill

namespace Cursor

/-- A token of a kind stands at one place, and the other place is right behind it. -/
inductive Reads (kind : Kind) : Cursor → Token → Cursor → Prop
  | next {t : Token} {rest : List Token} {endLine : Nat} {fresh : Occurrence} :
      t.kind = kind → Reads kind ⟨t :: rest, endLine, fresh⟩ t ⟨rest, endLine, fresh⟩

/-- The same place when one more occurrence has been given out. -/
def numbered (c : Cursor) : Cursor := { c with fresh := c.fresh + 1 }

end Cursor

/-- The name that a token stands for. -/
def Token.ident (t : Token) : Ident := ⟨t.lexeme, t.line⟩

namespace Grammar

/-- How many parameters or arguments one pair of parentheses may hold. -/
def maximum : Nat := 255

/-- Any number of line breaks. -/
inductive Newlines : Cursor → Cursor → Prop
  | none {c : Cursor} : Newlines c c
  | more {c c₁ c₂ : Cursor} {t : Token} :
      c.Reads .newline t c₁ → Newlines c₁ c₂ → Newlines c c₂

/-- The end of a statement. -/
inductive Ending : Cursor → Cursor → Prop
  | newline {c c₁ : Cursor} {t : Token} : c.Reads .newline t c₁ → Ending c c₁
  | semicolon {c c₁ : Cursor} {t : Token} : c.Reads (.mark .semicolon) t c₁ → Ending c c₁
  | beforeBrace {c c₁ : Cursor} {t : Token} : c.Reads (.mark .rightBrace) t c₁ → Ending c c
  | beforeEnd {c : Cursor} : c.upcoming = [] → Ending c c

/-- A phrase that may be absent. -/
inductive Perhaps {α : Type} (phrase : Cursor → α → Cursor → Prop) :
    Cursor → Option α → Cursor → Prop
  | absent {c : Cursor} : Perhaps phrase c none c
  | present {c c₁ : Cursor} {a : α} : phrase c a c₁ → Perhaps phrase c (some a) c₁

/-! ## Expressions -/

/--
The strength of an operator between operands, if a token is one, and the tree it makes of two
operands. Of two operators the stronger one binds tighter.
-/
def connective? (t : Token) : Option (Nat × (Expr → Expr → Expr)) :=
  match t.kind with
  | .keyword .orWord => some (0, (.logical · .or ·))
  | .keyword .andWord => some (1, (.logical · .and ·))
  | .mark .bangEqual => some (2, (.binary · .bangEqual · t.line))
  | .mark .equalEqual => some (2, (.binary · .equalEqual · t.line))
  | .mark .greater => some (3, (.binary · .greater · t.line))
  | .mark .greaterEqual => some (3, (.binary · .greaterEqual · t.line))
  | .mark .less => some (3, (.binary · .less · t.line))
  | .mark .lessEqual => some (3, (.binary · .lessEqual · t.line))
  | .mark .minus => some (4, (.binary · .minus · t.line))
  | .mark .plus => some (4, (.binary · .plus · t.line))
  | .mark .star => some (5, (.binary · .star · t.line))
  | .mark .slash => some (5, (.binary · .slash · t.line))
  | _ => none

/-- The strength past that of all operators between operands. -/
def tightest : Nat := 6

/-- The operator in front of an operand that a kind of token stands for. -/
def sign? : Kind → Option UnaryOp
  | .mark .bang => some .bang
  | .mark .minus => some .minus
  | _ => none

/-- The constant that a kind of token stands for. -/
def constant? : Kind → Option Literal
  | .keyword .falseWord => some (.bool false)
  | .keyword .trueWord => some (.bool true)
  | .keyword .nilWord => some .nil
  | .number value => some (.number value)
  | .string text => some (.string text)
  | _ => none

mutual

/-- An expression: an assignment, or operands with operators between them. -/
inductive Expression : Cursor → Expr → Cursor → Prop
  | value {c c₁ : Cursor} {e : Expr} : Operands 0 c e c₁ → Expression c e c₁
  | assign {c c₁ c₂ c₃ : Cursor} {name equal : Token} {value : Expr} :
      c.Reads .identifier name c₁ → c₁.numbered.Reads (.mark .equal) equal c₂ →
      Expression c₂ value c₃ → Expression c (.assign c₃.fresh name.ident value) c₃.numbered
  | set {c c₁ c₂ c₃ c₄ c₅ : Cursor} {dot name equal : Token} {object value : Expr} :
      Call c object c₁ → c₁.Reads (.mark .dot) dot c₂ → c₂.Reads .identifier name c₃ →
      c₃.Reads (.mark .equal) equal c₄ → Expression c₄ value c₅ →
      Expression c (.set object name.ident value) c₅

/-- Operands with operators of at least some strength between them. -/
inductive Operands : (strength : Nat) → Cursor → Expr → Cursor → Prop
  | chain {n : Nat} {c c₁ c₂ : Cursor} {first e : Expr} : n < tightest →
      Operands (n + 1) c first c₁ → Chained n first c₁ e c₂ → Operands n c e c₂
  | signed {c c₁ : Cursor} {e : Expr} : Signed c e c₁ → Operands tightest c e c₁

/-- What follows a left operand: operators of one strength and operands, grouped to the left. -/
inductive Chained : (strength : Nat) → (left : Expr) → Cursor → Expr → Cursor → Prop
  | done {n : Nat} {left : Expr} {c : Cursor} : Chained n left c left c
  | more {n : Nat} {left right e : Expr} {c c₁ c₂ c₃ : Cursor} {operator : Token}
      {combine : Expr → Expr → Expr} :
      c.Reads operator.kind operator c₁ → connective? operator = some (n, combine) →
      Operands (n + 1) c₁ right c₂ → Chained n (combine left right) c₂ e c₃ →
      Chained n left c e c₃

/-- An operand with any number of operators in front of it. -/
inductive Signed : Cursor → Expr → Cursor → Prop
  | sign {c c₁ c₂ : Cursor} {t : Token} {operator : UnaryOp} {e : Expr} :
      c.Reads t.kind t c₁ → sign? t.kind = some operator → Signed c₁ e c₂ →
      Signed c (.unary operator e t.line) c₂
  | call {c c₁ : Cursor} {e : Expr} : Call c e c₁ → Signed c e c₁

/-- A primary expression with its calls and properties. -/
inductive Call : Cursor → Expr → Cursor → Prop
  | primary {c c₁ c₂ : Cursor} {subject e : Expr} :
      Primary c subject c₁ → Suffixed subject c₁ e c₂ → Call c e c₂

/-- What follows a subject: calls of it and properties of it. -/
inductive Suffixed : (subject : Expr) → Cursor → Expr → Cursor → Prop
  | done {subject : Expr} {c : Cursor} : Suffixed subject c subject c
  | call {subject e : Expr} {arguments : List Expr} {c c₁ c₂ c₃ c₄ : Cursor}
      {opening closing : Token} :
      c.Reads (.mark .leftParen) opening c₁ → Arguments c₁ arguments c₂ →
      c₂.Reads (.mark .rightParen) closing c₃ →
      Suffixed (.call subject arguments closing.line) c₃ e c₄ → Suffixed subject c e c₄
  | get {subject e : Expr} {c c₁ c₂ c₃ : Cursor} {dot name : Token} :
      c.Reads (.mark .dot) dot c₁ → c₁.Reads .identifier name c₂ →
      Suffixed (.get subject name.ident) c₂ e c₃ → Suffixed subject c e c₃

/-- A constant, a name, `self`, or an expression in parentheses. -/
inductive Primary : Cursor → Expr → Cursor → Prop
  | constant {c c₁ : Cursor} {t : Token} {value : Literal} :
      c.Reads t.kind t c₁ → constant? t.kind = some value → Primary c (.literal value) c₁
  | selfRef {c c₁ : Cursor} {t : Token} :
      c.Reads (.keyword .selfWord) t c₁ → Primary c (.selfRef c₁.fresh t.line) c₁.numbered
  | var {c c₁ : Cursor} {t : Token} :
      c.Reads .identifier t c₁ → Primary c (.var c₁.fresh t.ident) c₁.numbered
  | group {c c₁ c₂ c₃ c₄ c₅ : Cursor} {opening closing : Token} {inner : Expr} :
      c.Reads (.mark .leftParen) opening c₁ → Newlines c₁ c₂ → Expression c₂ inner c₃ →
      Newlines c₃ c₄ → c₄.Reads (.mark .rightParen) closing c₅ → Primary c (.group inner) c₅

/-- What stands between the parentheses of a call. -/
inductive Arguments : Cursor → List Expr → Cursor → Prop
  | none {c c₁ : Cursor} : Newlines c c₁ → Arguments c [] c₁
  | some {c c₁ c₂ c₃ : Cursor} {arguments : List Expr} :
      Newlines c c₁ → ArgumentList c₁ arguments c₂ → Newlines c₂ c₃ →
      arguments.length ≤ maximum → Arguments c arguments c₃

/-- Arguments with commas between them. -/
inductive ArgumentList : Cursor → List Expr → Cursor → Prop
  | one {c c₁ : Cursor} {e : Expr} : Expression c e c₁ → ArgumentList c [e] c₁
  | more {c c₁ c₂ c₃ c₄ c₅ : Cursor} {comma : Token} {e : Expr} {rest : List Expr} :
      Expression c e c₁ → Newlines c₁ c₂ → c₂.Reads (.mark .comma) comma c₃ →
      Newlines c₃ c₄ → ArgumentList c₄ rest c₅ → ArgumentList c (e :: rest) c₅

end

/-! ## Statements -/

/-- Names with commas between them. -/
inductive Names : Cursor → List Ident → Cursor → Prop
  | one {c c₁ : Cursor} {t : Token} : c.Reads .identifier t c₁ → Names c [t.ident] c₁
  | more {c c₁ c₂ c₃ : Cursor} {t comma : Token} {rest : List Ident} :
      c.Reads .identifier t c₁ → c₁.Reads (.mark .comma) comma c₂ → Names c₂ rest c₃ →
      Names c (t.ident :: rest) c₃

/-- What stands between the parentheses of a routine. -/
inductive Parameters : Cursor → List Ident → Cursor → Prop
  | none {c : Cursor} : Parameters c [] c
  | some {c c₁ : Cursor} {params : List Ident} :
      Names c params c₁ → params.length ≤ maximum → Parameters c params c₁

/-- The variable of a loop. Without `let` it uses up the occurrences of an assignment. -/
inductive Counter : Cursor → LoopVar → Cursor → Prop
  | declared {c c₁ c₂ c₃ c₄ : Cursor} {word name equal : Token} {value : Expr} :
      c.Reads (.keyword .letWord) word c₁ → c₁.Reads .identifier name c₂ →
      c₂.Reads (.mark .equal) equal c₃ → Expression c₃ value c₄ →
      Counter c ⟨name.ident, value⟩ c₄
  | assigned {c c₁ c₂ c₃ : Cursor} {name equal : Token} {value : Expr} :
      c.Reads .identifier name c₁ → c₁.numbered.Reads (.mark .equal) equal c₂ →
      Expression c₂ value c₃ → Counter c ⟨name.ident, value⟩ c₃.numbered

/-- The first value of a variable behind its name. -/
inductive Initializer : Cursor → Expr → Cursor → Prop
  | equal {c c₁ c₂ : Cursor} {equal : Token} {value : Expr} :
      c.Reads (.mark .equal) equal c₁ → Expression c₁ value c₂ → Initializer c value c₂

mutual

/-- A declaration or another statement. -/
inductive Declaration : Cursor → Stmt → Cursor → Prop
  | classDef {c c₁ c₂ c₃ c₄ c₅ : Cursor} {word name opening closing : Token}
      {methods : List Routine} :
      c.Reads (.keyword .classWord) word c₁ → c₁.Reads .identifier name c₂ →
      c₂.Reads (.mark .leftBrace) opening c₃ → Methods c₃ methods c₄ →
      c₄.Reads (.mark .rightBrace) closing c₅ → Declaration c (.classDef name.ident methods) c₅
  | function {c c₁ c₂ : Cursor} {word : Token} {routine : Routine} :
      c.Reads (.keyword .fnWord) word c₁ → RoutineRest c₁ routine c₂ →
      Declaration c (.function routine) c₂
  | declare {c c₁ c₂ c₃ c₄ : Cursor} {word name : Token} {initializer : Option Expr} :
      c.Reads (.keyword .letWord) word c₁ → c₁.Reads .identifier name c₂ →
      Perhaps Initializer c₂ initializer c₃ → Ending c₃ c₄ →
      Declaration c (.declare name.ident initializer) c₄
  | loop {c c₁ c₂ c₃ c₄ c₅ c₆ c₇ : Cursor} {word first second : Token}
      {counter : Option LoopVar} {condition increment : Option Expr} {body : List Stmt} :
      c.Reads (.keyword .forWord) word c₁ → Perhaps Counter c₁ counter c₂ →
      c₂.Reads (.mark .semicolon) first c₃ → Perhaps Expression c₃ condition c₄ →
      c₄.Reads (.mark .semicolon) second c₅ → Perhaps Expression c₅ increment c₆ →
      Block c₆ body c₇ → Declaration c (.loop counter condition increment body) c₇
  | branch {c c₁ : Cursor} {s : Stmt} : Conditional c s c₁ → Declaration c s c₁
  | exit {c c₁ c₂ c₃ : Cursor} {word : Token} {value : Option Expr} :
      c.Reads (.keyword .returnWord) word c₁ → Perhaps Expression c₁ value c₂ → Ending c₂ c₃ →
      Declaration c (.exit word.line value) c₃
  | block {c c₁ : Cursor} {body : List Stmt} : Block c body c₁ → Declaration c (.block body) c₁
  | print {c c₁ c₂ c₃ : Cursor} {word : Token} {value : Expr} :
      c.Reads (.keyword .printWord) word c₁ → Expression c₁ value c₂ → Ending c₂ c₃ →
      Declaration c (.print value) c₃
  | expression {c c₁ c₂ : Cursor} {value : Expr} :
      Expression c value c₁ → Ending c₁ c₂ → Declaration c (.expression value) c₂

/-- A conditional, with all that depends on it. -/
inductive Conditional : Cursor → Stmt → Cursor → Prop
  | branch {c c₁ c₂ c₃ c₄ : Cursor} {word : Token} {condition : Expr} {thenBody : List Stmt}
      {elseBody : Option (List Stmt)} :
      c.Reads (.keyword .ifWord) word c₁ → Expression c₁ condition c₂ → Block c₂ thenBody c₃ →
      Otherwise c₃ elseBody c₄ → Conditional c (.branch condition thenBody elseBody) c₄

/-- What follows the first block of a conditional. -/
inductive Otherwise : Cursor → Option (List Stmt) → Cursor → Prop
  | absent {c : Cursor} : Otherwise c none c
  | block {c c₁ c₂ c₃ : Cursor} {word : Token} {body : List Stmt} :
      Newlines c c₁ → c₁.Reads (.keyword .elseWord) word c₂ → Block c₂ body c₃ →
      Otherwise c (some body) c₃
  | conditional {c c₁ c₂ c₃ : Cursor} {word : Token} {s : Stmt} :
      Newlines c c₁ → c₁.Reads (.keyword .elseWord) word c₂ → Conditional c₂ s c₃ →
      Otherwise c (some [s]) c₃

/-- Statements between braces. -/
inductive Block : Cursor → List Stmt → Cursor → Prop
  | braces {c c₁ c₂ c₃ : Cursor} {opening closing : Token} {body : List Stmt} :
      c.Reads (.mark .leftBrace) opening c₁ → Body c₁ body c₂ →
      c₂.Reads (.mark .rightBrace) closing c₃ → Block c body c₃

/-- Statements with line breaks before, between and behind them. -/
inductive Body : Cursor → List Stmt → Cursor → Prop
  | done {c c₁ : Cursor} : Newlines c c₁ → Body c [] c₁
  | more {c c₁ c₂ c₃ : Cursor} {s : Stmt} {rest : List Stmt} :
      Newlines c c₁ → Declaration c₁ s c₂ → Body c₂ rest c₃ → Body c (s :: rest) c₃

/-- Methods with line breaks before, between and behind them. -/
inductive Methods : Cursor → List Routine → Cursor → Prop
  | done {c c₁ : Cursor} : Newlines c c₁ → Methods c [] c₁
  | more {c c₁ c₂ c₃ c₄ : Cursor} {word : Token} {routine : Routine} {rest : List Routine} :
      Newlines c c₁ → c₁.Reads (.keyword .fnWord) word c₂ → RoutineRest c₂ routine c₃ →
      Methods c₃ rest c₄ → Methods c (routine :: rest) c₄

/-- A function or method from its name on. -/
inductive RoutineRest : Cursor → Routine → Cursor → Prop
  | named {c c₁ c₂ c₃ c₄ c₅ : Cursor} {name opening closing : Token} {params : List Ident}
      {body : List Stmt} :
      c.Reads .identifier name c₁ → c₁.Reads (.mark .leftParen) opening c₂ →
      Parameters c₂ params c₃ → c₃.Reads (.mark .rightParen) closing c₄ → Block c₄ body c₅ →
      RoutineRest c ⟨name.ident, params, body⟩ c₅

end

/-- A program: statements up to the end of the input. -/
def Program (c : Cursor) (statements : List Stmt) (behind : Cursor) : Prop :=
  Body c statements behind ∧ behind.upcoming = []

/--
A token sequence is a program, and these are its statements, with occurrences numbered from the
first number on and the last one the next to be given out.
-/
def Derives (tokens : List Token) (first : Occurrence) (statements : List Stmt)
    (last : Occurrence) : Prop :=
  ∃ body ending, tokens = body ++ [ending] ∧ ending.kind = .endOfInput ∧
    Program ⟨body, ending.line, first⟩ statements ⟨[], ending.line, last⟩

end Grammar

end Rill
