import Rill.Number.Notation

/-!
# Tokens

A token is a kind, the text it was written as, and the line it stands on. Marks and keywords are
written in one way each, given by `text`; strings and numbers carry what they denote.
-/

namespace Rill

/-- A punctuation mark or an operator made of such marks. -/
inductive Mark
  | leftParen | rightParen | leftBrace | rightBrace | comma | dot | minus | plus | semicolon
  | slash | star | bang | bangEqual | equal | equalEqual | greater | greaterEqual | less | lessEqual
deriving DecidableEq, Repr

namespace Mark

/-- How a mark is written. -/
def text : Mark → String
  | leftParen => "("
  | rightParen => ")"
  | leftBrace => "\x7b"
  | rightBrace => "\x7d"
  | comma => ","
  | dot => "."
  | minus => "-"
  | plus => "+"
  | semicolon => ";"
  | slash => "/"
  | star => "*"
  | bang => "!"
  | bangEqual => "!="
  | equal => "="
  | equalEqual => "=="
  | greater => ">"
  | greaterEqual => ">="
  | less => "<"
  | lessEqual => "<="

/-- What a mark is called in a listing. -/
def name : Mark → String
  | leftParen => "LEFT_PAREN"
  | rightParen => "RIGHT_PAREN"
  | leftBrace => "LEFT_BRACE"
  | rightBrace => "RIGHT_BRACE"
  | comma => "COMMA"
  | dot => "DOT"
  | minus => "MINUS"
  | plus => "PLUS"
  | semicolon => "SEMICOLON"
  | slash => "SLASH"
  | star => "STAR"
  | bang => "BANG"
  | bangEqual => "BANG_EQUAL"
  | equal => "EQUAL"
  | equalEqual => "EQUAL_EQUAL"
  | greater => "GREATER"
  | greaterEqual => "GREATER_EQUAL"
  | less => "LESS"
  | lessEqual => "LESS_EQUAL"

end Mark

/-- A reserved word. -/
inductive Keyword
  | andWord | classWord | elseWord | falseWord | fnWord | forWord | ifWord | letWord | nilWord
  | orWord | printWord | returnWord | selfWord | trueWord
deriving DecidableEq, Repr

namespace Keyword

/-- How a keyword is written. -/
def text : Keyword → String
  | andWord => "and"
  | classWord => "class"
  | elseWord => "else"
  | falseWord => "false"
  | fnWord => "fn"
  | forWord => "for"
  | ifWord => "if"
  | letWord => "let"
  | nilWord => "nil"
  | orWord => "or"
  | printWord => "print"
  | returnWord => "return"
  | selfWord => "self"
  | trueWord => "true"

/-- What a keyword is called in a listing. -/
def name : Keyword → String
  | andWord => "AND"
  | classWord => "CLASS"
  | elseWord => "ELSE"
  | falseWord => "FALSE"
  | fnWord => "FN"
  | forWord => "FOR"
  | ifWord => "IF"
  | letWord => "LET"
  | nilWord => "NIL"
  | orWord => "OR"
  | printWord => "PRINT"
  | returnWord => "RETURN"
  | selfWord => "SELF"
  | trueWord => "TRUE"

/-- All keywords. -/
def all : List Keyword :=
  [andWord, classWord, elseWord, falseWord, fnWord, forWord, ifWord, letWord, nilWord, orWord,
   printWord, returnWord, selfWord, trueWord]

/-- The keyword that is written as this word, if the word is reserved. -/
def ofText? (word : String) : Option Keyword := all.find? (·.text = word)

end Keyword

/-- What kind of token a piece of text is. -/
inductive Kind
  | mark (mark : Mark)
  | keyword (keyword : Keyword)
  | newline
  | identifier
  | string (text : String)
  | number (value : Number)
  | endOfInput
deriving DecidableEq

namespace Kind

/-- What a kind is called in a listing. -/
def name : Kind → String
  | mark m => m.name
  | keyword k => k.name
  | newline => "NEWLINE"
  | identifier => "IDENTIFIER"
  | string _ => "STRING"
  | number _ => "NUMBER"
  | endOfInput => "EOF"

/-- Whether two kinds are the same, whatever strings and numbers denote. -/
def agrees : Kind → Kind → Bool
  | string _, string _ => true
  | number _, number _ => true
  | a, b => decide (a = b)

end Kind

/-- A token of the source. -/
structure Token where
  kind : Kind
  /-- The text it was written as. -/
  lexeme : String
  /-- The line of the last character of the lexeme. -/
  line : Nat
deriving DecidableEq

namespace Token

/-- Whether two tokens are of one kind, written alike and on one line. -/
def agrees (a b : Token) : Bool :=
  a.kind.agrees b.kind && a.lexeme == b.lexeme && a.line == b.line

/-- The lexeme as a listing shows it: a line feed would break the line, so it is spelled out. -/
def listedLexeme (t : Token) : String :=
  if t.kind = .newline then "\\n" else t.lexeme

/-- What a token denotes, as a listing shows it. -/
def listedLiteral (t : Token) : String :=
  match t.kind with
  | .string text => text
  | .number value => value.tokenText
  | _ => "null"

/-- The line for a token in a listing: its name, lexeme and literal. -/
def listing (t : Token) : String :=
  t.kind.name ++ " " ++ t.listedLexeme ++ " " ++ t.listedLiteral

end Token

end Rill
