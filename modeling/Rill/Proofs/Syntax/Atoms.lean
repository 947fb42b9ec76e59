import Rill.Program
import Rill.Proofs.Syntax.Recognition
import Rill.Proofs.Token.Segments

/-!
# What a tree is made of

The constants and names of a tree are those of the text, in the same order (`Cursor.Writes`). A name
is written as an identifier, so it is no reserved word, and a number as digits with or without a
point.
-/

namespace Rill

/-! ## Constants and names -/

/-- A constant or a name in a tree. -/
inductive Atom
  | constant (value : Literal)
  /-- A variable that is read. -/
  | var (name : String)
  /-- A name that is declared or assigned to, or that of a property. -/
  | name (name : String)

namespace Expr

mutual

/-- The constants and names in an expression. -/
def atoms : Expr → List Atom
  | literal value => [.constant value]
  | unary _ operand _ => operand.atoms
  | binary left _ right _ => left.atoms ++ right.atoms
  | logical left _ right => left.atoms ++ right.atoms
  | group inner => inner.atoms
  | var _ name => [.var name.name]
  | assign _ name value => .name name.name :: value.atoms
  | call callee arguments _ => callee.atoms ++ atomsAll arguments
  | get object name => object.atoms ++ [.name name.name]
  | set object name value => object.atoms ++ .name name.name :: value.atoms
  | selfRef _ _ => []

/-- The constants and names in expressions. -/
def atomsAll : List Expr → List Atom
  | [] => []
  | e :: rest => e.atoms ++ atomsAll rest

end

/-- The constants and names in an expression that may be absent. -/
def atomsOption : Option Expr → List Atom
  | some e => e.atoms
  | none => []

end Expr

/-- The name of a loop variable that may be absent, and what is in its first value. -/
def LoopVar.atomsOption : Option LoopVar → List Atom
  | some counter => .name counter.name.name :: counter.value.atoms
  | none => []

/-- The names of parameters. -/
def Ident.atoms (params : List Ident) : List Atom := params.map fun param => .name param.name

namespace Stmt

mutual

/-- The constants and names in a statement. -/
def atoms : Stmt → List Atom
  | expression value => value.atoms
  | print value => value.atoms
  | declare name initializer => .name name.name :: Expr.atomsOption initializer
  | block body => atomsAll body
  | function ⟨name, params, body⟩ => .name name.name :: (Ident.atoms params ++ atomsAll body)
  | branch condition thenBody none => condition.atoms ++ atomsAll thenBody
  | branch condition thenBody (some elseBody) =>
    condition.atoms ++ atomsAll thenBody ++ atomsAll elseBody
  | loop counter condition increment body =>
    LoopVar.atomsOption counter ++ Expr.atomsOption condition ++ Expr.atomsOption increment ++
      atomsAll body
  | exit _ value => Expr.atomsOption value
  | classDef name methods => .name name.name :: atomsMethods methods

/-- The constants and names in statements. -/
def atomsAll : List Stmt → List Atom
  | [] => []
  | s :: rest => s.atoms ++ atomsAll rest

/-- The constants and names in methods. -/
def atomsMethods : List Routine → List Atom
  | [] => []
  | ⟨name, params, body⟩ :: rest =>
    .name name.name :: (Ident.atoms params ++ atomsAll body) ++ atomsMethods rest

end

end Stmt

/-- The constants and names in a routine. -/
def RoutineOf.atoms (routine : Routine) : List Atom :=
  .name routine.name.name :: (Ident.atoms routine.params ++ Stmt.atomsAll routine.body)

/-! ## Where they are written -/

/-- A token stands for a constant or a name. -/
def Token.Makes (t : Token) : Atom → Prop
  | .constant value => Grammar.constant? t.kind = some value
  | .var name | .name name => t.kind = .identifier ∧ t.lexeme = name

/-- Whether tokens of a kind stand for constants or names. -/
def Kind.isAtom : Kind → Bool
  | .identifier => true
  | kind => (Grammar.constant? kind).isSome

theorem Token.isAtom_of_makes {t : Token} {a : Atom} (makes : t.Makes a) :
    t.kind.isAtom = true := by
  cases a with
  | var | name =>
      rw [makes.1]
      rfl
  | constant value =>
      unfold Token.Makes at makes
      unfold Kind.isAtom
      split
      · rfl
      · rw [makes]
        rfl

/-- Constants and names are written at a place or behind it. -/
def Cursor.Offers (c : Cursor) (atoms : List Atom) : Prop :=
  ∀ a ∈ atoms, ∃ t ∈ c.upcoming, t.Makes a

/-- Between two places are written some constants and names, in their order, and no others. -/
def Cursor.Writes (c : Cursor) (atoms : List Atom) (c₁ : Cursor) : Prop :=
  ∃ read, c.upcoming = read ++ c₁.upcoming ∧
    List.Forall₂ Token.Makes (read.filter fun t => t.kind.isAtom) atoms

namespace Cursor

variable {c c₁ c₂ : Cursor} {first second atoms : List Atom} {t : Token} {kind : Kind}

theorem Writes.refl (c : Cursor) : c.Writes [] c := ⟨[], rfl, .nil⟩

theorem Writes.append (left : c.Writes first c₁) (right : c₁.Writes second c₂) :
    c.Writes (first ++ second) c₂ := by
  obtain ⟨read, here, made⟩ := left
  obtain ⟨more, there, madeMore⟩ := right
  refine ⟨read ++ more, by rw [here, there, List.append_assoc], ?_⟩
  rw [List.filter_append]
  exact List.rel_append made madeMore

theorem Writes.cons {a : Atom} (here : c.Writes [a] c₁) (others : c₁.Writes atoms c₂) :
    c.Writes (a :: atoms) c₂ :=
  here.append others

theorem Writes.after (writes : c₁.Writes atoms c₂) (before : c.Writes [] c₁) :
    c.Writes atoms c₂ :=
  before.append writes

theorem Writes.before (writes : c.Writes atoms c₁) (behind : c₁.Writes [] c₂) :
    c.Writes atoms c₂ := by
  rw [← List.append_nil atoms]
  exact writes.append behind

theorem Reads.writes (reads : c.Reads kind t c₁) {a : Atom} (makes : t.Makes a) :
    c.Writes [a] c₁ := by
  refine ⟨[t], reads.upcoming_eq, ?_⟩
  rw [List.filter_cons_of_pos (by simp [t.isAtom_of_makes makes])]
  exact .cons makes .nil

/-- A name is written where its identifier is read. -/
theorem Reads.writes_name (reads : c.Reads .identifier t c₁) : c.Writes [.name t.ident.name] c₁ :=
  reads.writes ⟨reads.kind_eq, rfl⟩

/-- What is read is not written when it is neither a constant nor a name. -/
theorem Reads.skips (reads : c.Reads kind t c₁) (other : kind.isAtom = false) :
    c.Writes [] c₁ := by
  rw [← reads.kind_eq] at other
  refine ⟨[t], reads.upcoming_eq, ?_⟩
  rw [List.filter_cons_of_neg (by simp [other])]
  exact .nil

theorem Writes.offers (writes : c.Writes atoms c₁) : c.Offers atoms := by
  obtain ⟨read, same, made⟩ := writes
  intro a present
  obtain ⟨t, listed, makes⟩ := exists_rel_of_mem made present
  refine ⟨t, ?_, makes⟩
  rw [same]
  exact List.mem_append_left _ (List.mem_of_mem_filter listed)

end Cursor

namespace Grammar

theorem atoms_of_connective {t : Token} {n : Nat} {combine : Expr → Expr → Expr}
    (connective : connective? t = some (n, combine)) (left right : Expr) :
    (combine left right).atoms = left.atoms ++ right.atoms := by
  unfold connective? at connective
  split at connective <;> cases connective <;> rfl

theorem isAtom_of_connective {t : Token} {n : Nat} {combine : Expr → Expr → Expr}
    (connective : connective? t = some (n, combine)) : t.kind.isAtom = false := by
  unfold connective? at connective
  split at connective
  all_goals first
    | next kind => rw [kind]; rfl
    | cases connective

theorem isAtom_of_sign {kind : Kind} {operator : UnaryOp} (sign : sign? kind = some operator) :
    kind.isAtom = false := by
  unfold sign? at sign
  split at sign <;> first | rfl | cases sign

theorem Newlines.skips {c c₁ : Cursor} (breaks : Newlines c c₁) : c.Writes [] c₁ := by
  induction breaks with
  | none => exact .refl _
  | more reads _ ih => exact ih.after (reads.skips rfl)

theorem Ending.skips {c c₁ : Cursor} (ending : Ending c c₁) : c.Writes [] c₁ := by
  cases ending with
  | newline reads => exact reads.skips rfl
  | semicolon reads => exact reads.skips rfl
  | beforeBrace => exact .refl _
  | beforeEnd => exact .refl _

-- Every rule writes what its parts write, in their order; its words, marks and line breaks are
-- skipped.
mutual

theorem Expression.writes : ∀ {c c₁ : Cursor} {e : Expr}, Expression c e c₁ → c.Writes e.atoms c₁
  | _, _, _, .value operands => operands.writes
  | _, _, _, .assign name equal value =>
      name.writes_name.cons (value.writes.after (equal.skips rfl))
  | _, _, _, .set called dot name equal value => by
      have valued := name.writes_name.cons (value.writes.after (equal.skips rfl))
      exact called.writes.append (valued.after (dot.skips rfl))

theorem Operands.writes : ∀ {n : Nat} {c c₁ : Cursor} {e : Expr},
    Operands n c e c₁ → c.Writes e.atoms c₁
  | _, _, _, _, .chain _ first rest => rest.writes first.writes
  | _, _, _, _, .signed operand => operand.writes

theorem Chained.writes : ∀ {n : Nat} {left e : Expr} {c c₁ c₂ : Cursor},
    Chained n left c₁ e c₂ → c.Writes left.atoms c₁ → c.Writes e.atoms c₂
  | _, _, _, _, _, _, .done, writes => writes
  | _, _, _, _, _, _, .more operator connective right rest, writes => by
      have both := writes.append
        (right.writes.after (operator.skips (isAtom_of_connective connective)))
      rw [← atoms_of_connective connective] at both
      exact rest.writes both

theorem Signed.writes : ∀ {c c₁ : Cursor} {e : Expr}, Signed c e c₁ → c.Writes e.atoms c₁
  | _, _, _, .sign reads sign operand => operand.writes.after (reads.skips (isAtom_of_sign sign))
  | _, _, _, .call called => called.writes

theorem Call.writes : ∀ {c c₁ : Cursor} {e : Expr}, Call c e c₁ → c.Writes e.atoms c₁
  | _, _, _, .primary subject suffixed => suffixed.writes subject.writes

theorem Suffixed.writes : ∀ {subject e : Expr} {c c₁ c₂ : Cursor},
    Suffixed subject c₁ e c₂ → c.Writes subject.atoms c₁ → c.Writes e.atoms c₂
  | _, _, _, _, _, .done, writes => writes
  | _, _, _, _, _, .call opens listed closes rest, writes => by
      have inside := listed.writes.after (opens.skips rfl)
      exact rest.writes (writes.append (inside.before (closes.skips rfl)))
  | _, _, _, _, _, .get dot name rest, writes =>
      rest.writes (writes.append (name.writes_name.after (dot.skips rfl)))

theorem Primary.writes : ∀ {c c₁ : Cursor} {e : Expr}, Primary c e c₁ → c.Writes e.atoms c₁
  | _, _, _, .constant reads constant => reads.writes constant
  | _, _, _, .selfRef reads => reads.skips rfl
  | _, _, _, .var reads => reads.writes ⟨reads.kind_eq, rfl⟩
  | _, _, _, .group opens before inner behind closes => by
      have opened := before.skips.after (opens.skips rfl)
      exact (inner.writes.after opened).before ((closes.skips rfl).after behind.skips)

theorem Arguments.writes : ∀ {c c₁ : Cursor} {arguments : List Expr},
    Arguments c arguments c₁ → c.Writes (Expr.atomsAll arguments) c₁
  | _, _, _, .none breaks => breaks.skips
  | _, _, _, .some before list behind _ =>
      (list.writes.after before.skips).before behind.skips

theorem ArgumentList.writes : ∀ {c c₁ : Cursor} {arguments : List Expr},
    ArgumentList c arguments c₁ → c.Writes (Expr.atomsAll arguments) c₁
  | _, _, _, .one first => first.writes.append (.refl _)
  | _, _, _, .more first before comma behind rest => by
      have separated := (behind.skips.after (comma.skips rfl)).after before.skips
      exact first.writes.append (rest.writes.after separated)

end

variable {c c₁ : Cursor}

theorem Perhaps.writes {phrase : Cursor → Expr → Cursor → Prop} {value : Option Expr}
    (perhaps : Perhaps phrase c value c₁)
    (phrases : ∀ {e : Expr}, phrase c e c₁ → c.Writes e.atoms c₁) :
    c.Writes (Expr.atomsOption value) c₁ := by
  cases perhaps with
  | absent => exact .refl _
  | present phrase => exact phrases phrase

theorem Initializer.writes {value : Expr} (initializes : Initializer c value c₁) :
    c.Writes value.atoms c₁ := by
  cases initializes with
  | equal equal value => exact value.writes.after (equal.skips rfl)

theorem Perhaps.writes_counter {counter : Option LoopVar} (perhaps : Perhaps Counter c counter c₁) :
    c.Writes (LoopVar.atomsOption counter) c₁ := by
  cases perhaps with
  | absent => exact .refl _
  | present phrase =>
      cases phrase with
      | declared word name equal value =>
          exact (name.writes_name.after (word.skips rfl)).cons
            (value.writes.after (equal.skips rfl))
      | assigned name equal value =>
          exact name.writes_name.cons (value.writes.after (equal.skips rfl))

theorem Names.writes {params : List Ident} (list : Names c params c₁) :
    c.Writes (Ident.atoms params) c₁ := by
  induction list with
  | one name => exact name.writes_name
  | more name comma _ ih => exact name.writes_name.cons (ih.after (comma.skips rfl))

theorem Parameters.writes {params : List Ident} (list : Parameters c params c₁) :
    c.Writes (Ident.atoms params) c₁ := by
  cases list with
  | none => exact .refl _
  | some list _ => exact list.writes

mutual

theorem Declaration.writes : ∀ {c c₁ : Cursor} {s : Stmt},
    Declaration c s c₁ → c.Writes s.atoms c₁
  | _, _, _, .classDef word name opens methods closes => by
      have named := name.writes_name.after (word.skips rfl)
      have inside := methods.writes.after (opens.skips rfl)
      exact named.cons (inside.before (closes.skips rfl))
  | _, _, _, .function word routine => by
      have writes := routine.writes.after (word.skips rfl)
      exact writes
  | _, _, _, .declare word name initializer ending => by
      have named := name.writes_name.after (word.skips rfl)
      exact named.cons ((initializer.writes Initializer.writes).before ending.skips)
  | _, _, _, .loop word counter first condition second increment body => by
      have counted := counter.writes_counter.after (word.skips rfl)
      have tested := (condition.writes Expression.writes).after (first.skips rfl)
      have stepped := (increment.writes Expression.writes).after (second.skips rfl)
      exact ((counted.append tested).append stepped).append body.writes
  | _, _, _, .branch conditional => conditional.writes
  | _, _, _, .exit word value ending => by
      have writes := (value.writes Expression.writes).after (word.skips rfl)
      exact writes.before ending.skips
  | _, _, _, .block body => body.writes
  | _, _, _, .print word value ending =>
      (value.writes.after (word.skips rfl)).before ending.skips
  | _, _, _, .expression value ending => value.writes.before ending.skips

theorem Conditional.writes : ∀ {c c₁ : Cursor} {s : Stmt}, Conditional c s c₁ → c.Writes s.atoms c₁
  | _, _, _, .branch word condition body otherwise => by
      have decided := (condition.writes.after (word.skips rfl)).append body.writes
      exact otherwise.writes decided

theorem Otherwise.writes : ∀ {c c₁ c₂ : Cursor} {condition : Expr} {thenBody : List Stmt}
    {elseBody : Option (List Stmt)}, Otherwise c₁ elseBody c₂ →
    c.Writes (condition.atoms ++ Stmt.atomsAll thenBody) c₁ →
    c.Writes (Stmt.branch condition thenBody elseBody).atoms c₂
  | _, _, _, _, _, _, .absent, decided => decided
  | _, _, _, _, _, _, .block breaks word body, decided =>
      decided.append (body.writes.after (breaks.skips.before (word.skips rfl)))
  | _, _, _, _, _, _, .conditional breaks word conditional, decided => by
      have writes := conditional.writes.after (breaks.skips.before (word.skips rfl))
      rw [Stmt.atoms, Stmt.atomsAll, Stmt.atomsAll, List.append_nil]
      exact decided.append writes

theorem Block.writes : ∀ {c c₁ : Cursor} {body : List Stmt},
    Block c body c₁ → c.Writes (Stmt.atomsAll body) c₁
  | _, _, _, .braces opens body closes =>
      (body.writes.after (opens.skips rfl)).before (closes.skips rfl)

theorem Body.writes : ∀ {c c₁ : Cursor} {body : List Stmt},
    Body c body c₁ → c.Writes (Stmt.atomsAll body) c₁
  | _, _, _, .done breaks => breaks.skips
  | _, _, _, .more breaks first rest => (first.writes.after breaks.skips).append rest.writes

theorem Methods.writes : ∀ {c c₁ : Cursor} {methods : List Routine},
    Methods c methods c₁ → c.Writes (Stmt.atomsMethods methods) c₁
  | _, _, _, .done breaks => breaks.skips
  | _, _, _, .more breaks word routine rest => by
      have first := routine.writes.after (breaks.skips.before (word.skips rfl))
      exact first.append rest.writes

theorem RoutineRest.writes : ∀ {c c₁ : Cursor} {routine : Routine},
    RoutineRest c routine c₁ → c.Writes routine.atoms c₁
  | _, _, _, .named name opens params closes body => by
      have listed := params.writes.after (opens.skips rfl)
      exact name.writes_name.cons (listed.append (body.writes.after (closes.skips rfl)))

end

end Grammar

/-! ## How they are written -/

/-- How a constant or a name can be written: a name as an identifier, a number as digits. -/
def Atom.Written : Atom → Prop
  | .constant (.number value) => ∃ whole fraction, value = .ofDigits whole fraction
  | .constant (.string _) | .constant (.bool _) | .constant .nil => True
  | .var text | .name text => Lexeme .identifier text.toList

/-- No name is spelled like a reserved word. -/
theorem Lexeme.ne_keyword {name : String} (identifier : Lexeme .identifier name.toList)
    (keyword : Keyword) : name ≠ keyword.text := by
  rintro rfl
  cases identifier.kind_eq (.keyword keyword)

theorem Token.written_of_makes {t : Token} (lexeme : Lexeme t.kind t.lexeme.toList) {a : Atom}
    (makes : t.Makes a) : a.Written := by
  cases a with
  | var | name =>
      obtain ⟨kind, rfl⟩ := makes
      rw [kind] at lexeme
      exact lexeme
  | constant value =>
      cases value with
      | string | bool | nil => exact True.intro
      | number value =>
          obtain ⟨kind, text, line⟩ := t
          dsimp only at lexeme
          generalize text.toList = letters at lexeme
          cases lexeme with
          | keyword keyword => cases keyword <;> cases makes
          | mark | newline | identifier | string => cases makes
          | whole | fraction => exact ⟨_, _, (Literal.number.inj (Option.some.inj makes)).symm⟩

/-- A text that is parsed is a program of the lexemes in it. -/
theorem program_of_parseSource {source : String} {fresh last : Occurrence} {program : List Stmt}
    (parsed : parseSource source fresh = (.ok program, last)) :
    ∃ body endLine, tokens source = .ok (body ++ [inputEnd endLine]) ∧
      (∀ t ∈ body, Lexeme t.kind t.lexeme.toList) ∧
      Grammar.Program ⟨body, endLine, fresh⟩ program ⟨[], endLine, last⟩ := by
  unfold parseSource at parsed
  cases scanned : tokens source with
  | error faults =>
      rw [scanned] at parsed
      cases parsed
  | ok ts =>
      rw [scanned] at parsed
      obtain ⟨-, rfl⟩ := tokens_eq_ok.mp scanned
      have lexeme {t : Token}
          (within : t ∈ scannedTokens (itemsWithin 1 (pieces source.toList))) :
          Lexeme t.kind t.lexeme.toList := by
        obtain ⟨item, listed, found⟩ := List.mem_filterMap.mp within
        cases item with
        | error fault => cases found
        | ok u =>
            cases found
            exact lexeme_of_mem_itemsWithin listed
      have derives := (parse_append_eq_ok
        (fun t within => (lexeme within).ne_endOfInput) rfl).mp parsed
      exact ⟨_, _, rfl, fun _ within => lexeme within, (derives_append_iff rfl).mp derives⟩

/-- What is in the tree of a text is written as the lexical grammar asks. -/
theorem written_of_parseSource {source : String} {fresh last : Occurrence} {program : List Stmt}
    (parsed : parseSource source fresh = (.ok program, last)) :
    ∀ a ∈ Stmt.atomsAll program, a.Written := by
  obtain ⟨body, endLine, -, lexeme, derives, -⟩ := program_of_parseSource parsed
  intro a present
  obtain ⟨t, within, makes⟩ := derives.writes.offers a present
  exact t.written_of_makes (lexeme t within) makes

end Rill
