import Rill.Proofs.Slice.Turns

/-!
# What is read of one line

Only within brackets are line breaks read as anything but the end of a statement. A parser that
stands in front of a line break, with no opening bracket between, therefore reads the same whatever
is behind the line break: it stops in front of the break, or right behind it where a statement ends.
Opening brackets are all there is to rule out, for what is nested in brackets is never reached.
-/

namespace Rill

open EStateM (Result)

variable {α β : Type}

/-- Tokens that open no parentheses and no braces. -/
def Unbracketed (ts : List Token) : Prop :=
  ∀ t ∈ ts, t.kind ≠ .mark .leftParen ∧ t.kind ≠ .mark .leftBrace

theorem Unbracketed.of_suffix {ts rest : List Token} (free : Unbracketed ts) (left : rest <:+ ts) :
    Unbracketed rest :=
  fun t present => free t (left.subset present)

/-- A line break behind which a text goes on, or ends. -/
structure Fork where
  lineBreak : Token
  isBreak : lineBreak.kind = .newline
  /-- The tokens behind the line break, where the text goes on. -/
  behind : List Token
  /-- The line of the end of the input, where the text goes on. -/
  lastLine : Nat
  /-- The line of the end of the input, where the text ends. -/
  ownLine : Nat

namespace Fork

/-- In front of tokens of the line, where the text goes on behind it. -/
def whole (F : Fork) (ts : List Token) (fresh : Occurrence) : Cursor :=
  ⟨ts ++ F.lineBreak :: F.behind, F.lastLine, fresh⟩

/-- In front of tokens of the line, where the text ends behind it. -/
def alone (F : Fork) (ts : List Token) (fresh : Occurrence) : Cursor :=
  ⟨ts ++ [F.lineBreak], F.ownLine, fresh⟩

/--
The same is answered, or the same fault reported, whether the text goes on behind the line or ends
there, and what is left of the line is the same too. Nothing at all is left of it, not even the
line break, only if that is allowed and there is an answer.
-/
inductive Alike (F : Fork) (crosses : Bool) (ts : List Token) :
    Result Diagnostic Cursor α → Result Diagnostic Cursor α → Prop
  | ok {a : α} {rest : List Token} {fresh : Occurrence} (left : rest <:+ ts) :
      F.Alike crosses ts (.ok a (F.whole rest fresh)) (.ok a (F.alone rest fresh))
  | crossed {a : α} {fresh : Occurrence} (allowed : crosses = true) :
      F.Alike crosses ts (.ok a ⟨F.behind, F.lastLine, fresh⟩) (.ok a ⟨[], F.ownLine, fresh⟩)
  | error {fault : Diagnostic} {rest : List Token} {fresh : Occurrence} (left : rest <:+ ts) :
      F.Alike crosses ts (.error fault (F.whole rest fresh)) (.error fault (F.alone rest fresh))

/-- A parser reads the same of what is left of a line, whatever is behind the line. -/
def ReadsAt (F : Fork) (crosses : Bool) (ts : List Token) (fresh : Occurrence) (p : Parser α) :
    Prop :=
  F.Alike crosses ts (p (F.whole ts fresh)) (p (F.alone ts fresh))

/-- A parser reads the same of any line without opening brackets, whatever is behind the line. -/
def Reads (F : Fork) (crosses : Bool) (p : Parser α) : Prop :=
  ∀ ⦃ts : List Token⦄ ⦃fresh : Occurrence⦄, Unbracketed ts → F.ReadsAt crosses ts fresh p

variable {F : Fork} {crosses : Bool} {ts rest : List Token} {fresh : Occurrence} {t : Token}
  {kind : Kind}

theorem Alike.of_suffix {r r' : Result Diagnostic Cursor α} (alike : F.Alike crosses rest r r')
    (left : rest <:+ ts) : F.Alike crosses ts r r' := by
  cases alike with
  | ok further => exact .ok (further.trans left)
  | crossed allowed => exact .crossed allowed
  | error further => exact .error (further.trans left)

/-- Where the line is at its end, the line break stands. -/
theorem reads_break (F : Fork) (fresh : Occurrence) :
    (F.whole [] fresh).Reads .newline F.lineBreak ⟨F.behind, F.lastLine, fresh⟩ ∧
    (F.alone [] fresh).Reads .newline F.lineBreak ⟨[], F.ownLine, fresh⟩ :=
  ⟨.next F.isBreak, .next F.isBreak⟩

/-- Where tokens are left of the line, the first of them stands. -/
theorem reads_token (F : Fork) (t : Token) (ts : List Token) (fresh : Occurrence) :
    (F.whole (t :: ts) fresh).Reads t.kind t (F.whole ts fresh) ∧
    (F.alone (t :: ts) fresh).Reads t.kind t (F.alone ts fresh) :=
  ⟨.next rfl, .next rfl⟩

/-! ## Sequences -/

namespace Reads

variable {p q : Parser α} {f : α → Parser β}

theorem pure (a : α) : F.Reads crosses (pure a) := fun _ _ _ => .ok List.suffix_rfl

theorem refuse {line : Nat} {fault : SyntaxFault} :
    F.Reads crosses (Parser.refuse line fault : Parser α) := fun _ _ _ => .error List.suffix_rfl

/-- A sequence reads the same if its parts do, the second part also behind the line. -/
theorem bind_crossing {crossed : Bool} (first : F.Reads crossed p)
    (next : ∀ a, F.Reads crosses (f a))
    (behind : crossed = true → ∀ a ts fresh, F.Alike crosses ts
      (f a ⟨F.behind, F.lastLine, fresh⟩) (f a ⟨[], F.ownLine, fresh⟩)) :
    F.Reads crosses (p >>= f) := by
  intro ts fresh free
  have started : F.Alike crossed ts (p (F.whole ts fresh)) (p (F.alone ts fresh)) := first free
  change F.Alike crosses ts (EStateM.bind p f (F.whole ts fresh))
    (EStateM.bind p f (F.alone ts fresh))
  unfold EStateM.bind
  revert started
  generalize p (F.whole ts fresh) = r
  generalize p (F.alone ts fresh) = r'
  intro started
  cases started with
  | ok left => exact Alike.of_suffix (next _ (free.of_suffix left)) left
  | crossed allowed => exact behind allowed _ ts _
  | error left => exact .error left

theorem bind (first : F.Reads false p) (next : ∀ a, F.Reads crosses (f a)) :
    F.Reads crosses (p >>= f) :=
  first.bind_crossing next fun crosses => by cases crosses

/-- What is made of the answer is the same, also behind the line. -/
theorem bind_pure (first : F.Reads crosses p) (g : α → β) :
    F.Reads crosses (p >>= fun a => Pure.pure (g a)) :=
  first.bind_crossing (fun _ => .pure _) fun allowed _ _ _ => .crossed allowed

theorem map (first : F.Reads crosses p) (g : α → β) : F.Reads crosses (g <$> p) := by
  rw [map_eq_pure_bind]
  exact first.bind_pure g

theorem ite {condition : Prop} [Decidable condition] (yes : F.Reads crosses p)
    (no : F.Reads crosses q) : F.Reads crosses (if condition then p else q) := by
  split
  · exact yes
  · exact no

/-- A parser reads the same of a line if it does at its end and at each token of it. -/
theorem of_cases
    (atEnd : ∀ fresh, F.ReadsAt crosses [] fresh p)
    (atToken : ∀ {t ts} fresh, Unbracketed (t :: ts) → F.ReadsAt crosses (t :: ts) fresh p) :
    F.Reads crosses p := by
  intro ts fresh free
  cases ts with
  | nil => exact atEnd fresh
  | cons t ts => exact atToken fresh free

/-- What a parser does depends on the next token, which is the line break at the end of the line. -/
theorem of_peek? {f : Option Token → Parser α}
    (atEnd : ∀ fresh, F.ReadsAt crosses [] fresh (f (some F.lineBreak)))
    (atToken : ∀ {t ts} fresh, Unbracketed (t :: ts) →
      F.ReadsAt crosses (t :: ts) fresh (f (some t))) :
    F.Reads crosses (Parser.peek? >>= f) :=
  of_cases atEnd atToken

/-- Behind the first token of a line, a parser reads the same if it does of the others. -/
theorem skip (reads : F.Reads crosses p) (free : Unbracketed (t :: ts)) :
    F.ReadsAt crosses (t :: ts) fresh (Parser.skip >>= fun _ => p) :=
  (reads (free.of_suffix (List.suffix_cons t ts))).of_suffix (List.suffix_cons t ts)

end Reads

/-! ## Tokens -/

theorem reads_want {wanted : Wanted} : F.Reads crosses (Parser.want wanted : Parser α) := by
  refine .of_cases (fun fresh => ?_) (fun fresh _ => ?_)
  · exact .error List.suffix_rfl
  · exact .error List.suffix_rfl

theorem reads_accept? (other : kind ≠ .newline) : F.Reads crosses (Parser.accept? kind) := by
  refine .of_peek? (fun fresh => ?_) (fun {t ts} fresh free => ?_)
  · dsimp only
    rw [if_neg (F.isBreak ▸ other.symm)]
    exact .ok List.suffix_rfl
  · dsimp only
    split
    · exact Reads.skip (.pure _) free
    · exact .ok List.suffix_rfl

theorem reads_accept (other : kind ≠ .newline) : F.Reads crosses (Parser.accept kind) :=
  (reads_accept? other).bind fun _ => .pure _

theorem reads_expect {wanted : Wanted} (other : kind ≠ .newline) :
    F.Reads crosses (Parser.expect kind wanted) := by
  refine (reads_accept? other).bind fun found => ?_
  cases found with
  | none => exact reads_want
  | some t => exact .pure t

theorem reads_identifier {wanted : Wanted} : F.Reads crosses (Parser.identifier wanted) :=
  (reads_expect (by simp)).bind fun _ => .pure _

theorem reads_sees : F.Reads crosses (Parser.sees kind) := by
  refine .of_cases (fun fresh => ?_) (fun fresh _ => ?_)
  · exact .ok List.suffix_rfl
  · exact .ok List.suffix_rfl

theorem reads_freshOccurrence : F.Reads crosses Parser.freshOccurrence :=
  fun _ _ _ => .ok List.suffix_rfl

theorem reads_atStatementEnd : F.Reads crosses Parser.atStatementEnd := by
  refine .of_cases (fun fresh => ?_) (fun fresh _ => ?_)
  · exact .ok List.suffix_rfl
  · exact .ok List.suffix_rfl

theorem reads_atBodyEnd : F.Reads crosses Parser.atBodyEnd := by
  refine .of_cases (fun fresh => ?_) (fun fresh _ => ?_)
  · exact .ok List.suffix_rfl
  · exact .ok List.suffix_rfl

/-! ## Brackets -/

/-- No opening bracket stands on the line, nor does one end it. -/
theorem lacks_opening (F : Fork) (fresh : Occurrence) (free : Unbracketed ts)
    (opening : kind = .mark .leftParen ∨ kind = .mark .leftBrace) :
    (F.whole ts fresh).Lacks kind ∧ (F.alone ts fresh).Lacks kind := by
  cases ts with
  | nil =>
      obtain ⟨goesOn, ends⟩ := F.reads_break fresh
      have other : .newline ≠ kind := by rcases opening with rfl | rfl <;> simp
      exact ⟨goesOn.lacks other, ends.lacks other⟩
  | cons t ts =>
      obtain ⟨goesOn, ends⟩ := F.reads_token t ts fresh
      have other : t.kind ≠ kind := by
        obtain ⟨noParen, noBrace⟩ := free t List.mem_cons_self
        rcases opening with rfl | rfl
        · exact noParen
        · exact noBrace
      exact ⟨goesOn.lacks other, ends.lacks other⟩

/-- Where an opening bracket is asked for, what would be behind it does not matter. -/
theorem reads_expect_opening {wanted : Wanted} {f : Token → Parser β}
    (opening : kind = .mark .leftParen ∨ kind = .mark .leftBrace) :
    F.Reads crosses (Parser.expect kind wanted >>= f) := by
  have refuses {c : Cursor} (lacks : c.Lacks kind) :
      (Parser.expect kind wanted >>= f) c = (Parser.want wanted : Parser β) c := by
    refine Slice.bind_of_error ?_
    rw [Parser.expect, Slice.bind_of_ok (Parser.accept?_of_lacks lacks)]
    rfl
  intro ts fresh free
  obtain ⟨goesOn, ends⟩ := F.lacks_opening fresh free opening
  rw [ReadsAt, refuses goesOn, refuses ends]
  exact reads_want free

/-- Where an opening bracket is looked for, what would be behind it does not matter. -/
theorem reads_accept_opening {p q : Parser α}
    (opening : kind = .mark .leftParen ∨ kind = .mark .leftBrace) (otherwise : F.Reads crosses q) :
    F.Reads crosses (Parser.accept kind >>= fun found => if found then p else q) := by
  intro ts fresh free
  obtain ⟨goesOn, ends⟩ := F.lacks_opening fresh free opening
  rw [ReadsAt, Slice.bind_of_ok (Parser.accept_eq_ok.mpr (.inr ⟨rfl, goesOn, rfl⟩)),
    Slice.bind_of_ok (Parser.accept_eq_ok.mpr (.inr ⟨rfl, ends, rfl⟩))]
  exact otherwise free

/-! ## Expressions -/

section Expressions

variable {operator? : Parser (Option (Expr → Expr → Expr))} {operand nested : Parser Expr}

theorem reads_growLeft (operators : F.Reads false operator?) (operands : F.Reads false operand)
    (bound : Nat) (left : Expr) :
    F.Reads false (Parser.growLeft operator? operand bound left) := by
  induction bound generalizing left with
  | zero => exact .pure left
  | succ bound ih =>
      refine operators.bind fun found => ?_
      cases found with
      | none => exact .pure left
      | some combine => exact operands.bind fun right => ih _

theorem reads_leftAssociative (operators : F.Reads false operator?)
    (operands : F.Reads false operand) (bound : Nat) :
    F.Reads false (Parser.leftAssociative bound operator? operand) :=
  operands.bind fun left => reads_growLeft operators operands bound left

theorem reads_logicalOperator? {keyword : Keyword} {operator : LogicalOp} :
    F.Reads false (Parser.logicalOperator? keyword operator) :=
  (reads_accept (by simp)).bind fun _ => .ite (.pure _) (.pure _)

theorem reads_binaryOperator? {level : Parser.Level} :
    F.Reads false (Parser.binaryOperator? level) := by
  refine .of_peek? (fun fresh => ?_) (fun {t ts} fresh free => ?_)
  · simp only [F.isBreak, Parser.Level.operator?]
    exact .ok List.suffix_rfl
  · dsimp only
    cases level.operator? t.kind with
    | none => exact .ok List.suffix_rfl
    | some operator => exact Reads.skip (.pure _) free

theorem reads_binary (operands : F.Reads false operand) (bound : Nat) (levels : List Parser.Level) :
    F.Reads false (Parser.binary bound operand levels) := by
  induction levels with
  | nil => exact operands
  | cons level tighter ih => exact reads_leftAssociative reads_binaryOperator? ih bound

theorem reads_unaryOperator? : F.Reads false Parser.unaryOperator? := by
  refine (reads_accept? (by simp)).bind fun bang => ?_
  cases bang with
  | some t => exact .pure _
  | none =>
      refine (reads_accept? (by simp)).bind fun minus => ?_
      cases minus <;> exact .pure _

theorem reads_unary (operands : F.Reads false operand) (bound : Nat) :
    F.Reads false (Parser.unary operand bound) := by
  induction bound with
  | zero => exact operands
  | succ bound ih =>
      refine reads_unaryOperator?.bind fun sign => ?_
      cases sign with
      | none => exact operands
      | some sign => exact ih.bind fun _ => .pure _

theorem reads_suffixes (bound : Nat) (subject : Expr) :
    F.Reads false (Parser.suffixes nested bound subject) := by
  induction bound generalizing subject with
  | zero => exact .pure subject
  | succ bound ih =>
      refine reads_accept_opening (.inl rfl) ((reads_accept (by simp)).bind fun _ => ?_)
      exact .ite (reads_identifier.bind fun name => ih _) (.pure subject)

theorem reads_primary : F.Reads false (Parser.primary nested) := by
  refine .of_peek? (fun fresh => ?_) (fun {t ts} fresh free => ?_)
  · simp only [F.isBreak]
    exact reads_want fun _ present => by cases present
  · dsimp only
    split
    · exact Reads.skip (.pure _) free
    · exact Reads.skip (.pure _) free
    · exact Reads.skip (.pure _) free
    · exact Reads.skip (.pure _) free
    · exact Reads.skip (.pure _) free
    · exact Reads.skip (reads_freshOccurrence.bind fun _ => .pure _) free
    · exact Reads.skip (reads_freshOccurrence.bind fun _ => .pure _) free
    · next paren => exact absurd paren (free t List.mem_cons_self).1
    · exact reads_want free

theorem reads_logicalOr (bound : Nat) : F.Reads false (Parser.logicalOr bound nested) := by
  have calls : F.Reads false (Parser.call bound nested) :=
    reads_primary.bind fun subject => reads_suffixes bound subject
  have operands := reads_binary (reads_unary calls bound) bound Parser.levels
  have conjunctions : F.Reads false (Parser.leftAssociative bound
      (Parser.logicalOperator? .andWord .and) _) :=
    reads_leftAssociative reads_logicalOperator? operands bound
  exact reads_leftAssociative reads_logicalOperator? conjunctions bound

theorem reads_assignTo {line : Nat} {value : Expr} (target : Expr) :
    F.Reads false (Parser.assignTo line value target) := by
  cases target with
  | var id name => exact reads_freshOccurrence.bind fun _ => .pure _
  | get object name => exact .pure _
  | _ => exact .refuse

theorem reads_expression (bound : Nat) : F.Reads false (Parser.expression bound) := by
  induction bound with
  | zero => exact reads_want
  | succ bound ih =>
      refine (reads_logicalOr (bound + 1)).bind fun target => ?_
      refine (reads_accept? (by simp)).bind fun equal => ?_
      cases equal with
      | none => exact .pure target
      | some t => exact ih.bind fun value => reads_assignTo target

end Expressions

/-! ## Statements -/

/-- A statement that ends with its line has read the line break. -/
theorem reads_endStatement {what : LineEnd} : F.Reads true (Parser.endStatement what) := by
  have ending {t : Token} {c c₁ : Cursor} (reads : c.Reads .newline t c₁) :
      Parser.endStatement what c = .ok () c₁ := Parser.endStatement_eq_ok.mpr (.newline reads)
  refine .of_cases (fun fresh => ?_) (fun {t ts} fresh free => ?_)
  · obtain ⟨goesOn, ends⟩ := F.reads_break fresh
    rw [ReadsAt, ending goesOn, ending ends]
    exact .crossed rfl
  · obtain ⟨goesOn, ends⟩ := F.reads_token t ts fresh
    by_cases newline : t.kind = .newline
    · rw [ReadsAt, ending (newline ▸ goesOn), ending (newline ▸ ends)]
      exact .ok (List.suffix_cons t ts)
    · rw [ReadsAt, Parser.endStatement,
        Slice.bind_of_ok (Parser.accept_eq_ok.mpr (.inr ⟨rfl, goesOn.lacks newline, rfl⟩)),
        Slice.bind_of_ok (Parser.accept_eq_ok.mpr (.inr ⟨rfl, ends.lacks newline, rfl⟩))]
      have others : F.Reads true (do
          if ← Parser.accept (.mark .semicolon) then return
          if ← Parser.atBodyEnd then return
          Parser.want (.lineEnd what)) :=
        (reads_accept (by simp)).bind fun _ => .ite (.pure ()) <|
          reads_atBodyEnd.bind fun _ => .ite (.pure ()) reads_want
      exact others free

section Rules

variable {bound : Nat} {expr : Parser Expr} {nested : Parser Stmt}

theorem reads_routine {kind : RoutineKind} :
    F.Reads crosses (Parser.routine kind bound nested) :=
  reads_identifier.bind fun _ => reads_expect_opening (.inl rfl)

theorem reads_classDefinition : F.Reads crosses (Parser.classDefinition bound nested) :=
  reads_identifier.bind fun _ => reads_expect_opening (.inr rfl)

theorem reads_variableDeclaration (exprs : F.Reads false expr) :
    F.Reads true (Parser.variableDeclaration expr) := by
  refine reads_identifier.bind fun _ => (reads_accept (by simp)).bind fun _ => ?_
  exact .ite ((exprs.map some).bind fun _ => reads_endStatement.bind_pure _)
    (.bind (.pure none) fun _ => reads_endStatement.bind_pure _)

theorem reads_loopVarOf {line : Nat} (e : Expr) : F.Reads false (Parser.loopVarOf line e) := by
  cases e with
  | assign id name value => exact .pure _
  | _ => exact .refuse

theorem reads_loopVar (exprs : F.Reads false expr) : F.Reads false (Parser.loopVar expr) := by
  refine (reads_accept (by simp)).bind fun _ => .ite ?_ ?_
  · refine reads_identifier.bind fun _ => (reads_expect (by simp)).bind fun _ => ?_
    exact exprs.bind fun _ => .pure _
  · have read (line : Nat) : F.Reads false (expr >>= Parser.loopVarOf line) :=
      exprs.bind fun e => reads_loopVarOf e
    refine .of_cases (fun fresh => ?_) (fun {t ts} fresh free => ?_)
    · exact read F.lineBreak.line fun _ present => by cases present
    · exact read t.line free

theorem reads_optionalBefore {mark : Mark} {item : Parser α} (items : F.Reads false item) :
    F.Reads false (Parser.optionalBefore mark item) :=
  reads_sees.bind fun _ => .ite (.pure none) (items.map some)

theorem reads_loop (exprs : F.Reads false expr) :
    F.Reads crosses (Parser.loop bound expr nested) := by
  refine (reads_optionalBefore (reads_loopVar exprs)).bind fun _ => ?_
  refine (reads_expect (by simp)).bind fun _ => (reads_optionalBefore exprs).bind fun _ => ?_
  refine (reads_expect (by simp)).bind fun _ => (reads_optionalBefore exprs).bind fun _ => ?_
  exact reads_expect_opening (.inr rfl)

theorem reads_branch (exprs : F.Reads false expr) :
    F.Reads crosses (Parser.branch bound expr nested) :=
  exprs.bind fun _ => reads_expect_opening (.inr rfl)

theorem reads_exit {line : Nat} (exprs : F.Reads false expr) :
    F.Reads true (Parser.exit line expr) := by
  refine reads_atStatementEnd.bind fun _ => ?_
  exact .ite (.bind (.pure none) fun _ => reads_endStatement.bind_pure _)
    ((exprs.map some).bind fun _ => reads_endStatement.bind_pure _)

theorem reads_print (exprs : F.Reads false expr) : F.Reads true (Parser.print expr) :=
  exprs.bind fun _ => reads_endStatement.bind_pure _

theorem reads_expressionStatement (exprs : F.Reads false expr) :
    F.Reads true (Parser.expressionStatement expr) :=
  exprs.bind fun _ => reads_endStatement.bind_pure _

theorem reads_statement (exprs : F.Reads false expr) :
    F.Reads true (Parser.statement bound expr nested) := by
  refine .of_peek? (fun fresh => ?_) (fun {t ts} fresh free => ?_)
  · simp only [F.isBreak]
    exact reads_expressionStatement exprs fun _ present => by cases present
  · dsimp only
    split
    · exact Reads.skip reads_classDefinition free
    · exact Reads.skip (reads_routine.map _) free
    · exact Reads.skip (reads_variableDeclaration exprs) free
    · exact Reads.skip (reads_loop exprs) free
    · exact Reads.skip (reads_branch exprs) free
    · exact Reads.skip (reads_exit exprs) free
    · next brace => exact absurd brace (free t List.mem_cons_self).2
    · exact Reads.skip (reads_print exprs) free
    · exact reads_expressionStatement exprs free

end Rules

/-- A declaration on a line without opening brackets is read whatever is behind the line. -/
theorem reads_declaration (bound : Nat) : F.Reads true (Parser.declaration bound) := by
  cases bound with
  | zero => exact reads_want
  | succ bound => exact reads_statement (reads_expression (bound + 1))

end Fork

end Rill
