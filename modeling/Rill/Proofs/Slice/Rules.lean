import Rill.Proofs.Slice.Agreement

/-!
# The rules of the grammar by index

One lemma for each rule of the grammar: the reader agrees with the parser if what is nested in it
does. Behind a token that a rule has read, the nested readers need to agree only up to a bound that
is smaller by one, which ties the rules together.
-/

namespace Rill.Slice

variable {T : Tape} {n : Nat} {s : Spot} {t : Token}

/-! ## Expressions -/

section Expressions

variable {limit bound bound' : Nat} {nested : Reader Expr} {nested' : Parser Expr}
  {operand : Reader Expr} {operand' : Parser Expr}
  {operator? : Reader (Option (Expr → Expr → Expr))}
  {operator?' : Parser (Option (Expr → Expr → Expr))}

theorem agrees_growLeft (operators : T.Agrees n operator? operator?')
    (consumes : ∀ combine, Consumes operator?' (some combine))
    (operands : T.Agrees n operand operand') (fits : n ≤ bound) (fits' : n ≤ bound')
    (left : Expr) :
    T.Agrees n (growLeft operator? operand bound left)
      (Parser.growLeft operator?' operand' bound' left) := by
  refine .rounds fits fits' left fun less _ _ rest left => ?_
  refine (operators.mono less).bindPast fun answer => ?_
  cases answer with
  | none => exact .inl (.pure left)
  | some combine =>
      refine .inr ⟨consumes combine, ?_⟩
      exact (operands.mono (Nat.le_of_lt less)).bind fun right => rest _

theorem agrees_leftAssociative {strength : Nat} (operators : T.Agrees n operator? operator?')
    (finds : Parser.Finds strength operator?') (operands : T.Agrees n operand operand')
    (fits : n ≤ bound) (fits' : n ≤ bound') :
    T.Agrees n (leftAssociative bound operator? operand)
      (Parser.leftAssociative bound' operator?' operand') := by
  refine operands.bind fun left => agrees_growLeft operators ?_ operands fits fits' left
  intro combine c c₁ ran
  rcases finds.cases ran with ⟨t, _, _, reads, _⟩ | ⟨none, _⟩
  · exact reads.passes.length_lt
  · cases none

theorem agrees_logicalOperator? {keyword : Keyword} {operator : LogicalOp} :
    T.Agrees n (logicalOperator? T.tokens keyword operator)
      (Parser.logicalOperator? keyword operator) :=
  agrees_accept.bind fun _ => .ite (.pure _) (.pure _)

/-- A level is searched for the mark that stands at a spot. -/
theorem levelOperator?_eq (here : T.tokens[s.current]? = some t) (level : Parser.Level) :
    levelOperator? T.tokens level s =
      match level.operator? t.kind with
      | none => .ok none s
      | some operator => .ok (some operator) s.next := by
  induction level with
  | nil => cases kind : t.kind <;> rfl
  | cons first others ih =>
      obtain ⟨mark, operator⟩ := first
      rw [levelOperator?, accept_bind here]
      by_cases same : t.kind = .mark mark
      · simp only [same, ne_eq, reduceCtorEq, not_false_eq_true, and_self, ↓reduceIte,
          Parser.Level.operator?, List.lookup_cons_self]
        rfl
      · simp only [same, false_and, ↓reduceIte, Bool.false_eq_true, ih]
        cases kind : t.kind with
        | mark other =>
            have different : other ≠ mark := fun equal => same (equal ▸ kind)
            simp [Parser.Level.operator?, List.lookup_cons, Mark.beq_eq_decide, different]
        | _ => rfl

theorem agrees_binaryOperator? {level : Parser.Level} :
    T.Agrees n (binaryOperator? T.tokens level) (Parser.binaryOperator? level) := by
  refine agrees_of_token fun s t inside here _ => ?_
  have found := levelOperator?_eq here level
  rw [binaryOperator?, Parser.binaryOperator?]
  rcases Tape.token_cases here with ⟨rfl, _, ended⟩ | ⟨_, next, reads⟩
  · rw [T.closed] at found
    rw [bind_of_ok found, bind_of_ok (Parser.peek?_of_isAtEnd ended)]
    exact .ok (Nat.le_refl _) inside
  · rw [bind_of_ok (Parser.peek?_of_reads reads)]
    cases operator : level.operator? t.kind with
    | none =>
        rw [operator] at found
        rw [bind_of_ok found]
        simp only [operator]
        exact .ok (Nat.le_refl _) inside
    | some operator =>
        rw [operator] at found
        rw [bind_of_ok found]
        simp only [operator]
        rw [bind_of_ok (previous_next here), bind_of_ok (Parser.skip_of_reads reads)]
        exact .ok (Nat.le_succ _) next

/-- Operators of the four levels between operands that agree. -/
theorem agrees_binary (operands : T.Agrees n operand operand') (fits : n ≤ bound)
    (fits' : n ≤ bound') :
    T.Agrees n (binary T.tokens bound operand Parser.levels)
      (Parser.binary bound' operand' Parser.levels) := by
  have grow {i : Nat} {level : Parser.Level} (listed : Parser.levels[i]? = some level)
      {tighter : Reader Expr} {tighter' : Parser Expr} (agrees : T.Agrees n tighter tighter') :=
    agrees_leftAssociative agrees_binaryOperator? (Parser.finds_level listed) agrees fits fits'
  exact grow (i := 0) rfl (grow (i := 1) rfl (grow (i := 2) rfl (grow (i := 3) rfl operands)))

theorem agrees_unaryOperator? :
    T.Agrees n (unaryOperator? T.tokens) Parser.unaryOperator? := by
  refine agrees_of_token fun s t inside here _ => ?_
  rw [unaryOperator?, accept_bind here]
  split
  · next bang =>
      obtain ⟨next, reads⟩ := Tape.reads_of_token here bang.2
      rw [Parser.unaryOperator?_of_reads reads (by rw [bang.1]; rfl)]
      simp only [↓reduceIte]
      rw [bind_of_ok (previous_next here)]
      exact .ok (Nat.le_succ _) next
  · next noBang =>
      simp only [Bool.false_eq_true, ↓reduceIte]
      rw [accept_bind here]
      split
      · next minus =>
          obtain ⟨next, reads⟩ := Tape.reads_of_token here minus.2
          rw [Parser.unaryOperator?_of_reads reads (by rw [minus.1]; rfl)]
          simp only [↓reduceIte]
          rw [bind_of_ok (previous_next here)]
          exact .ok (Nat.le_succ _) next
      · next noMinus =>
          have lacks : (T.cursor s).LacksSign := by
            rcases Tape.token_cases here with ⟨_, _, ended⟩ | ⟨inner, _, reads⟩
            · exact ended.lacksSign
            · refine reads.lacksSign ?_
              unfold Grammar.sign?
              split
              · next bang => exact absurd ⟨bang, inner⟩ noBang
              · next minus => exact absurd ⟨minus, inner⟩ noMinus
              · rfl
          rw [Parser.unaryOperator?_of_lacks lacks]
          exact .ok (Nat.le_refl _) inside

theorem agrees_unary (operands : T.Agrees n operand operand') (fits : n ≤ bound)
    (fits' : n ≤ bound') :
    T.Agrees n (unary T.tokens operand bound) (Parser.unary operand' bound') := by
  refine .rounds (p := fun b (_ : Unit) => unary T.tokens operand b)
    (q := fun b _ => Parser.unary operand' b) fits fits' () fun less _ _ inner _ => ?_
  refine agrees_unaryOperator?.bindPast fun answer => ?_
  cases answer with
  | none => exact .inl (operands.mono less)
  | some sign =>
      refine .inr ⟨?_, (inner ()).bind fun _ => .pure _⟩
      intro c c₁ ran
      rcases c.readsSign_or_lacks with ⟨t, c₂, operator, reads, found⟩ | lacks
      · rw [Parser.unaryOperator?_of_reads reads found] at ran
        cases ran
        exact reads.passes.length_lt
      · rw [Parser.unaryOperator?_of_lacks lacks] at ran
        cases ran

theorem agrees_argumentSeparator (below : n ≤ limit) :
    T.Agrees n (argumentSeparator T.tokens limit) Parser.argumentSeparator := by
  refine (agrees_skipNewlines below).bind fun _ => agrees_accept.bind fun _ => ?_
  exact .ite ((agrees_skipNewlines below).bind fun _ => .pure true) (.pure false)

theorem agrees_finishCall {callee : Expr} (nests : T.Agrees n nested nested') (below : n ≤ limit) :
    T.Agrees n (finishCall T.tokens limit nested callee) (Parser.finishCall nested' callee) := by
  refine (agrees_skipNewlines below).bind fun _ => agrees_sees.bind fun _ => ?_
  have list := agrees_separated .arguments nests (agrees_argumentSeparator below)
    Parser.maximumListed
  exact .ite (.bind (.pure []) fun _ => agrees_expect.bind fun _ => .pure _)
    (list.bind fun _ => agrees_expect.bind fun _ => .pure _)

/-- Each suffix is behind a token of its own, so less is nested in it than in the expression. -/
theorem agrees_suffixes (nests : T.Agrees n nested nested') (below : n + 1 ≤ limit)
    (fits : n + 1 ≤ bound) (fits' : n + 1 ≤ bound') (subject : Expr) :
    T.Agrees (n + 1) (suffixes T.tokens limit nested bound subject)
      (Parser.suffixes nested' bound' subject) := by
  refine .rounds fits fits' subject fun less _ _ rest subject => ?_
  have within := Nat.le_of_lt_succ less
  refine .accept ?_ (.accept ?_ (.pure subject))
  · exact (agrees_finishCall (nests.mono within) (by omega)).bind rest
  · exact agrees_identifier.bind fun name => rest _

/-- An expression in parentheses, from behind the opening one on. -/
theorem agrees_group (nests : T.Agrees n nested nested') (below : n ≤ limit) :
    T.Agrees n
      (do
        skipNewlines T.tokens limit
        let inner ← nested
        skipNewlines T.tokens limit
        let _ ← expect T.tokens (.mark .rightParen) .groupEnd
        return Expr.group inner)
      (do
        Parser.skipNewlines
        let inner ← nested'
        Parser.skipNewlines
        let _ ← Parser.expect (.mark .rightParen) .groupEnd
        return Expr.group inner) := by
  refine (agrees_skipNewlines below).bind fun _ => nests.bind fun inner => ?_
  exact (agrees_skipNewlines below).bind fun _ => agrees_expect.bind fun _ => .pure _

/-- What is read behind a token agrees up to a bound that is greater by one for the token. -/
theorem Tape.Agrees.behind {α : Type} {reader : Reader α} {parser : Parser α}
    (agrees : T.Agrees n reader parser) (here : T.tokens[s.current]? = some t)
    (inner : t.kind ≠ .endOfInput) (left : T.body.length < n + 1 + s.current) :
    T.Answers s.current (reader s.next) ((Parser.skip >>= fun _ => parser) (T.cursor s)) := by
  obtain ⟨next, reads⟩ := Tape.reads_of_token here inner
  rw [bind_of_ok (Parser.skip_of_reads reads)]
  exact (agrees next (by simp only [Spot.next_current]; omega)).of_le (Nat.le_succ _)

theorem agrees_freshOccurrence : T.Agrees n freshOccurrence Parser.freshOccurrence :=
  fun _ inside _ => .ok (Nat.le_refl _) inside

theorem agrees_primary (nests : T.Agrees n nested nested') (below : n ≤ limit) :
    T.Agrees (n + 1) (primary T.tokens limit nested) (Parser.primary nested') := by
  refine agrees_of_token fun s t inside here left => ?_
  rcases Tape.token_cases here with ⟨rfl, _, ended⟩ | ⟨inner, -, reads⟩
  · rw [Parser.primary, bind_of_ok (Parser.peek?_of_isAtEnd ended)]
    simp only [primary, reference, accept_bind here, bind_of_ok (peek_of_token here), T.closed,
      ne_eq, not_true_eq_false, and_false, Bool.false_eq_true, ↓reduceIte]
    exact agrees_want inside left
  · rw [Parser.primary, bind_of_ok (Parser.peek?_of_reads reads)]
    cases kind : t.kind <;>
      simp only [primary, reference, accept_bind here, bind_of_ok (peek_of_token here), kind,
        Kind.keyword.injEq, Kind.mark.injEq, reduceCtorEq, ne_eq, not_false_eq_true, and_true,
        false_and, ↓reduceIte, Bool.false_eq_true]
    case keyword word =>
      cases word <;> simp only [reduceCtorEq, ↓reduceIte]
      case falseWord => exact Tape.Agrees.behind (.pure _) here inner left
      case trueWord => exact Tape.Agrees.behind (.pure _) here inner left
      case nilWord => exact Tape.Agrees.behind (.pure _) here inner left
      case selfWord =>
        rw [bind_of_ok (previous_next here)]
        exact (agrees_freshOccurrence.bind fun _ => .pure _).behind here inner left
      all_goals exact agrees_want inside left
    case mark mark =>
      cases mark <;> simp only [reduceCtorEq, ↓reduceIte]
      case leftParen => exact (agrees_group nests below).behind here inner left
      all_goals exact agrees_want inside left
    case identifier =>
      rw [bind_of_ok (previous_next here)]
      exact (agrees_freshOccurrence.bind fun _ => .pure _).behind here inner left
    case number value =>
      rw [bind_of_ok (advance_of_token here inner)]
      exact Tape.Agrees.behind (.pure _) here inner left
    case string text =>
      rw [bind_of_ok (advance_of_token here inner)]
      exact Tape.Agrees.behind (.pure _) here inner left
    case newline => exact agrees_want inside left
    case endOfInput => exact absurd kind inner

theorem agrees_call (nests : T.Agrees n nested nested') (below : n + 1 ≤ limit)
    (fits : n + 1 ≤ bound) :
    T.Agrees (n + 1) (call T.tokens limit nested) (Parser.call bound nested') :=
  (agrees_primary nests (Nat.le_of_succ_le below)).bind
    fun subject => agrees_suffixes nests below below fits subject

theorem agrees_logicalOr (nests : T.Agrees n nested nested') (below : n + 1 ≤ limit)
    (fits : n + 1 ≤ bound) :
    T.Agrees (n + 1) (logicalOr T.tokens limit nested) (Parser.logicalOr bound nested') := by
  have operands := agrees_unary (agrees_call nests below fits) below fits
  have conjunctions := agrees_leftAssociative agrees_logicalOperator? Parser.finds_and
    (agrees_binary operands below fits) below fits
  exact agrees_leftAssociative agrees_logicalOperator? Parser.finds_or conjunctions below fits

/-- What cannot be assigned to is reported at the equals sign, which has been read before. -/
theorem answers_assignTo {index : Nat} {equal : Token} {value : Expr} (inside : T.Inside s)
    (earlier : index ≤ s.current) (there : T.tokens[index]? = some equal) (target : Expr) :
    T.Answers index (assignTo index equal.line value target s)
      (Parser.assignTo equal.line value target (T.cursor s)) := by
  cases target with
  | var id name => exact .ok earlier inside
  | get object name => exact .ok earlier inside
  | _ => exact .refused (Nat.le_refl _) earlier inside there rfl

theorem accept?_eq {kind : Kind} (here : T.tokens[s.current]? = some t) :
    accept? T.tokens kind s =
      if t.kind = kind ∧ t.kind ≠ .endOfInput then .ok (some (s.current, t)) s.next
      else .ok none s := by
  rw [accept?, bind_of_ok (current_apply s), accept_bind here]
  split
  · exact bind_of_ok (previous_next here)
  · rfl

theorem agrees_assignment (nests : T.Agrees n nested nested') (below : n + 1 ≤ limit)
    (fits : n + 1 ≤ bound) :
    T.Agrees (n + 1) (assignment T.tokens limit nested) (Parser.assignment bound nested') := by
  intro s inside left
  refine (agrees_logicalOr nests below fits inside left).bind fun target s₁ onward inside₁ _ => ?_
  obtain ⟨t, here⟩ := inside₁.exists_token
  by_cases equal : t.kind = .mark .equal
  · have inner : t.kind ≠ .endOfInput := by simp [equal]
    obtain ⟨next, reads⟩ := Tape.reads_of_token here inner
    rw [bind_of_ok ((accept?_eq here).trans (if_pos ⟨equal, inner⟩)),
      bind_of_ok (Parser.accept?_of_reads (equal ▸ reads))]
    have value := (nests next (by simp only [Spot.next_current]; omega)).of_le (Nat.le_succ _)
    refine (value.bind fun value s₂ further inside₂ _ => ?_).of_le onward
    exact answers_assignTo inside₂ further here target
  · rw [bind_of_ok ((accept?_eq here).trans (if_neg fun stands => equal stands.1)),
      bind_of_ok (Parser.accept?_of_lacks (Tape.lacks_of_token here equal))]
    exact .ok onward inside₁

theorem agrees_expression (fits : n ≤ bound) (fits' : n ≤ bound') :
    T.Agrees n (expression T.tokens bound) (Parser.expression bound') := by
  refine .rounds (p := fun b (_ : Unit) => expression T.tokens b)
    (q := fun b _ => Parser.expression b) fits fits' () fun _ within within' nests _ => ?_
  exact agrees_assignment (nests ()) (Nat.succ_le_succ within) (Nat.succ_le_succ within')

end Expressions

/-! ## Statements -/

section Statements

variable {limit bound : Nat} {expr : Reader Expr} {expr' : Parser Expr} {nested : Reader Stmt}
  {nested' : Parser Stmt}

theorem agrees_block (nests : T.Agrees n nested nested')
    (sound : Parser.Sound nested' Grammar.Declaration) (below : n ≤ limit) (fits : n ≤ bound) :
    T.Agrees n (block T.tokens limit nested) (Parser.block bound nested') := by
  have body := agrees_bodyItems nests (fun _ _ _ ran => (sound ran).passes.length_lt) below below
    fits
  exact body.bind fun _ => agrees_expect.bind fun _ => .pure _

theorem agrees_parameters : T.Agrees n (parameters T.tokens) Parser.parameters := by
  have names : T.Agrees n (identifier T.tokens .parameterName)
      (Parser.identifier .parameterName) := agrees_identifier
  have commas : T.Agrees n (accept T.tokens (.mark .comma)) (Parser.accept (.mark .comma)) :=
    agrees_accept
  have list := agrees_separated .parameters names commas Parser.maximumListed
  refine agrees_sees.bind fun _ => ?_
  exact .ite (.bind (.pure []) fun _ => agrees_expect.bind fun _ => .pure _)
    (list.bind fun _ => agrees_expect.bind fun _ => .pure _)

theorem agrees_routine {kind : RoutineKind} (nests : T.Agrees n nested nested')
    (sound : Parser.Sound nested' Grammar.Declaration) (below : n ≤ limit) (fits : n ≤ bound) :
    T.Agrees n (routine T.tokens limit nested kind) (Parser.routine kind bound nested') := by
  refine agrees_identifier.bind fun _ => agrees_expect.bind fun _ => ?_
  refine agrees_parameters.bind fun _ => agrees_expect.bind fun _ => ?_
  exact (agrees_block nests sound below fits).bind fun _ => .pure _

theorem agrees_method (nests : T.Agrees n nested nested')
    (sound : Parser.Sound nested' Grammar.Declaration) (below : n ≤ limit) (fits : n ≤ bound) :
    T.Agrees n (method T.tokens limit nested) (Parser.method bound nested') :=
  agrees_expect.bind fun _ => agrees_routine nests sound below fits

theorem agrees_classDefinition (nests : T.Agrees n nested nested')
    (sound : Parser.Sound nested' Grammar.Declaration) (below : n ≤ limit) (fits : n ≤ bound) :
    T.Agrees n (classDefinition T.tokens limit nested) (Parser.classDefinition bound nested') := by
  have consumes (r : Routine) : Consumes (Parser.method bound nested') r := by
    intro c c₁ ran
    obtain ⟨word, c₂, reads, rest⟩ := Parser.method_sound sound ran
    exact (reads.passes.trans rest.passes).length_lt
  have methods := agrees_bodyItems (agrees_method nests sound below fits) consumes below below fits
  refine agrees_identifier.bind fun _ => agrees_expect.bind fun _ => ?_
  exact methods.bind fun _ => agrees_expect.bind fun _ => .pure _

theorem agrees_variableDeclaration (exprs : T.Agrees n expr expr') :
    T.Agrees n (variableDeclaration T.tokens expr) (Parser.variableDeclaration expr') := by
  refine agrees_identifier.bind fun name => agrees_accept.bind fun _ => ?_
  exact .ite ((exprs.map some).bind fun _ => agrees_endStatement.bind fun _ => .pure _)
    (.bind (.pure none) fun _ => agrees_endStatement.bind fun _ => .pure _)

/-- What is no assignment is reported at its first token. -/
theorem answers_loopVarOf {index : Nat} (inside : T.Inside s) (earlier : index ≤ s.current)
    (there : T.tokens[index]? = some t) (e : Expr) :
    T.Answers index (loopVarOf index t.line e s)
      (Parser.loopVarOf t.line e (T.cursor s)) := by
  cases e with
  | assign id name value => exact .ok earlier inside
  | _ => exact .refused (Nat.le_refl _) earlier inside there rfl

theorem agrees_loopVar (exprs : T.Agrees n expr expr') :
    T.Agrees n (loopVar T.tokens expr) (Parser.loopVar expr') := by
  refine agrees_accept.bind fun found => .ite ?_ ?_
  · refine agrees_identifier.bind fun _ => agrees_expect.bind fun _ => ?_
    exact exprs.bind fun _ => .pure _
  · refine agrees_of_token fun s t inside here left => ?_
    rw [bind_of_ok (current_apply s), bind_of_ok (peek_of_token here),
      bind_of_ok (Parser.get_apply (T.cursor s)), Tape.cursor_line here]
    refine (exprs inside left).bind fun e s₁ onward inside₁ _ => ?_
    exact answers_loopVarOf inside₁ onward here e

theorem agrees_optionalBefore {α : Type} {mark : Mark} {item : Reader α} {item' : Parser α}
    (items : T.Agrees n item item') :
    T.Agrees n (optionalBefore T.tokens mark item) (Parser.optionalBefore mark item') :=
  agrees_sees.bind fun _ => .ite (.pure none) (items.map some)

theorem agrees_loop (exprs : T.Agrees n expr expr') (nests : T.Agrees n nested nested')
    (sound : Parser.Sound nested' Grammar.Declaration) (below : n ≤ limit) (fits : n ≤ bound) :
    T.Agrees n (loop T.tokens limit expr nested) (Parser.loop bound expr' nested') := by
  refine (agrees_optionalBefore (agrees_loopVar exprs)).bind fun _ => agrees_expect.bind fun _ => ?_
  refine (agrees_optionalBefore exprs).bind fun _ => agrees_expect.bind fun _ => ?_
  refine (agrees_optionalBefore exprs).bind fun _ => agrees_expect.bind fun _ => ?_
  exact (agrees_block nests sound below fits).bind fun _ => .pure _

theorem agrees_print (exprs : T.Agrees n expr expr') :
    T.Agrees n (print T.tokens expr) (Parser.print expr') :=
  exprs.bind fun _ => agrees_endStatement.bind fun _ => .pure _

theorem agrees_expressionStatement (exprs : T.Agrees n expr expr') :
    T.Agrees n (expressionStatement T.tokens expr) (Parser.expressionStatement expr') :=
  exprs.bind fun _ => agrees_endStatement.bind fun _ => .pure _

/-- What is read of a return behind its keyword, which is what stands in front. -/
theorem agrees_exit {line : Nat} (exprs : T.Agrees n expr expr') :
    T.Agrees n
      (do
        let value ← if ← atStatementEnd T.tokens then pure none else some <$> expr
        endStatement T.tokens .returnValue
        return Stmt.exit line value)
      (Parser.exit line expr') := by
  refine agrees_atStatementEnd.bind fun _ => ?_
  exact .ite (.bind (.pure none) fun _ => agrees_endStatement.bind fun _ => .pure _)
    ((exprs.map some).bind fun _ => agrees_endStatement.bind fun _ => .pure _)

/-- What follows `else` agrees if a conditional does with what is nested and begins with `if`. -/
theorem agrees_elseBody {conditional : Reader Stmt} (nests : T.Agrees n nested nested')
    (sound : Parser.Sound nested' Grammar.Declaration)
    (chained : ∀ ⦃s : Spot⦄ ⦃t : Token⦄, T.tokens[s.current]? = some t →
      t.kind = .keyword .ifWord → T.body.length < n + s.current →
      T.Answers s.current (conditional s.next) (nested' (T.cursor s)))
    (below : n ≤ limit) (fits : n ≤ bound) :
    T.Agrees n (elseBody T.tokens limit nested conditional) (Parser.elseBody bound nested') := by
  refine agrees_of_token fun s t inside here left => ?_
  rw [elseBody, accept_bind here, Parser.elseBody]
  by_cases word : t.kind = .keyword .ifWord
  · have inner : t.kind ≠ .endOfInput := by simp [word]
    obtain ⟨_, reads⟩ := Tape.reads_of_token here inner
    rw [if_pos ⟨word, inner⟩, bind_of_ok (Parser.sees_of_reads (word ▸ reads))]
    exact (chained here word left).bind fun other s₁ onward inside₁ _ => .ok onward inside₁
  · rw [if_neg fun stands => word stands.1,
      bind_of_ok (Parser.sees_of_lacks (Tape.lacks_of_token here word))]
    exact (agrees_expect.bind fun _ => agrees_block nests sound below fits) inside left

theorem declaration_of_if {word : Token} {c c₁ : Cursor}
    (reads : c.Reads (.keyword .ifWord) word c₁) :
    Parser.declaration (bound + 1) c =
      Parser.branch (bound + 1) (Parser.expression (bound + 1)) (Parser.declaration bound) c₁ := by
  rw [Parser.declaration, Parser.statement, bind_of_ok (Parser.peek?_of_reads reads)]
  simp only [reads.kind_eq]
  rw [bind_of_ok (Parser.skip_of_reads reads)]

/-- By index, one conditional calls the next; a parser reads it as a nested statement. -/
theorem agrees_branch {limit depth bound : Nat} (bound' : Nat)
    (nests : ∀ {k b : Nat}, k < n → k ≤ b → T.Agrees k nested (Parser.declaration b))
    (below : n ≤ limit) (deep : n ≤ depth) (fits : n ≤ bound) (fits' : n ≤ bound' + 1) :
    T.Agrees n (branch T.tokens limit (expression T.tokens depth) nested bound)
      (Parser.branch (bound' + 1) (Parser.expression (bound' + 1))
        (Parser.declaration bound')) := by
  induction n generalizing bound bound' with
  | zero => exact .zero
  | succ n ih =>
      obtain ⟨bound, rfl⟩ := Nat.exists_eq_succ_of_ne_zero (Nat.ne_zero_of_lt fits)
      have sound := Parser.declaration_sound bound'
      have inner : T.Agrees n nested (Parser.declaration bound') :=
        nests (Nat.lt_succ_self n) (Nat.le_of_succ_le_succ fits')
      refine (agrees_expression deep fits').bind fun _ => .expect fun _ => ?_
      refine (agrees_block inner sound (by omega) (by omega)).bind fun _ => ?_
      refine (agrees_acceptElse (by omega)).bind fun _ => ?_
      refine .ite (.bind (.map (agrees_elseBody inner sound ?_ (by omega) (by omega)) _)
        fun _ => .pure _) (.bind (.pure none) fun _ => .pure _)
      -- The conditional behind `else` is nested for the parser, and one round for the reader.
      intro s t here word left
      obtain ⟨next, reads⟩ := Tape.reads_of_token here (by simp [word])
      have room : bound' ≠ 0 := by
        unfold Tape.Inside at next
        simp only [Spot.next_current] at next
        omega
      obtain ⟨bound', rfl⟩ := Nat.exists_eq_succ_of_ne_zero room
      rw [declaration_of_if (word ▸ reads)]
      have other := ih bound' (fun less within => nests (Nat.lt_succ_of_lt less) within) (by omega)
        (by omega) (Nat.le_of_succ_le_succ fits) (by omega)
      exact (other next (by simp only [Spot.next_current]; omega)).of_le (Nat.le_succ _)

/-- The first token of a statement tells which rule reads the rest. -/
theorem agrees_statement (exprs : T.Agrees (n + 1) expr expr') (nests : T.Agrees n nested nested')
    (sound : Parser.Sound nested' Grammar.Declaration)
    (branches : T.Agrees n (branch T.tokens limit expr nested limit)
      (Parser.branch bound expr' nested'))
    (below : n ≤ limit) (fits : n ≤ bound) :
    T.Agrees (n + 1) (statement T.tokens limit expr nested)
      (Parser.statement bound expr' nested') := by
  have others := exprs.mono (Nat.le_succ n)
  refine agrees_of_token fun s t inside here left => ?_
  rcases Tape.token_cases here with ⟨rfl, _, ended⟩ | ⟨inner, -, reads⟩
  · rw [Parser.statement, bind_of_ok (Parser.peek?_of_isAtEnd ended)]
    simp only [statement, accept_bind here, T.closed, ne_eq, not_true_eq_false, and_false,
      Bool.false_eq_true, ↓reduceIte]
    exact agrees_expressionStatement exprs inside left
  · rw [Parser.statement, bind_of_ok (Parser.peek?_of_reads reads)]
    cases kind : t.kind <;>
      simp only [statement, accept_bind here, kind, Kind.keyword.injEq, Kind.mark.injEq,
        reduceCtorEq, ne_eq, not_false_eq_true, and_true, false_and, ↓reduceIte,
        Bool.false_eq_true]
    case keyword word =>
      cases word <;> simp only [reduceCtorEq, ↓reduceIte]
      case classWord =>
        exact (agrees_classDefinition nests sound below fits).behind here inner left
      case fnWord =>
        exact ((agrees_routine nests sound below fits).map _).behind here inner left
      case letWord => exact (agrees_variableDeclaration others).behind here inner left
      case forWord => exact (agrees_loop others nests sound below fits).behind here inner left
      case ifWord => exact branches.behind here inner left
      case returnWord =>
        rw [exit, bind_of_ok (previous_next here)]
        exact (agrees_exit others).behind here inner left
      case printWord => exact (agrees_print others).behind here inner left
      all_goals exact agrees_expressionStatement exprs inside left
    case mark mark =>
      cases mark <;> simp only [reduceCtorEq, ↓reduceIte]
      case leftBrace => exact ((agrees_block nests sound below fits).map _).behind here inner left
      all_goals exact agrees_expressionStatement exprs inside left
    all_goals exact agrees_expressionStatement exprs inside left

end Statements

/-- Wherever fewer tokens are left than its bound, a declaration is read as it is parsed. -/
theorem agrees_declaration {n bound bound' : Nat} (fits : n ≤ bound) (fits' : n ≤ bound') :
    T.Agrees n (declaration T.tokens bound) (Parser.declaration bound') := by
  induction n using Nat.strongRecOn generalizing bound bound' with
  | ind n ih =>
    cases n with
    | zero => exact .zero
    | succ n =>
        obtain ⟨bound, rfl⟩ := Nat.exists_eq_succ_of_ne_zero (Nat.ne_zero_of_lt fits)
        obtain ⟨bound', rfl⟩ := Nat.exists_eq_succ_of_ne_zero (Nat.ne_zero_of_lt fits')
        have nests {k b : Nat} (less : k ≤ n) (within : k ≤ b) :
            T.Agrees k (declaration T.tokens bound) (Parser.declaration b) :=
          ih k (Nat.lt_succ_of_le less) (by omega) within
        have below : n ≤ bound + 1 := Nat.le_of_succ_le fits
        have branches := agrees_branch bound' (fun less => nests (Nat.le_of_lt less)) below below
          below (Nat.le_of_succ_le fits')
        exact agrees_statement (agrees_expression fits fits')
          (nests (Nat.le_refl n) (Nat.le_of_succ_le_succ fits')) (Parser.declaration_sound bound')
          branches (by omega) (by omega)

end Rill.Slice
