import Rill.Proofs.Syntax.Extent
import Rill.Proofs.Syntax.Recast
import Rill.Proofs.Syntax.Recognition
import Rill.Proofs.Token.Joining

/-!
# Phrases elsewhere

A phrase stays one when its tokens stand further down, when numbers are given out from somewhere
else, and when more tokens follow behind a line break. Its tree is then the recast one. Only where a
phrase ends with the input, the line break that follows now may belong to its last statement.
-/

namespace Rill

namespace Cursor

/-- A place further down and with other numbers, when other tokens follow. -/
def recast (r : Recast) (tail : List Token) (endLine : Nat) (c : Cursor) : Cursor :=
  ⟨c.upcoming.map (Token.lower r.lines) ++ tail, endLine, r.ids c.fresh⟩

/--
The place where a phrase ends when other tokens follow: the same one, or behind the line break that
follows where the input ended.
-/
def Lands (r : Recast) (tail : List Token) (endLine : Nat) (c d : Cursor) : Prop :=
  d = c.recast r tail endLine ∨
    c.IsAtEnd ∧ ∃ t, (c.recast r tail endLine).Reads .newline t d

variable {r : Recast} {tail : List Token} {endLine : Nat} {c c₁ d : Cursor} {kind : Kind}
  {t : Token}

theorem Reads.recast (reads : c.Reads kind t c₁) :
    (c.recast r tail endLine).Reads kind (t.lower r.lines) (c₁.recast r tail endLine) := by
  cases reads with
  | next same => exact .next same

theorem recast_numbered {first : Occurrence} (steps : r.StepsFrom first)
    (above : first ≤ c.fresh) :
    c.numbered.recast r tail endLine = (c.recast r tail endLine).numbered := by
  rw [Cursor.recast, numbered_fresh, steps c.fresh above]
  rfl

theorem Reads.recast_behind_numbered {first : Occurrence} (reads : c.numbered.Reads kind t c₁)
    (steps : r.StepsFrom first) (above : first ≤ c.fresh) :
    (c.recast r tail endLine).numbered.Reads kind (t.lower r.lines)
      (c₁.recast r tail endLine) := by
  rw [← recast_numbered steps above]
  exact reads.recast

/-- Behind what cannot end the input, a phrase ends at the same place. -/
theorem Lands.eq_of_reads (lands : c.Lands r tail endLine d) (reads : c.Reads kind t c₁) :
    d = c.recast r tail endLine := by
  rcases lands with same | ⟨ended, _⟩
  · exact same
  · exact absurd ended reads.not_isAtEnd

end Cursor

namespace Grammar

open Cursor

variable {r : Recast} {tail : List Token} {endLine : Nat} {first : Occurrence}

theorem Newlines.recast {c c₁ : Cursor} (breaks : Newlines c c₁) :
    Newlines (c.recast r tail endLine) (c₁.recast r tail endLine) := by
  induction breaks with
  | none => exact .none
  | more reads _ ih => exact .more reads.recast ih

theorem connective?_lower {t : Token} {strength : Nat} {combine : Expr → Expr → Expr}
    (found : connective? t = some (strength, combine)) (r : Recast) :
    ∃ combine', connective? (t.lower r.lines) = some (strength, combine') ∧
      ∀ left right : Expr,
        (combine left right).recast r = combine' (left.recast r) (right.recast r) := by
  unfold connective? at *
  split at found
  case h_13 => cases found
  all_goals
    next same =>
      cases found
      rw [show (t.lower r.lines).kind = t.kind from rfl, same]
      exact ⟨_, rfl, fun left right => rfl⟩

/-! ## Expressions -/

mutual

theorem Expression.recast (steps : r.StepsFrom first) :
    ∀ {c c₁ : Cursor} {e : Expr}, Expression c e c₁ → first ≤ c.fresh →
    Expression (c.recast r tail endLine) (e.recast r) (c₁.recast r tail endLine)
  | _, _, _, .value operands, above => .value (Operands.recast steps operands above)
  | c, _, _, @Expression.assign _ c₁ c₂ c₃ name equal value named equals assigned, above => by
      have above₁ : first ≤ c₁.fresh := Nat.le_trans above named.passes.reaches.fresh_le
      have above₂ : first ≤ c₂.fresh :=
        Nat.le_trans (Nat.le_succ_of_le above₁) equals.passes.reaches.fresh_le
      have above₃ : first ≤ c₃.fresh := Nat.le_trans above₂ assigned.passes.reaches.fresh_le
      rw [recast_numbered steps above₃]
      exact .assign named.recast (equals.recast_behind_numbered steps above₁)
        (Expression.recast steps assigned above₂)
  | _, _, _, .set called dot name equal assigned, above => by
      have above₁ := Nat.le_trans above called.passes.reaches.fresh_le
      have target := (dot.passes.trans name.passes).trans equal.passes
      exact .set (Call.recast steps called above) dot.recast name.recast equal.recast
        (Expression.recast steps assigned (Nat.le_trans above₁ target.reaches.fresh_le))

theorem Operands.recast (steps : r.StepsFrom first) :
    ∀ {n : Nat} {c c₁ : Cursor} {e : Expr}, Operands n c e c₁ →
    first ≤ c.fresh → Operands n (c.recast r tail endLine) (e.recast r) (c₁.recast r tail endLine)
  | _, _, _, _, .chain loose operand rest, above =>
      .chain loose (Operands.recast steps operand above)
        (Chained.recast steps rest (Nat.le_trans above operand.passes.reaches.fresh_le))
  | _, _, _, _, .signed operand, above => .signed (Signed.recast steps operand above)

theorem Chained.recast (steps : r.StepsFrom first) :
    ∀ {n : Nat} {left e : Expr} {c c₁ : Cursor}, Chained n left c e c₁ →
    first ≤ c.fresh →
    Chained n (left.recast r) (c.recast r tail endLine) (e.recast r) (c₁.recast r tail endLine)
  | _, _, _, _, _, .done, _ => .done
  | _, left, _, _, _, @Chained.more _ _ right _ _ _ _ _ _ combine operator found operand rest,
      above => by
      have above₁ := Nat.le_trans above operator.passes.reaches.fresh_le
      have above₂ := Nat.le_trans above₁ operand.passes.reaches.fresh_le
      obtain ⟨combine', found', combines⟩ := connective?_lower found r
      have rest' := Chained.recast steps rest above₂
      rw [combines left right] at rest'
      exact .more operator.recast found' (Operands.recast steps operand above₁) rest'

theorem Signed.recast (steps : r.StepsFrom first) :
    ∀ {c c₁ : Cursor} {e : Expr}, Signed c e c₁ → first ≤ c.fresh →
    Signed (c.recast r tail endLine) (e.recast r) (c₁.recast r tail endLine)
  | _, _, _, @Signed.sign _ _ _ t _ _ sign found operand, above => by
      have above₁ := Nat.le_trans above sign.passes.reaches.fresh_le
      exact .sign (t := t.lower r.lines) sign.recast found (Signed.recast steps operand above₁)
  | _, _, _, .call called, above => .call (Call.recast steps called above)

theorem Call.recast (steps : r.StepsFrom first) :
    ∀ {c c₁ : Cursor} {e : Expr}, Call c e c₁ → first ≤ c.fresh →
    Call (c.recast r tail endLine) (e.recast r) (c₁.recast r tail endLine)
  | _, _, _, .primary subject suffixed, above =>
      .primary (Primary.recast steps subject above)
        (Suffixed.recast steps suffixed (Nat.le_trans above subject.passes.reaches.fresh_le))

theorem Suffixed.recast (steps : r.StepsFrom first) :
    ∀ {subject e : Expr} {c c₁ : Cursor}, Suffixed subject c e c₁ →
    first ≤ c.fresh →
    Suffixed (subject.recast r) (c.recast r tail endLine) (e.recast r) (c₁.recast r tail endLine)
  | _, _, _, _, .done, _ => .done
  | _, _, _, _, .call opens listed closes rest, above => by
      have above₁ := Nat.le_trans above opens.passes.reaches.fresh_le
      have above₂ := Nat.le_trans above₁ (listed.reaches.trans closes.passes.reaches).fresh_le
      exact .call opens.recast (Arguments.recast steps listed above₁) closes.recast
        (Suffixed.recast steps rest above₂)
  | _, _, _, _, .get dot name rest, above =>
      .get dot.recast name.recast (Suffixed.recast steps rest
        (Nat.le_trans above (dot.passes.trans name.passes).reaches.fresh_le))

theorem Primary.recast (steps : r.StepsFrom first) :
    ∀ {c c₁ : Cursor} {e : Expr}, Primary c e c₁ → first ≤ c.fresh →
    Primary (c.recast r tail endLine) (e.recast r) (c₁.recast r tail endLine)
  | _, _, _, @Primary.constant _ _ t _ reads constant, _ =>
      .constant (t := t.lower r.lines) reads.recast constant
  | _, _, _, .selfRef reads, above => by
      rw [recast_numbered steps (Nat.le_trans above reads.passes.reaches.fresh_le)]
      exact .selfRef reads.recast
  | _, _, _, .var reads, above => by
      rw [recast_numbered steps (Nat.le_trans above reads.passes.reaches.fresh_le)]
      exact .var reads.recast
  | _, _, _, .group opens before inner behind closes, above =>
      .group opens.recast before.recast
        (Expression.recast steps inner
          (Nat.le_trans above (opens.passes.reaches.trans before.reaches).fresh_le))
        behind.recast closes.recast

theorem Arguments.recast (steps : r.StepsFrom first) :
    ∀ {c c₁ : Cursor} {arguments : List Expr}, Arguments c arguments c₁ →
    first ≤ c.fresh →
    Arguments (c.recast r tail endLine) (Expr.recastAll r arguments) (c₁.recast r tail endLine)
  | _, _, _, .none breaks, _ => .none breaks.recast
  | _, _, _, .some before list behind few, above =>
      .some before.recast
        (ArgumentList.recast steps list (Nat.le_trans above before.reaches.fresh_le)) behind.recast
        (Nat.le_trans (Nat.le_of_eq (Expr.length_recastAll r _)) few)

theorem ArgumentList.recast (steps : r.StepsFrom first) : ∀ {c c₁ : Cursor} {arguments : List Expr},
    ArgumentList c arguments c₁ → first ≤ c.fresh →
    ArgumentList (c.recast r tail endLine) (Expr.recastAll r arguments) (c₁.recast r tail endLine)
  | _, _, _, .one expression, above => .one (Expression.recast steps expression above)
  | _, _, _, .more expression before comma behind rest, above => by
      have above₁ := Nat.le_trans above expression.passes.reaches.fresh_le
      have separated := (before.reaches.trans comma.passes.reaches).trans behind.reaches
      exact .more (Expression.recast steps expression above) before.recast comma.recast
        behind.recast (ArgumentList.recast steps rest (Nat.le_trans above₁ separated.fresh_le))

end

/-! ## Parts of statements -/

theorem Names.recast {c c₁ : Cursor} {names : List Ident} (list : Names c names c₁) :
    Names (c.recast r tail endLine) (names.map (Ident.lower r.lines))
      (c₁.recast r tail endLine) := by
  induction list with
  | one name => exact .one name.recast
  | more name comma _ ih => exact .more name.recast comma.recast ih

theorem Parameters.recast {c c₁ : Cursor} {params : List Ident} (list : Parameters c params c₁) :
    Parameters (c.recast r tail endLine) (params.map (Ident.lower r.lines))
      (c₁.recast r tail endLine) := by
  cases list with
  | none => exact .none
  | some names few =>
      exact .some names.recast (Nat.le_trans (Nat.le_of_eq (List.length_map _)) few)

theorem Counter.recast (steps : r.StepsFrom first) {c c₁ : Cursor} {counter : LoopVar}
    (counts : Counter c counter c₁) (above : first ≤ c.fresh) :
    Counter (c.recast r tail endLine) (counter.recast r) (c₁.recast r tail endLine) := by
  cases counts with
  | declared word name equal value =>
      have target := (word.passes.trans name.passes).trans equal.passes
      exact .declared word.recast name.recast equal.recast
        (value.recast steps (Nat.le_trans above target.reaches.fresh_le))
  | assigned name equal value =>
      have above₁ := Nat.le_trans above name.passes.reaches.fresh_le
      have above₂ := Nat.le_trans (Nat.le_succ_of_le above₁) equal.passes.reaches.fresh_le
      have above₃ := Nat.le_trans above₂ value.passes.reaches.fresh_le
      rw [recast_numbered steps above₃]
      exact .assigned name.recast (equal.recast_behind_numbered steps above₁)
        (value.recast steps above₂)

theorem Initializer.recast (steps : r.StepsFrom first) {c c₁ : Cursor} {value : Expr}
    (initializes : Initializer c value c₁) (above : first ≤ c.fresh) :
    Initializer (c.recast r tail endLine) (value.recast r) (c₁.recast r tail endLine) := by
  cases initializes with
  | equal equal value =>
      exact .equal equal.recast
        (value.recast steps (Nat.le_trans above equal.passes.reaches.fresh_le))

theorem Perhaps.recast {α : Type} {phrase : Cursor → α → Cursor → Prop} {change : α → α}
    {c c₁ : Cursor} {a : Option α} (perhaps : Perhaps phrase c a c₁)
    (recasts : ∀ {a}, phrase c a c₁ →
      phrase (c.recast r tail endLine) (change a) (c₁.recast r tail endLine)) :
    Perhaps phrase (c.recast r tail endLine) (a.map change) (c₁.recast r tail endLine) := by
  cases perhaps with
  | absent => exact .absent
  | present found => exact .present (recasts found)

/-! ## Statements -/

/-- What follows the input is nothing, or begins with a line break. -/
def Follows (tail : List Token) : Prop :=
  tail = [] ∨ ∃ t rest, tail = t :: rest ∧ t.kind = .newline

/-- A statement that ends with the input now ends with the line break that follows. -/
theorem Ending.recast (r : Recast) (endLine : Nat) (follows : Follows tail) {c c₁ : Cursor}
    (ending : Ending c c₁) :
    ∃ d, Ending (c.recast r tail endLine) d ∧ c₁.Lands r tail endLine d := by
  cases ending with
  | newline reads => exact ⟨_, .newline reads.recast, .inl rfl⟩
  | semicolon reads => exact ⟨_, .semicolon reads.recast, .inl rfl⟩
  | beforeBrace reads => exact ⟨_, .beforeBrace reads.recast, .inl rfl⟩
  | beforeEnd ended =>
      have upcoming : (c.recast r tail endLine).upcoming = tail := by
        rw [Cursor.recast, ended]
        rfl
      rcases follows with rfl | ⟨t, rest, rfl, newline⟩
      · exact ⟨_, .beforeEnd upcoming, .inl rfl⟩
      · have reads : (c.recast r (t :: rest) endLine).Reads .newline t
            ⟨rest, endLine, r.ids c.fresh⟩ := by
          rw [Cursor.recast, ended]
          exact .next newline
        exact ⟨_, .newline reads, .inr ⟨ended, t, reads⟩⟩

theorem Newlines.eq_of_isAtEnd {c c₁ : Cursor} (breaks : Newlines c c₁) (ended : c.IsAtEnd) :
    c₁ = c := by
  cases breaks with
  | none => rfl
  | more reads _ => exact absurd ended reads.not_isAtEnd

/-- Nothing but an empty body stands where the input ends. -/
theorem Body.eq_of_isAtEnd {c c₁ : Cursor} {body : List Stmt} (statements : Body c body c₁)
    (ended : c.IsAtEnd) : body = [] ∧ c₁ = c := by
  cases statements with
  | done breaks => exact ⟨rfl, breaks.eq_of_isAtEnd ended⟩
  | more breaks first _ =>
      cases breaks.eq_of_isAtEnd ended
      have passes := first.passes.length_lt
      rw [ended] at passes
      exact absurd passes (Nat.not_lt_zero _)

mutual

theorem Declaration.recast (steps : r.StepsFrom first) (follows : Follows tail) :
    ∀ {c c₁ : Cursor} {s : Stmt}, Declaration c s c₁ → first ≤ c.fresh →
      ∃ d, Declaration (c.recast r tail endLine) (s.recast r) d ∧ c₁.Lands r tail endLine d
  | _, _, _, .classDef word name opens methods closes, above => by
      have head := (word.passes.trans name.passes).trans opens.passes
      exact ⟨_, .classDef word.recast name.recast opens.recast
        (Methods.recast steps follows methods (Nat.le_trans above head.reaches.fresh_le))
        closes.recast, .inl rfl⟩
  | _, _, _, @Declaration.function _ _ _ _ routine word rest, above => by
      rw [Stmt.recast_function]
      exact ⟨_, .function word.recast (RoutineRest.recast steps follows rest
        (Nat.le_trans above word.passes.reaches.fresh_le)), .inl rfl⟩
  | _, _, _, .declare word name initializes ending, above => by
      obtain ⟨d, ending', lands⟩ := ending.recast r endLine follows
      have head := word.passes.trans name.passes
      exact ⟨d, .declare word.recast name.recast
        (initializes.recast fun value =>
          value.recast steps (Nat.le_trans above head.reaches.fresh_le)) ending', lands⟩
  | _, _, _, @Declaration.loop _ _ _ _ _ _ _ _ _ _ _ _ _ _ _ word counts opens holds closes goes
      block, above => by
      have above₁ := Nat.le_trans above word.passes.reaches.fresh_le
      have above₂ := Nat.le_trans above₁
        (counts.reaches fun counter => counter.passes.reaches).fresh_le
      have above₃ := Nat.le_trans above₂ opens.passes.reaches.fresh_le
      have above₄ := Nat.le_trans above₃ (holds.reaches fun value => value.passes.reaches).fresh_le
      have above₅ := Nat.le_trans above₄ closes.passes.reaches.fresh_le
      have above₆ := Nat.le_trans above₅ (goes.reaches fun value => value.passes.reaches).fresh_le
      exact ⟨_, .loop word.recast (counts.recast fun counter => counter.recast steps above₁)
        opens.recast (holds.recast fun value => value.recast steps above₃) closes.recast
        (goes.recast fun value => value.recast steps above₅)
        (Block.recast steps follows block above₆), .inl rfl⟩
  | _, _, _, .branch conditional, above =>
      ⟨_, .branch (Conditional.recast steps follows conditional above), .inl rfl⟩
  | _, _, _, @Declaration.exit _ _ _ _ token _ word value ending, above => by
      obtain ⟨d, ending', lands⟩ := ending.recast r endLine follows
      have above₁ := Nat.le_trans above word.passes.reaches.fresh_le
      have exit' : Declaration _ (.exit (token.lower r.lines).line _) d := .exit word.recast
        (value.recast fun value => value.recast steps above₁) ending'
      exact ⟨d, exit', lands⟩
  | _, _, _, .block block, above => ⟨_, .block (Block.recast steps follows block above), .inl rfl⟩
  | _, _, _, .print word value ending, above => by
      obtain ⟨d, ending', lands⟩ := ending.recast r endLine follows
      exact ⟨d, .print word.recast
        (value.recast steps (Nat.le_trans above word.passes.reaches.fresh_le)) ending', lands⟩
  | _, _, _, .expression value ending, above => by
      obtain ⟨d, ending', lands⟩ := ending.recast r endLine follows
      exact ⟨d, .expression (value.recast steps above) ending', lands⟩

theorem Conditional.recast (steps : r.StepsFrom first) (follows : Follows tail) :
    ∀ {c c₁ : Cursor} {s : Stmt}, Conditional c s c₁ → first ≤ c.fresh →
      Conditional (c.recast r tail endLine) (s.recast r) (c₁.recast r tail endLine)
  | _, _, _, .branch word condition thenBlock otherwise, above => by
      have above₁ := Nat.le_trans above word.passes.reaches.fresh_le
      have above₂ := Nat.le_trans above₁ condition.passes.reaches.fresh_le
      have above₃ := Nat.le_trans above₂ thenBlock.passes.reaches.fresh_le
      rw [Stmt.recast_branch]
      exact .branch word.recast (condition.recast steps above₁)
        (Block.recast steps follows thenBlock above₂)
        (Otherwise.recast steps follows otherwise above₃)

theorem Otherwise.recast (steps : r.StepsFrom first) (follows : Follows tail) :
    ∀ {c c₁ : Cursor} {body : Option (List Stmt)}, Otherwise c body c₁ → first ≤ c.fresh →
      Otherwise (c.recast r tail endLine) (body.map (Stmt.recastAll r)) (c₁.recast r tail endLine)
  | _, _, _, .absent, _ => .absent
  | _, _, _, .block breaks word block, above =>
      .block breaks.recast word.recast (Block.recast steps follows block
        (Nat.le_trans above (breaks.reaches.trans word.passes.reaches).fresh_le))
  | _, _, _, .conditional breaks word conditional, above =>
      .conditional breaks.recast word.recast (Conditional.recast steps follows conditional
        (Nat.le_trans above (breaks.reaches.trans word.passes.reaches).fresh_le))

theorem Block.recast (steps : r.StepsFrom first) (follows : Follows tail) :
    ∀ {c c₁ : Cursor} {body : List Stmt}, Block c body c₁ → first ≤ c.fresh →
      Block (c.recast r tail endLine) (Stmt.recastAll r body) (c₁.recast r tail endLine)
  | _, _, _, .braces opens statements closes, above => by
      obtain ⟨d, statements', lands⟩ := Body.recast steps follows statements
        (Nat.le_trans above opens.passes.reaches.fresh_le)
      cases lands.eq_of_reads closes
      exact .braces opens.recast statements' closes.recast

theorem Body.recast (steps : r.StepsFrom first) (follows : Follows tail) :
    ∀ {c c₁ : Cursor} {body : List Stmt}, Body c body c₁ → first ≤ c.fresh →
      ∃ d, Body (c.recast r tail endLine) (Stmt.recastAll r body) d ∧ c₁.Lands r tail endLine d
  | _, _, _, .done breaks, _ => ⟨_, .done breaks.recast, .inl rfl⟩
  | _, _, _, .more breaks declaration rest, above => by
      have above₁ := Nat.le_trans above breaks.reaches.fresh_le
      have above₂ := Nat.le_trans above₁ declaration.passes.reaches.fresh_le
      obtain ⟨d, declaration', lands⟩ :=
        Declaration.recast steps follows declaration above₁
      rcases lands with rfl | ⟨ended, t, reads⟩
      · obtain ⟨d', rest', lands'⟩ := Body.recast steps follows rest above₂
        exact ⟨d', .more breaks.recast declaration' rest', lands'⟩
      -- The line break that follows ended the last statement, and nothing stands behind it.
      · obtain ⟨rfl, rfl⟩ := rest.eq_of_isAtEnd ended
        exact ⟨d, .more breaks.recast declaration' (.done .none), .inr ⟨ended, t, reads⟩⟩

theorem Methods.recast (steps : r.StepsFrom first) (follows : Follows tail) :
    ∀ {c c₁ : Cursor} {methods : List Routine}, Methods c methods c₁ → first ≤ c.fresh →
      Methods (c.recast r tail endLine) (Stmt.recastMethods r methods) (c₁.recast r tail endLine)
  | _, _, _, .done breaks, _ => .done breaks.recast
  | _, _, _, .more breaks word named rest, above => by
      have above₁ := Nat.le_trans above (breaks.reaches.trans word.passes.reaches).fresh_le
      have above₂ := Nat.le_trans above₁ named.passes.reaches.fresh_le
      rw [Stmt.recastMethods_cons]
      exact .more breaks.recast word.recast (RoutineRest.recast steps follows named above₁)
        (Methods.recast steps follows rest above₂)

theorem RoutineRest.recast (steps : r.StepsFrom first) (follows : Follows tail) :
    ∀ {c c₁ : Cursor} {routine : Routine}, RoutineRest c routine c₁ → first ≤ c.fresh →
      RoutineRest (c.recast r tail endLine) (routine.recast r) (c₁.recast r tail endLine)
  | _, _, _, .named name opens listed closes block, above => by
      have above₁ := Nat.le_trans above (name.passes.trans opens.passes).reaches.fresh_le
      have above₂ := Nat.le_trans above₁ (listed.reaches.trans closes.passes.reaches).fresh_le
      exact .named name.recast opens.recast listed.recast closes.recast
        (Block.recast steps follows block above₂)

end

/-! ## Programs -/

theorem Newlines.trans {c c₁ c₂ : Cursor} (first : Newlines c c₁) (second : Newlines c₁ c₂) :
    Newlines c c₂ := by
  induction first with
  | none => exact second
  | more reads _ ih => exact .more reads (ih second)

theorem Body.after {c c₁ c₂ : Cursor} {body : List Stmt} (statements : Body c₁ body c₂)
    (breaks : Newlines c c₁) : Body c body c₂ := by
  cases statements with
  | done more => exact .done (breaks.trans more)
  | more before declaration rest => exact .more (breaks.trans before) declaration rest

theorem Body.append {more : List Stmt} {c₁ c₂ : Cursor} (second : Body c₁ more c₂) :
    ∀ {c : Cursor} {body : List Stmt}, Body c body c₁ → Body c (body ++ more) c₂
  | _, _, .done breaks => second.after breaks
  | _, _, .more breaks declaration rest => .more breaks declaration (second.append rest)

variable {body body' : List Token} {line line' : Nat} {start last last' first' : Occurrence}
  {statements statements' : List Stmt}

theorem derives_inputEnd :
    Derives (body ++ [inputEnd line]) first statements last ↔
      Body ⟨body, line, first⟩ statements ⟨[], line, last⟩ := by
  rw [derives_append_iff rfl]
  exact and_iff_left rfl

/--
A body that ends with the input ends where the tokens behind it begin, or behind a line break.
-/
theorem Body.move (tail : List Token) (follows : Follows tail) (endLine : Nat)
    (statements : Body ⟨body, line, first⟩ statements' ⟨[], line, last⟩) (start : Occurrence)
    (lines : Nat) :
    ∃ d, Body ⟨body.map (Token.lower lines) ++ tail, endLine, start⟩
        (Stmt.recastAll (.move first start lines) statements') d ∧
      Cursor.Lands (.move first start lines) tail endLine ⟨[], line, last⟩ d := by
  have moved : Cursor.recast (.move first start lines) tail endLine ⟨body, line, first⟩ =
      ⟨body.map (Token.lower lines) ++ tail, endLine, start⟩ := by
    rw [Cursor.recast, Recast.move_ids_self]
    rfl
  rw [← moved]
  exact statements.recast (Recast.stepsFrom_move first start lines) follows (Nat.le_refl first)

/-- A program stays one when its numbers start somewhere else. -/
theorem Derives.move (derives : Derives (body ++ [inputEnd line]) first statements last)
    (start : Occurrence) :
    Derives (body ++ [inputEnd line]) start
      (Stmt.recastAll (.move first start 0) statements) (last - first + start) := by
  rw [derives_inputEnd] at *
  obtain ⟨d, moved, lands⟩ := derives.move [] (.inl rfl) line start 0
  rw [List.append_nil, show body.map (Token.lower 0) = body from List.map_id body] at moved
  rcases lands with rfl | ⟨_, t, reads⟩
  · exact moved
  · cases reads

/-- Two programs with a line break between them are one. -/
theorem Derives.join (derives : Derives (body ++ [inputEnd line]) first statements last)
    (derives' : Derives (body' ++ [inputEnd line']) first' statements' last')
    (start : Occurrence) :
    Derives (body ++ (⟨.newline, "\n", line⟩ :: body'.map (Token.lower line) ++
        [inputEnd (line' + line)])) start
      (Stmt.recastAll (.move first start 0) statements ++
        Stmt.recastAll (.move first' (last - first + start) line) statements')
      (last' - first' + (last - first + start)) := by
  rw [← List.append_assoc]
  rw [derives_inputEnd] at *
  obtain ⟨d, moved, lands⟩ := derives.move
    (⟨.newline, "\n", line⟩ :: body'.map (Token.lower line)) (.inr ⟨_, _, rfl, rfl⟩)
    (line' + line) start 0
  obtain ⟨d', moved', lands'⟩ := derives'.move [] (.inl rfl) (line' + line)
    (last - first + start) line
  rw [show body.map (Token.lower 0) = body from List.map_id body] at moved
  rw [List.append_nil] at moved'
  rcases lands' with rfl | ⟨_, t, reads⟩
  · refine Body.append ?_ moved
    rcases lands with rfl | ⟨_, t, reads⟩
    · exact moved'.after (.more (.next rfl) .none)
    · cases reads
      exact moved'
  · cases reads

end Grammar

end Rill
