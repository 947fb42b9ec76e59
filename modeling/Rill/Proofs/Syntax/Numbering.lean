import Rill.Proofs.Syntax.Extent
import Rill.Syntax.Mentions

/-!
# The numbers of mentions

A phrase numbers its mentions in the order of the tree, from the first number that is free where it
begins and below the first that is free where it ends. So no two mentions of a program have one
number, and mentions of different programs have different ones.
-/

namespace Rill

/-- Numbers that increase, and lie in a range. -/
structure Numbered (first last : Nat) (ids : List Nat) : Prop where
  increasing : ids.Pairwise (· < ·)
  within : ∀ id ∈ ids, first ≤ id ∧ id < last

namespace Numbered

variable {first middle last : Nat} {ids more : List Nat}

theorem nil : Numbered first last [] :=
  ⟨List.Pairwise.nil, fun _ present => absurd present (List.not_mem_nil)⟩

theorem singleton (id : Nat) : Numbered id (id + 1) [id] where
  increasing := List.pairwise_singleton _ id
  within := by
    intro other present
    rw [List.mem_singleton.mp present]
    exact ⟨Nat.le_refl id, Nat.lt_succ_self id⟩

theorem append (left : Numbered first middle ids) (right : Numbered middle last more)
    (before : first ≤ middle) (behind : middle ≤ last) : Numbered first last (ids ++ more) where
  increasing := by
    refine List.pairwise_append.mpr ⟨left.increasing, right.increasing, ?_⟩
    intro a inLeft b inRight
    exact Nat.lt_of_lt_of_le (left.within a inLeft).2 (right.within b inRight).1
  within := by
    intro id present
    rcases List.mem_append.mp present with inLeft | inRight
    · have bounds := left.within id inLeft
      omega
    · have bounds := right.within id inRight
      omega

theorem mono {first' last' : Nat} (numbered : Numbered first last ids)
    (before : first' ≤ first) (behind : last ≤ last') : Numbered first' last' ids where
  increasing := numbered.increasing
  within := by
    intro id present
    have bounds := numbered.within id present
    omega

theorem nodup (numbered : Numbered first last ids) : ids.Nodup :=
  numbered.increasing.imp Nat.ne_of_lt

end Numbered

/-- A phrase between two places numbers mentions by what is given out between them. -/
def Cursor.Numbers (c : Cursor) (mentions : List Mention) (c₁ : Cursor) : Prop :=
  c.Reaches c₁ ∧ Numbered c.fresh c₁.fresh (mentionIds mentions)

namespace Cursor

variable {c c₁ c₂ c₃ : Cursor} {first second : List Mention} {t : Token} {kind : Kind}

theorem Reaches.numbers (reaches : c.Reaches c₁) : c.Numbers [] c₁ := ⟨reaches, .nil⟩

theorem Reads.numbers (reads : c.Reads kind t c₁) : c.Numbers [] c₁ := reads.passes.reaches.numbers

/-- Giving out an occurrence numbers one mention. -/
theorem numbers_numbered (c : Cursor) (kind : MentionKind) (name : Ident) :
    c.Numbers [⟨c.fresh, kind, name⟩] c.numbered :=
  ⟨reaches_numbered c, .singleton c.fresh⟩

theorem Numbers.append (left : c.Numbers first c₁) (right : c₁.Numbers second c₂) :
    c.Numbers (first ++ second) c₂ := by
  refine ⟨left.1.trans right.1, ?_⟩
  rw [mentionIds_append]
  exact left.2.append right.2 left.1.fresh_le right.1.fresh_le

/-- What stands in front of a phrase without mentions of its own. -/
theorem Numbers.after (numbers : c₁.Numbers first c₂) (before : c.Reaches c₁) :
    c.Numbers first c₂ :=
  before.numbers.append numbers

/-- What stands behind a phrase without mentions of its own. -/
theorem Numbers.before (numbers : c.Numbers first c₁) (behind : c₁.Reaches c₂) :
    c.Numbers first c₂ := by
  have whole := numbers.append behind.numbers
  rw [List.append_nil] at whole
  exact whole

end Cursor

namespace Grammar

/-- An operator between operands mentions what they mention. -/
theorem mentions_of_connective {t : Token} {n : Nat} {combine : Expr → Expr → Expr}
    (connective : connective? t = some (n, combine)) (left right : Expr) :
    (combine left right).mentions = left.mentions ++ right.mentions := by
  unfold connective? at connective
  split at connective <;> cases connective <;> rfl

mutual

theorem Expression.numbers : ∀ {c c₁ : Cursor} {e : Expr},
    Expression c e c₁ → c.Numbers e.mentions c₁
  | _, _, _, .value operands => operands.numbers
  | _, _, _, .assign name equal value => by
      have target := name.passes.then (Cursor.reaches_numbered _)
      have numbers := value.numbers.after (target.trans equal.passes).reaches
      exact numbers.append (Cursor.numbers_numbered _ .write _)
  | _, _, _, .set called dot name equal value => by
      have property := (dot.passes.trans name.passes).trans equal.passes
      exact (called.numbers.before property.reaches).append value.numbers

theorem Operands.numbers : ∀ {n : Nat} {c c₁ : Cursor} {e : Expr},
    Operands n c e c₁ → c.Numbers e.mentions c₁
  | _, _, _, _, .chain _ first rest => by
      have numbers := first.numbers
      obtain ⟨more, same, others⟩ := rest.numbers
      rw [same]
      exact numbers.append others
  | _, _, _, _, .signed operand => operand.numbers

theorem Chained.numbers : ∀ {n : Nat} {left e : Expr} {c c₁ : Cursor}, Chained n left c e c₁ →
    ∃ more, e.mentions = left.mentions ++ more ∧ c.Numbers more c₁
  | _, left, _, c, _, .done => ⟨[], (List.append_nil _).symm, (Cursor.Reaches.refl c).numbers⟩
  | _, _, _, _, _, .more operator connective right rest => by
      have numbers := right.numbers.after operator.passes.reaches
      obtain ⟨more, same, others⟩ := rest.numbers
      rw [mentions_of_connective connective, List.append_assoc] at same
      exact ⟨_, same, numbers.append others⟩

theorem Signed.numbers : ∀ {c c₁ : Cursor} {e : Expr}, Signed c e c₁ → c.Numbers e.mentions c₁
  | _, _, _, .sign sign _ operand => operand.numbers.after sign.passes.reaches
  | _, _, _, .call called => called.numbers

theorem Call.numbers : ∀ {c c₁ : Cursor} {e : Expr}, Call c e c₁ → c.Numbers e.mentions c₁
  | _, _, _, .primary subject suffixed => by
      have numbers := subject.numbers
      obtain ⟨more, same, others⟩ := suffixed.numbers
      rw [same]
      exact numbers.append others

theorem Suffixed.numbers : ∀ {subject e : Expr} {c c₁ : Cursor}, Suffixed subject c e c₁ →
    ∃ more, e.mentions = subject.mentions ++ more ∧ c.Numbers more c₁
  | _, _, c, _, .done => ⟨[], (List.append_nil _).symm, (Cursor.Reaches.refl c).numbers⟩
  | _, _, _, _, .call opens listed closes rest => by
      have numbers := (listed.numbers.after opens.passes.reaches).before closes.passes.reaches
      obtain ⟨more, same, others⟩ := rest.numbers
      rw [Expr.mentions, List.append_assoc] at same
      exact ⟨_, same, numbers.append others⟩
  | _, _, _, _, .get dot name rest => by
      obtain ⟨more, same, others⟩ := rest.numbers
      rw [Expr.mentions] at same
      exact ⟨more, same, others.after (dot.passes.trans name.passes).reaches⟩

theorem Primary.numbers : ∀ {c c₁ : Cursor} {e : Expr}, Primary c e c₁ → c.Numbers e.mentions c₁
  | _, _, _, .constant reads _ => reads.numbers
  | _, _, _, .selfRef reads =>
      (Cursor.numbers_numbered _ .self _).after reads.passes.reaches
  | _, _, _, .var reads => (Cursor.numbers_numbered _ .read _).after reads.passes.reaches
  | _, _, _, .group opens before inner behind closes => by
      have numbers := inner.numbers.after (opens.passes.then before.reaches).reaches
      exact numbers.before (behind.reaches.then closes.passes).reaches

theorem Arguments.numbers : ∀ {c c₁ : Cursor} {arguments : List Expr},
    Arguments c arguments c₁ → c.Numbers (Expr.mentionsAll arguments) c₁
  | _, _, _, .none breaks => breaks.reaches.numbers
  | _, _, _, .some before list behind _ =>
      (list.numbers.after before.reaches).before behind.reaches

theorem ArgumentList.numbers : ∀ {c c₁ : Cursor} {arguments : List Expr},
    ArgumentList c arguments c₁ → c.Numbers (Expr.mentionsAll arguments) c₁
  | _, _, _, .one first => by
      have numbers := first.numbers
      rw [Expr.mentionsAll, Expr.mentionsAll, List.append_nil]
      exact numbers
  | _, _, _, .more first before comma behind rest => by
      have separated := (before.reaches.then comma.passes).then behind.reaches
      exact (first.numbers.before separated.reaches).append rest.numbers

end

variable {c c₁ : Cursor}

theorem Perhaps.numbers {phrase : Cursor → Expr → Cursor → Prop} {value : Option Expr}
    (perhaps : Perhaps phrase c value c₁)
    (phrases : ∀ {e : Expr}, phrase c e c₁ → c.Numbers e.mentions c₁) :
    c.Numbers (Expr.mentionsOption value) c₁ := by
  cases perhaps with
  | absent => exact (Cursor.Reaches.refl c).numbers
  | present phrase => exact phrases phrase

theorem Initializer.numbers {value : Expr} (initializes : Initializer c value c₁) :
    c.Numbers value.mentions c₁ := by
  cases initializes with
  | equal equal value => exact value.numbers.after equal.passes.reaches

theorem Counter.numbers {counter : LoopVar} (counts : Counter c counter c₁) :
    c.Numbers counter.value.mentions c₁ := by
  cases counts with
  | declared word name equal value =>
      exact value.numbers.after ((word.passes.trans name.passes).trans equal.passes).reaches
  | assigned name equal value =>
      have target := (name.passes.then (Cursor.reaches_numbered _)).trans equal.passes
      exact (value.numbers.after target.reaches).before (Cursor.reaches_numbered _)

theorem Perhaps.numbers_counter {counter : Option LoopVar}
    (perhaps : Perhaps Counter c counter c₁) : c.Numbers (LoopVar.mentionsOption counter) c₁ := by
  cases perhaps with
  | absent => exact (Cursor.Reaches.refl c).numbers
  | present phrase => exact phrase.numbers

mutual

theorem Declaration.numbers : ∀ {c c₁ : Cursor} {s : Stmt},
    Declaration c s c₁ → c.Numbers s.mentions c₁
  | _, _, _, .classDef word name opens methods closes => by
      have named := (word.passes.trans name.passes).trans opens.passes
      exact (methods.numbers.after named.reaches).before closes.passes.reaches
  | _, _, _, .function word routine => by
      have numbers := routine.numbers
      exact numbers.after word.passes.reaches
  | _, _, _, .declare word name initializer ending => by
      have numbers := initializer.numbers Initializer.numbers
      exact (numbers.after (word.passes.trans name.passes).reaches).before ending.reaches
  | _, _, _, .loop word counter first condition second increment body => by
      have counted := counter.numbers_counter.after word.passes.reaches
      have tested := (condition.numbers Expression.numbers).after first.passes.reaches
      have stepped := (increment.numbers Expression.numbers).after second.passes.reaches
      exact ((counted.append tested).append stepped).append body.numbers
  | _, _, _, .branch conditional => conditional.numbers
  | _, _, _, .exit word value ending => by
      have numbers := value.numbers Expression.numbers
      exact (numbers.after word.passes.reaches).before ending.reaches
  | _, _, _, .block body => body.numbers
  | _, _, _, .print word value ending =>
      (value.numbers.after word.passes.reaches).before ending.reaches
  | _, _, _, .expression value ending => value.numbers.before ending.reaches

theorem Conditional.numbers : ∀ {c c₁ : Cursor} {s : Stmt},
    Conditional c s c₁ → c.Numbers s.mentions c₁
  | _, _, _, .branch word condition body otherwise => by
      have tested := condition.numbers.after word.passes.reaches
      have decided := tested.append body.numbers
      exact otherwise.numbers decided

theorem Otherwise.numbers : ∀ {c c₁ c₂ : Cursor} {condition : Expr} {thenBody : List Stmt}
    {elseBody : Option (List Stmt)}, Otherwise c₁ elseBody c₂ →
    c.Numbers (condition.mentions ++ Stmt.mentionsAll thenBody) c₁ →
    c.Numbers (Stmt.branch condition thenBody elseBody).mentions c₂
  | _, _, _, _, _, _, .absent, decided => decided
  | _, _, _, _, _, _, .block breaks word body, decided =>
      decided.append (body.numbers.after (breaks.reaches.then word.passes).reaches)
  | _, _, _, _, _, _, .conditional breaks word conditional, decided => by
      have numbers := conditional.numbers.after (breaks.reaches.then word.passes).reaches
      rw [Stmt.mentions, Stmt.mentionsAll, Stmt.mentionsAll, List.append_nil]
      exact decided.append numbers

theorem Block.numbers : ∀ {c c₁ : Cursor} {body : List Stmt},
    Block c body c₁ → c.Numbers (Stmt.mentionsAll body) c₁
  | _, _, _, .braces opens body closes =>
      (body.numbers.after opens.passes.reaches).before closes.passes.reaches

theorem Body.numbers : ∀ {c c₁ : Cursor} {body : List Stmt},
    Body c body c₁ → c.Numbers (Stmt.mentionsAll body) c₁
  | _, _, _, .done breaks => breaks.reaches.numbers
  | _, _, _, .more breaks first rest =>
      (first.numbers.after breaks.reaches).append rest.numbers

theorem Methods.numbers : ∀ {c c₁ : Cursor} {methods : List Routine},
    Methods c methods c₁ → c.Numbers (Stmt.mentionsMethods methods) c₁
  | _, _, _, .done breaks => breaks.reaches.numbers
  | _, _, _, .more breaks word routine rest => by
      have first := routine.numbers.after (breaks.reaches.then word.passes).reaches
      have others := rest.numbers
      exact first.append others

theorem RoutineRest.numbers : ∀ {c c₁ : Cursor} {routine : Routine},
    RoutineRest c routine c₁ → c.Numbers (Stmt.mentionsAll routine.body) c₁
  | _, _, _, .named name opens params closes body => by
      have head := ((name.passes.trans opens.passes).then params.reaches).trans closes.passes
      exact body.numbers.after head.reaches

end

end Grammar

/-- The mentions of a program are numbered by what its parsing gives out. -/
theorem Grammar.Derives.numbered {ts : List Token} {first last : Occurrence}
    {statements : List Stmt} (derives : Grammar.Derives ts first statements last) :
    first ≤ last ∧ Numbered first last (mentionIds (Stmt.mentionsAll statements)) := by
  obtain ⟨body, ending, _, _, program, _⟩ := derives
  exact ⟨program.reaches.fresh_le, program.numbers.2⟩

end Rill
