import Rill.Proofs.Outline.Trees
import Rill.Proofs.Syntax.Atoms

/-!
# Words of outlines

A finite number is shown as digits, with a point among them, and a name as an identifier. So what
an outline says about a constant or a name can be told from the other words of it, but for texts and
infinities, which can look like anything or like a name.
-/

namespace Rill

/-! ## Numerals -/

/-- A text begins with a digit, and has nothing but digits and points in it. -/
structure Numeral (text : List Char) : Prop where
  begins : ∃ c rest, text = c :: rest ∧ c.isDigit = true
  plain : ∀ c ∈ text, c.isDigit = true ∨ c = '.'

namespace Numeral

variable {text rest : List Char}

theorem append (numeral : Numeral text) (plain : ∀ c ∈ rest, c.isDigit = true ∨ c = '.') :
    Numeral (text ++ rest) where
  begins := by
    obtain ⟨c, more, rfl, digit⟩ := numeral.begins
    exact ⟨c, more ++ rest, rfl, digit⟩
  plain c present := (List.mem_append.mp present).elim (numeral.plain c) (plain c)

theorem toDigits (n : Nat) : Numeral (Nat.toDigits 10 n) := by
  have digit {c : Char} (present : c ∈ Nat.toDigits 10 n) : c.isDigit = true :=
    Nat.isDigit_of_mem_toDigits (by decide) (by decide) present
  obtain ⟨c, rest, begins⟩ := List.exists_cons_of_ne_nil (@Nat.toDigits_ne_nil n 10)
  exact ⟨⟨c, rest, begins, digit (begins ▸ List.mem_cons_self)⟩,
    fun _ present => .inl (digit present)⟩

/-- Digits that a point is put behind at least one of. -/
theorem insert_point (numeral : Numeral text) {places : Nat} (some : 0 < places) :
    Numeral (text.take places ++ '.' :: text.drop places) where
  begins := by
    obtain ⟨c, rest, rfl, digit⟩ := numeral.begins
    obtain ⟨places, rfl⟩ := Nat.exists_eq_add_one_of_ne_zero (Nat.ne_of_gt some)
    exact ⟨c, _, rfl, digit⟩
  plain := by
    intro c present
    rcases List.mem_append.mp present with before | behind
    · exact numeral.plain c (List.mem_of_mem_take before)
    · rcases List.mem_cons.mp behind with rfl | behind
      · exact .inr rfl
      · exact numeral.plain c (List.mem_of_mem_drop behind)

theorem plain_replicate_zero (n : Nat) :
    ∀ c ∈ List.replicate n '0', c.isDigit = true ∨ c = '.' := by
  intro c present
  rw [List.eq_of_mem_replicate present]
  exact .inl rfl

theorem positional (d : Decimal) : Numeral d.positional := by
  rw [Decimal.positional]
  have digits := toDigits d.digits
  dsimp only
  split
  · exact digits.append (plain_replicate_zero _)
  · split
    · next some => exact digits.insert_point some
    · have zero : Numeral ['0', '.'] := ⟨⟨'0', ['.'], rfl, rfl⟩, by simp⟩
      refine zero.append fun c present => ?_
      rcases List.mem_append.mp present with filled | digit
      · exact plain_replicate_zero _ c filled
      · exact digits.plain c digit

theorem lineFeed_not_mem (numeral : Numeral text) : '\n' ∉ text := fun present =>
  (numeral.plain _ present).elim (by decide) (by decide)

/-- No word that begins with anything but a digit is a numeral. -/
theorem ne_cons (numeral : Numeral text) {c : Char} (letter : c.isDigit = false)
    (rest : List Char) : text ≠ c :: rest := by
  rintro rfl
  obtain ⟨_, _, same, digit⟩ := numeral.begins
  rw [(List.cons.inj same).1, digit] at letter
  cases letter

end Numeral

namespace Number

theorem infinityRank_lt : infinityRank < signWeight := by decide +kernel

variable {rank : Nat} (below : rank < signWeight)

include below

theorem toNat_bits_ofRank : (ofRank false rank).bits.toNat = rank := by
  have fits : rank < 2 ^ 64 := Nat.lt_trans below (by decide +kernel)
  exact UInt64.toNat_ofNat_of_lt' fits

theorem rank_ofRank : (ofRank false rank).rank = rank := by
  rw [Number.rank, toNat_bits_ofRank below, Nat.mod_eq_of_lt below]

theorem isNegative_ofRank : (ofRank false rank).isNegative = false := by
  rw [isNegative, toNat_bits_ofRank below]
  exact decide_eq_false (Nat.not_le.mpr below)

end Number

/-- A number that digits stand for is shown as digits, unless it is infinite. -/
theorem Number.numeral_treeText (whole fraction : List Char)
    (finite : (ofDigits whole fraction).isInfinite = false) :
    Numeral (ofDigits whole fraction).treeText.toList := by
  have within : rankOfUnits (Nat.ofDigitChars 10 (whole ++ fraction) 0 * unitsPerOne)
      (Nat.pow 10 fraction.length) ≤ infinityRank := Nat.min_le_left _ _
  have below := Nat.lt_of_le_of_lt within infinityRank_lt
  have positive : (ofDigits whole fraction).isNegative = false := isNegative_ofRank below
  have ranked : (ofDigits whole fraction).rank ≤ infinityRank :=
    Nat.le_trans (Nat.le_of_eq (rank_ofRank below)) within
  generalize ofDigits whole fraction = n at finite positive ranked
  have isFinite : n.isFinite = true := by
    have apart : n.rank ≠ infinityRank := by simpa [isInfinite] using finite
    exact decide_eq_true (Nat.lt_of_le_of_ne ranked apart)
  rw [treeText]
  split
  · rw [wholeText, signed, positive, String.toList_append, if_neg Bool.false_ne_true,
      String.toList_ofList]
    exact (Numeral.toDigits _).append (by simp)
  · rw [plainText, if_pos isFinite, signed, positive, if_neg Bool.false_ne_true,
      String.toList_ofList]
    exact Numeral.positional _

/-! ## What is clear -/

/--
What leaves no doubt in an outline: no text, no infinity, and no variable that is called like the
mark for an absent part.
-/
def Atom.Unambiguous : Atom → Prop
  | .constant (.string _) => False
  | .constant (.number value) => value.isInfinite = false
  | .var text => text ≠ "_"
  | .constant (.bool _) | .constant .nil | .name _ => True

/-- What an outline shows of an unambiguous constant or name of a parsed program. -/
def Atom.Clear : Atom → Prop
  | .constant (.string _) => False
  | .constant (.number value) => Numeral value.treeText.toList
  | .constant (.bool _) | .constant .nil => True
  | .var text => Lexeme .identifier text.toList ∧ text ≠ "_"
  | .name text => Lexeme .identifier text.toList

theorem Atom.Written.clear {a : Atom} (written : a.Written) (unambiguous : a.Unambiguous) :
    a.Clear := by
  cases a with
  | var => exact ⟨written, unambiguous⟩
  | name => exact written
  | constant value =>
      cases value with
      | string => exact unambiguous
      | bool | nil => exact True.intro
      | number value =>
          obtain ⟨whole, fraction, rfl⟩ := written
          exact Number.numeral_treeText whole fraction unambiguous

/-! ## Words -/

namespace Form

instance (text : String) : Decidable (IsWord text) :=
  decidable_of_iff (text.toList ≠ [] ∧ text.toList.all (fun c => !isDelimiter c) = true) <| by
    simp only [List.all_eq_true, Bool.not_eq_true']
    exact ⟨fun both => ⟨both.1, both.2⟩, fun isWord => ⟨isWord.ne_empty, isWord.plain⟩⟩

theorem isDelimiter_of_continuesWord {c : Char} (continues : Piece.continuesWord c = true) :
    isDelimiter c = false := by
  have apart {d : Char} (delimits : Piece.continuesWord d = false) : c ≠ d := by
    rintro rfl
    rw [continues] at delimits
    cases delimits
  simp [isDelimiter, apart (show Piece.continuesWord ' ' = false from rfl),
    apart (show Piece.continuesWord '(' = false from rfl),
    apart (show Piece.continuesWord ')' = false from rfl),
    apart (show Piece.continuesWord '\n' = false from rfl)]

theorem isWord_of_identifier {text : String} (identifier : Lexeme .identifier text.toList) :
    IsWord text := by
  generalize letters : text.toList = word at identifier
  cases identifier with
  | identifier isWord _ =>
      obtain ⟨c, rest, begins, -⟩ := isWord.starts
      refine ⟨by rw [letters, begins]; exact List.cons_ne_nil c rest, ?_⟩
      rw [letters]
      exact fun d present => isDelimiter_of_continuesWord (isWord.continues d present)

theorem isWord_of_numeral {text : String} (numeral : Numeral text.toList) : IsWord text where
  ne_empty := by
    obtain ⟨c, rest, begins, -⟩ := numeral.begins
    rw [begins]
    exact List.cons_ne_nil c rest
  plain c present := by
    rcases numeral.plain c present with digit | rfl
    · exact isDelimiter_of_continuesWord (Piece.continuesWord_of_isDigit digit)
    · rfl

theorem legible_nil : (list []).Legible := .list fun _ present => absurd present List.not_mem_nil

theorem Legible.cons {part : Form} {parts : List Form} (legible : part.Legible)
    (rest : (Form.list parts).Legible) : (Form.list (part :: parts)).Legible := by
  cases rest with
  | list rest =>
      refine .list fun p present => ?_
      rcases List.mem_cons.mp present with rfl | present
      · exact legible
      · exact rest p present

theorem legible_params {params : List Ident} (clear : ∀ a ∈ Ident.atoms params, a.Clear) :
    (list (params.map fun param => word param.name)).Legible := by
  refine .list fun part present => ?_
  obtain ⟨param, listed, rfl⟩ := List.mem_map.mp present
  exact .word (isWord_of_identifier (clear _ (List.mem_map_of_mem listed)))

end Form

/-! ## Trees of words -/

open Form (list word)

theorem UnaryOp.isWord_symbol (operator : UnaryOp) : Form.IsWord operator.symbol := by
  cases operator <;> decide

theorem BinaryOp.isWord_symbol (operator : BinaryOp) : Form.IsWord operator.symbol := by
  cases operator <;> decide

theorem LogicalOp.isWord_symbol (operator : LogicalOp) : Form.IsWord operator.symbol := by
  cases operator <;> decide

theorem Literal.isWord_outline {value : Literal} (clear : (Atom.constant value).Clear) :
    Form.IsWord value.outline := by
  cases value with
  | number value => exact Form.isWord_of_numeral clear
  | string text => exact clear.elim
  | bool value => cases value <;> decide
  | nil => decide

namespace Expr

mutual

theorem legible : ∀ e : Expr, (∀ a ∈ e.atoms, a.Clear) → e.form.Legible
  | literal _, clear => .word (Literal.isWord_outline (clear _ List.mem_cons_self))
  | unary operator operand _, clear =>
      .cons (.word operator.isWord_symbol) (.cons (operand.legible clear) Form.legible_nil)
  | binary left operator right _, clear => by
      obtain ⟨inLeft, inRight⟩ := List.forall_mem_append.mp clear
      exact .cons (.word operator.isWord_symbol)
        (.cons (left.legible inLeft) (.cons (right.legible inRight) Form.legible_nil))
  | logical left operator right, clear => by
      obtain ⟨inLeft, inRight⟩ := List.forall_mem_append.mp clear
      exact .cons (.word operator.isWord_symbol)
        (.cons (left.legible inLeft) (.cons (right.legible inRight) Form.legible_nil))
  | group inner, clear =>
      .cons (.word (by decide)) (.cons (inner.legible clear) Form.legible_nil)
  | var _ _, clear => .word (Form.isWord_of_identifier (clear _ List.mem_cons_self).1)
  | assign _ name value, clear => by
      obtain ⟨named, inValue⟩ := List.forall_mem_cons.mp clear
      exact .cons (.word (by decide)) (.cons (.word (Form.isWord_of_identifier named))
        (.cons (value.legible inValue) Form.legible_nil))
  | call callee arguments _, clear => by
      obtain ⟨inCallee, inArguments⟩ := List.forall_mem_append.mp clear
      exact .cons (.word (by decide))
        (.cons (callee.legible inCallee) (legibleAll arguments inArguments))
  | get object name, clear => by
      obtain ⟨inObject, named⟩ := List.forall_mem_append.mp clear
      exact .cons (.word (by decide)) (.cons (object.legible inObject)
        (.cons (.word (Form.isWord_of_identifier (named _ List.mem_cons_self))) Form.legible_nil))
  | set object name value, clear => by
      obtain ⟨inObject, others⟩ := List.forall_mem_append.mp clear
      obtain ⟨named, inValue⟩ := List.forall_mem_cons.mp others
      exact .cons (.word (by decide)) (.cons (object.legible inObject)
        (.cons (.word (Form.isWord_of_identifier named))
          (.cons (value.legible inValue) Form.legible_nil)))
  | selfRef _ _, _ => .word (by decide)

theorem legibleAll : ∀ arguments : List Expr, (∀ a ∈ atomsAll arguments, a.Clear) →
    (list (formAll arguments)).Legible
  | [], _ => Form.legible_nil
  | e :: rest, clear => by
      obtain ⟨inFirst, inRest⟩ := List.forall_mem_append.mp clear
      exact .cons (e.legible inFirst) (legibleAll rest inRest)

end

theorem legibleOption {value : Option Expr} (clear : ∀ a ∈ atomsOption value, a.Clear) :
    (formOption value).Legible := by
  cases value with
  | none => exact .word (by decide)
  | some e => exact e.legible clear

end Expr

theorem LoopVar.legibleOption {counter : Option LoopVar}
    (clear : ∀ a ∈ atomsOption counter, a.Clear) : (formOption counter).Legible := by
  cases counter with
  | none => exact .word (by decide)
  | some counter =>
      obtain ⟨named, inValue⟩ := List.forall_mem_cons.mp clear
      exact .cons (.word (by decide)) (.cons (.word (Form.isWord_of_identifier named))
        (.cons (counter.value.legible inValue) Form.legible_nil))

namespace Stmt

/-- A routine is shown in words if its body is. -/
theorem legibleRoutine {head : String} (isWord : Form.IsWord head) {name : Ident}
    (named : (Atom.name name.name).Clear) {params : List Ident}
    (inParams : ∀ a ∈ Ident.atoms params, a.Clear) {body : List Form}
    (legible : (list body).Legible) : (formRoutine head name params body).Legible :=
  .cons (.word isWord) (.cons (.word (Form.isWord_of_identifier named))
    (.cons (Form.legible_params inParams) legible))

mutual

theorem legible : ∀ s : Stmt, (∀ a ∈ s.atoms, a.Clear) → s.form.Legible
  | expression value, clear | print value, clear =>
      .cons (.word (by decide)) (.cons (value.legible clear) Form.legible_nil)
  | declare name none, clear =>
      .cons (.word (by decide))
        (.cons (.word (Form.isWord_of_identifier (clear _ List.mem_cons_self))) Form.legible_nil)
  | declare name (some value), clear => by
      obtain ⟨named, inValue⟩ := List.forall_mem_cons.mp clear
      exact .cons (.word (by decide)) (.cons (.word (Form.isWord_of_identifier named))
        (.cons (value.legible inValue) Form.legible_nil))
  | block body, clear => .cons (.word (by decide)) (legibleAll body clear)
  | function ⟨name, params, body⟩, clear => by
      obtain ⟨named, others⟩ := List.forall_mem_cons.mp clear
      obtain ⟨inParams, inBody⟩ := List.forall_mem_append.mp others
      exact legibleRoutine (by decide) named inParams (legibleAll body inBody)
  | branch condition thenBody none, clear => by
      obtain ⟨inCondition, inThen⟩ := List.forall_mem_append.mp clear
      exact .cons (.word (by decide)) (.cons (condition.legible inCondition)
        (.cons (.cons (.word (by decide)) (legibleAll thenBody inThen)) Form.legible_nil))
  | branch condition thenBody (some elseBody), clear => by
      obtain ⟨others, inElse⟩ := List.forall_mem_append.mp clear
      obtain ⟨inCondition, inThen⟩ := List.forall_mem_append.mp others
      exact .cons (.word (by decide)) (.cons (condition.legible inCondition)
        (.cons (.cons (.word (by decide)) (legibleAll thenBody inThen))
          (.cons (.cons (.word (by decide)) (legibleAll elseBody inElse)) Form.legible_nil)))
  | loop counter condition increment body, clear => by
      obtain ⟨head, inBody⟩ := List.forall_mem_append.mp clear
      obtain ⟨others, inIncrement⟩ := List.forall_mem_append.mp head
      obtain ⟨inCounter, inCondition⟩ := List.forall_mem_append.mp others
      exact .cons (.word (by decide)) (.cons (LoopVar.legibleOption inCounter)
        (.cons (Expr.legibleOption inCondition) (.cons (Expr.legibleOption inIncrement)
          (.cons (.cons (.word (by decide)) (legibleAll body inBody)) Form.legible_nil))))
  | exit _ none, _ => .cons (.word (by decide)) Form.legible_nil
  | exit _ (some value), clear =>
      .cons (.word (by decide)) (.cons (value.legible clear) Form.legible_nil)
  | classDef name methods, clear => by
      obtain ⟨named, inMethods⟩ := List.forall_mem_cons.mp clear
      exact .cons (.word (by decide)) (.cons (.word (Form.isWord_of_identifier named))
        (legibleMethods methods inMethods))

theorem legibleAll : ∀ statements : List Stmt, (∀ a ∈ atomsAll statements, a.Clear) →
    (list (formAll statements)).Legible
  | [], _ => Form.legible_nil
  | s :: rest, clear => by
      obtain ⟨inFirst, inRest⟩ := List.forall_mem_append.mp clear
      exact .cons (s.legible inFirst) (legibleAll rest inRest)

theorem legibleMethods : ∀ methods : List Routine, (∀ a ∈ atomsMethods methods, a.Clear) →
    (list (formMethods methods)).Legible
  | [], _ => Form.legible_nil
  | ⟨name, params, body⟩ :: rest, clear => by
      obtain ⟨first, inRest⟩ := List.forall_mem_append.mp clear
      obtain ⟨named, others⟩ := List.forall_mem_cons.mp first
      obtain ⟨inParams, inBody⟩ := List.forall_mem_append.mp others
      exact .cons (legibleRoutine (by decide) named inParams (legibleAll body inBody))
        (legibleMethods rest inRest)

end

end Stmt

end Rill
