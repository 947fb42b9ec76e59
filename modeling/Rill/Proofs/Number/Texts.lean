import Rill.Machine.Value
import Rill.Proofs.Number.Decimals
import Rill.Proofs.Token.Lines
import Rill.Syntax.Outline

/-!
# Texts of numbers read back

A decimal that is written out positionally is a lexeme of the number that its value is rounded to
(`Decimal.lexeme_positional`), and so are the digits of a whole number, with or without a zero
behind a point. So in whichever form the language shows a number, the text is scanned as that number
and nothing else (`number_texts_read_back`).
-/

namespace Rill

/-! ## Lexemes on their own -/

/-- The lexeme of a number, on its own, is scanned as that number. -/
theorem Lexeme.scan_number {x : Number} {text : String} (lexeme : Lexeme (.number x) text.toList) :
    scan text = [.ok ⟨.number x, text, 1⟩, .ok ⟨.endOfInput, "", 1⟩] := by
  have alone := (Readable.token lexeme).pieces_eq
  have oneLine : Piece.lineFeeds ⟨.token (.number x), text.toList⟩ = 0 :=
    List.count_eq_zero_of_not_mem (lexeme.lineFeed_not_mem nofun nofun)
  rw [scan, alone, itemsFrom, itemsFrom, Piece.item?, oneLine, String.ofList_toList]
  rfl

/-! ## Digits -/

namespace Digits

variable {text : List Char} (digits : Digits text)

theorem toDigits (n : Nat) : Digits (Nat.toDigits 10 n) where
  ne_nil := Nat.toDigits_ne_nil
  isDigit _ present := Nat.isDigit_of_mem_toDigits (by decide) (by decide) present

theorem isDigit_of_mem_zeros {n : Nat} {d : Char} (zero : d ∈ List.replicate n '0') :
    d.isDigit = true := by
  rw [List.eq_of_mem_replicate zero]
  rfl

include digits

theorem zeros_append (n : Nat) : Digits (List.replicate n '0' ++ text) where
  ne_nil := List.append_ne_nil_of_right_ne_nil _ digits.ne_nil
  isDigit d present := (List.mem_append.mp present).elim isDigit_of_mem_zeros (digits.isDigit d)

theorem append_zeros (n : Nat) : Digits (text ++ List.replicate n '0') where
  ne_nil := List.append_ne_nil_of_left_ne_nil digits.ne_nil _
  isDigit d present := (List.mem_append.mp present).elim (digits.isDigit d) isDigit_of_mem_zeros

theorem take {n : Nat} (some : 0 < n) : Digits (text.take n) where
  ne_nil empty := (List.take_eq_nil_iff.mp empty).elim (Nat.ne_of_gt some) digits.ne_nil
  isDigit d present := digits.isDigit d (List.mem_of_mem_take present)

theorem drop {n : Nat} (within : n < text.length) : Digits (text.drop n) where
  ne_nil empty := Nat.not_le.mpr within (List.drop_eq_nil_iff.mp empty)
  isDigit d present := digits.isDigit d (List.mem_of_mem_drop present)

end Digits

/-! ## Decimals -/

open Number (ofDigits ofRank)

namespace Decimal

variable {d : Decimal}

/-- Digits that have the value of a decimal denote the number that it is rounded to. -/
theorem ofDigits_eq {whole fraction : List Char}
    (same : Nat.ofDigitChars 10 (whole ++ fraction) 0 * d.denominator =
      d.numerator * Nat.pow 10 fraction.length) :
    ofDigits whole fraction = ofRank false d.rank :=
  congrArg (ofRank false) (rankOfUnits_eq_rank (Nat.pow_pos (by decide)) same)

/-- A decimal, written out positionally, is a lexeme of the number that it is rounded to. -/
theorem lexeme_positional (d : Decimal) : Lexeme (.number (ofRank false d.rank)) d.positional := by
  have digits : Digits (Nat.toDigits 10 d.digits) := .toDigits d.digits
  have value : Nat.ofDigitChars 10 (Nat.toDigits 10 d.digits) 0 = d.digits :=
    Nat.ofDigitChars_ten_toDigits
  rw [positional]
  dsimp only
  generalize Nat.toDigits 10 d.digits = text at digits value
  split
  · next whole =>
      have none : (-d.exponent).toNat = 0 := by omega
      have same : ofDigits (text ++ List.replicate d.exponent.toNat '0') [] =
          ofRank false d.rank := by
        refine ofDigits_eq ?_
        rw [List.append_nil, Nat.ofDigitChars_append, value, Nat.ofDigitChars_replicate_zero,
          denominator, none, numerator, Nat.mul_comm d.digits]
        rfl
      rw [← same]
      exact .whole (digits.append_zeros _)
  · next negative =>
      have none : d.exponent.toNat = 0 := by omega
      have some : 0 < (-d.exponent).toNat := by omega
      -- Behind the point stand as many digits as the power of ten in the denominator has zeros.
      have point {whole fraction : List Char} (length : fraction.length = (-d.exponent).toNat)
          (value : Nat.ofDigitChars 10 (whole ++ fraction) 0 = d.digits) :
          ofDigits whole fraction = ofRank false d.rank := by
        refine ofDigits_eq ?_
        rw [value, length, denominator, numerator, none]
        exact congrArg (· * _) (Nat.mul_one d.digits).symm
      generalize (-d.exponent).toNat = places at some point
      split
      · next within =>
          have same := @point (text.take (text.length - places)) (text.drop (text.length - places))
            (by rw [List.length_drop]; omega) (by rw [List.take_append_drop, value])
          rw [← same]
          exact .fraction (digits.take within) (digits.drop (by omega))
      · next short =>
          have zero : Digits ['0'] := .toDigits 0
          have same := @point ['0'] (List.replicate (places - text.length) '0' ++ text)
            (by rw [List.length_append, List.length_replicate]; omega)
            (by
              rw [Nat.ofDigitChars_append, Nat.ofDigitChars_append]
              exact (congrArg _ Nat.ofDigitChars_replicate_zero).trans value)
          rw [← same]
          exact .fraction zero (digits.zeros_append _)

end Decimal

/-! ## Numbers -/

namespace Number

variable {x : Number} (positive : x.isNegative = false)

include positive

theorem ofRank_rank : ofRank false x.rank = x := by
  have below : x.bits.toNat < signWeight := Nat.not_le.mp (of_decide_eq_false positive)
  have same : UInt64.ofNat x.rank = x.bits := by
    rw [rank, Nat.mod_eq_of_lt below, UInt64.ofNat_toNat]
  exact congrArg Number.mk same

theorem toList_signed (magnitude : List Char) : (x.signed magnitude).toList = magnitude := by
  rw [signed, positive, if_neg Bool.false_ne_true, String.toList_ofList]

theorem lexeme_plainText (finite : x.isFinite = true) :
    Lexeme (.number x) x.plainText.toList := by
  have lexeme := (x.shortestDecimal .up).lexeme_positional
  rw [rank_shortestDecimal finite, ofRank_rank positive] at lexeme
  rwa [plainText, if_pos finite, toList_signed positive]

variable (integral : x.isIntegral = true)

omit positive

include integral

/-- A whole number is the rounding of its whole part. -/
theorem rank_wholePart : Decimal.rank ⟨x.wholePart, 0⟩ = x.rank := by
  obtain ⟨finite, whole⟩ := Bool.and_eq_true_iff.mp integral
  have exact : x.wholePart * unitsPerOne = units x.rank :=
    Nat.div_mul_cancel (Nat.dvd_of_mod_eq_zero (eq_of_beq whole))
  have same : x.wholePart * Nat.pow 10 0 * unitsPerOne = units x.rank := by
    rw [← exact]
    exact congrArg (· * unitsPerOne) (Nat.mul_one x.wholePart)
  rw [Decimal.rank_eq, Decimal.numerator, Decimal.denominator]
  exact (congrArg (rankOfUnits · 1) same).trans (rankOfUnits_units (of_decide_eq_true finite))

include positive

/-- The digits of a whole number denote it, also with zeros behind the point. -/
theorem ofDigits_wholePart (zeros : Nat) :
    ofDigits (Nat.toDigits 10 x.wholePart) (List.replicate zeros '0') = x := by
  have value : Nat.ofDigitChars 10
      (Nat.toDigits 10 x.wholePart ++ List.replicate zeros '0') 0 *
        Decimal.denominator ⟨x.wholePart, 0⟩ =
      Decimal.numerator ⟨x.wholePart, 0⟩ * Nat.pow 10 (List.replicate zeros '0').length := by
    rw [Nat.ofDigitChars_append, Nat.ofDigitChars_ten_toDigits, Nat.ofDigitChars_replicate_zero,
      List.length_replicate]
    simp [Decimal.denominator, Decimal.numerator, Nat.mul_comm]
  rw [Decimal.ofDigits_eq value, rank_wholePart integral, ofRank_rank positive]

theorem lexeme_wholeText : Lexeme (.number x) x.wholeText.toList := by
  have lexeme := Lexeme.whole (.toDigits x.wholePart)
  have same : ofDigits (Nat.toDigits 10 x.wholePart) [] = x :=
    ofDigits_wholePart positive integral 0
  rw [same] at lexeme
  rwa [wholeText, toList_signed positive]

theorem lexeme_wholeText_point : Lexeme (.number x) (x.wholeText ++ ".0").toList := by
  have zero : Digits ['0'] := .toDigits 0
  have lexeme := Lexeme.fraction (.toDigits x.wholePart) zero
  have same : ofDigits (Nat.toDigits 10 x.wholePart) ['0'] = x :=
    ofDigits_wholePart positive integral 1
  rw [same] at lexeme
  rwa [String.toList_append, wholeText, toList_signed positive]

omit integral

variable (finite : x.isFinite = true)

include finite

theorem lexeme_valueText : Lexeme (.number x) x.valueText.toList := by
  rw [valueText]
  split
  · next integral => exact lexeme_wholeText positive integral
  · exact lexeme_plainText positive finite

theorem lexeme_treeText : Lexeme (.number x) x.treeText.toList := by
  rw [treeText]
  split
  · next integral => exact lexeme_wholeText_point positive integral
  · exact lexeme_plainText positive finite

theorem lexeme_tokenText : Lexeme (.number x) x.tokenText.toList := by
  rw [tokenText]
  split
  · next below =>
      rw [repr_toInt_eq positive]
      exact lexeme_wholeText_point positive (Bool.and_eq_true_iff.mp below).1
  · exact lexeme_plainText positive finite

omit positive finite

/-- The bit patterns below that of infinity are those of the finite numbers without a sign. -/
theorem finite_of_bits_lt (below : x.bits < 0x7FF0000000000000) :
    x.isFinite = true ∧ x.isNegative = false := by
  have bound : x.bits.toNat < infinityRank := UInt64.lt_iff_toNat_lt.mp below
  have magnitude : x.rank ≤ x.bits.toNat := Nat.mod_le ..
  have unsigned : x.bits.toNat < signWeight := Nat.lt_trans bound (by decide)
  exact ⟨decide_eq_true (Nat.lt_of_le_of_lt magnitude bound),
    decide_eq_false (Nat.not_le.mpr unsigned)⟩

end Number

/-! ## Texts -/

/--
Every text that is shown for a number reads back as that number. For each finite number without a
sign, given by its bit pattern, the text of the value as it is printed, the literal in the listing
of a token, and the outline of the constant are each scanned as one token, written as the whole
text, that denotes the number, and the end of the input behind it.
-/
theorem number_texts_read_back {x : Number} (finite : x.bits < 0x7FF0000000000000)
    (lexeme : String) (line : Nat) :
    ∀ text ∈ [(Value.number x : Value).text, Token.listedLiteral ⟨.number x, lexeme, line⟩,
        (Expr.literal (.number x)).outline],
      scan text = [.ok ⟨.number x, text, 1⟩, .ok ⟨.endOfInput, "", 1⟩] := by
  obtain ⟨finite, positive⟩ := Number.finite_of_bits_lt finite
  have value := (Number.lexeme_valueText positive finite).scan_number
  have token := (Number.lexeme_tokenText positive finite).scan_number
  have tree := (Number.lexeme_treeText positive finite).scan_number
  intro text shown
  simp only [List.mem_cons, List.not_mem_nil, or_false] at shown
  rcases shown with rfl | rfl | rfl
  · exact value
  · exact token
  · exact tree

/-- From `2 ^ 63` on a listing shows fewer digits than are printed, and they read back as well. -/
theorem number_texts_read_back_of_power :
    let x : Number := ⟨0x43E0000000000000⟩
    let texts := ["9223372036854775808", "9223372036854776000", "9223372036854775808.0"]
    [(Value.number x : Value).text, Token.listedLiteral ⟨.number x, "9223372036854775808", 1⟩,
        (Expr.literal (.number x)).outline] = texts ∧
      ∀ text ∈ texts, scan text = [.ok ⟨.number x, text, 1⟩, .ok ⟨.endOfInput, "", 1⟩] := by
  intro x texts
  have shown : [(Value.number x : Value).text,
      Token.listedLiteral ⟨.number x, "9223372036854775808", 1⟩,
      (Expr.literal (.number x)).outline] = texts := by decide +kernel
  refine ⟨shown, ?_⟩
  rw [← shown]
  exact number_texts_read_back (by decide) "9223372036854775808" 1

end Rill
