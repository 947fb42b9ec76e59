import Rill.Machine.Basic
import Rill.Proofs.Scanner.Bytes

/-!
# Names in order

The names in a description are in the order of their characters. That is the order of their bytes:
of two characters, the lesser one has the lesser byte at the first place where their bytes differ,
and neither has its bytes at the front of the other's.
-/

namespace Rill

section Bytes

theorem ofNat_cons_lt {v w : Nat} (first : v < 256) (second : w < 256) {rest other : List UInt8} :
    UInt8.ofNat v :: rest < UInt8.ofNat w :: other ↔ v < w ∨ v = w ∧ rest < other := by
  rw [List.cons_lt_cons_iff, UInt8.ofNat_lt_iff_lt first second, ← UInt8.toNat_inj,
    UInt8.toNat_ofNat_of_lt' first, UInt8.toNat_ofNat_of_lt' second]

/-- What is behind texts of one length does not matter if these differ. -/
theorem append_lt_append {first second : List UInt8} (length : first.length = second.length)
    (less : first < second) (rest other : List UInt8) : first ++ rest < second ++ other := by
  induction first generalizing second with
  | nil =>
      cases second with
      | nil => cases less
      | cons b second => cases length
  | cons a first ih =>
      cases second with
      | nil => cases length
      | cons b second =>
          rw [List.cons_append, List.cons_append, List.cons_lt_cons_iff]
          rcases List.cons_lt_cons_iff.mp less with head | ⟨same, tail⟩
          · exact .inl head
          · exact .inr ⟨same, ih (Nat.succ.inj length) tail⟩

/-- Of two characters, the lesser one has the lesser bytes, whatever stands behind them. -/
theorem utf8EncodeChar_append_lt {a b : Char} (less : a < b) (rest other : List UInt8) :
    String.utf8EncodeChar a ++ rest < String.utf8EncodeChar b ++ other := by
  have below : a.val.toNat < b.val.toNat := less
  have bound : b.val.toNat < 1114112 := by
    have valid := b.valid
    simp only [UInt32.isValidChar, Nat.isValidChar] at valid
    omega
  -- Bytes are digits to the base 64, which is how they are compared.
  have second (n : Nat) : n / 4096 = n / 64 / 64 := by rw [Nat.div_div_eq_div_mul]
  have third (n : Nat) : n / 262144 = n / 64 / 64 / 64 := by
    rw [Nat.div_div_eq_div_mul, Nat.div_div_eq_div_mul]
  unfold String.utf8EncodeChar
  dsimp only
  simp only [second, third]
  generalize a.val.toNat = v at below
  generalize b.val.toNat = w at below bound
  -- Characters with as many bytes differ in one of them, all others in the first.
  split <;> split <;> (try split) <;> (try split) <;> (try split) <;> (try split)
  all_goals first
    | omega
    | (refine append_lt_append ?sameLength ?_ _ _
       case sameLength => rfl
       simp (disch := omega) only [ofNat_cons_lt, List.not_lt_nil, and_false, or_false]
       omega)
    | (simp (disch := omega) only [List.cons_append, ofNat_cons_lt]
       exact .inl (by omega))

end Bytes

theorem bytesOf_lt_of_lt {s t : String} (less : s < t) : bytesOf s < bytesOf t := by
  rw [bytesOf_eq, bytesOf_eq]
  have ordered : List.Lex (· < ·) s.toList t.toList := String.lt_iff.mp less
  revert ordered
  generalize s.toList = first
  generalize t.toList = second
  intro ordered
  induction ordered with
  | nil =>
      rename_i c rest
      rw [octets_nil, octets_cons]
      have some := String.utf8EncodeChar_ne_nil (c := c)
      revert some
      generalize String.utf8EncodeChar c = bytes
      intro some
      cases bytes with
      | nil => exact absurd rfl some
      | cons byte bytes => exact .nil
  | rel less => exact utf8EncodeChar_append_lt less _ _
  | cons _ ih => exact List.append_left_lt ih

/-- A list has the names of some kind, each of them once, in the order of their bytes. -/
structure Lists (names : List String) (there : String → Prop) : Prop where
  mem_iff : ∀ {name}, name ∈ names ↔ there name
  ordered : names.Pairwise fun a b => bytesOf a < bytesOf b

theorem lists_keys {α : Type} (table : Table α) :
    Lists table.keys fun name => (table[name]?).isSome where
  mem_iff := Std.TreeMap.mem_keys.trans Std.TreeMap.mem_iff_isSome_getElem?
  ordered := by
    refine Std.TreeMap.ordered_keys.imp fun {a b} less => bytesOf_lt_of_lt ?_
    change compareOfLessAndEq a b = .lt at less
    unfold compareOfLessAndEq at less
    by_cases below : a < b
    · exact below
    · rw [if_neg below] at less
      split at less <;> cases less

theorem Lists.congr {names : List String} {there other : String → Prop}
    (lists : Lists names there) (same : ∀ name, there name ↔ other name) : Lists names other :=
  ⟨lists.mem_iff.trans (same _), lists.ordered⟩

end Rill
