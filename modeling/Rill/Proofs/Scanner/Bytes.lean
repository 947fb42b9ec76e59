import Mathlib.Data.String.Basic

/-!
# Texts as bytes

A text is a sequence of bytes. A character of ASCII is one byte, which stands for that character,
and all bytes of any other character are above ASCII. So bytes alone tell a class of characters
that does not tell characters above ASCII apart, and a run of such characters ends between two
characters.
-/

namespace Rill

/-- The bytes of characters. -/
def octets (cs : List Char) : List UInt8 := cs.flatMap String.utf8EncodeChar

/-- The bytes of a text. -/
def bytesOf (s : String) : List UInt8 := s.toUTF8.data.toList

theorem bytesOf_eq (s : String) : bytesOf s = octets s.toList := by
  rw [bytesOf, String.toUTF8, ← String.utf8Encode_toList, List.utf8Encode,
    List.toList_data_toByteArray, octets]

theorem bytesOf_inj {s t : String} : bytesOf s = bytesOf t ↔ s = t := by
  rw [bytesOf, bytesOf, Array.toList_inj, ← ByteArray.ext_iff]
  exact String.toByteArray_inj

@[simp] theorem octets_nil : octets [] = [] := rfl

@[simp] theorem octets_cons (c : Char) (cs : List Char) :
    octets (c :: cs) = String.utf8EncodeChar c ++ octets cs := List.flatMap_cons

@[simp] theorem octets_append (cs ds : List Char) : octets (cs ++ ds) = octets cs ++ octets ds :=
  List.flatMap_append

@[simp] theorem length_octets (cs : List Char) : (octets cs).length = String.utf8Len cs := by
  induction cs with
  | nil => rfl
  | cons c cs ih =>
      rw [octets_cons, List.length_append, ih, String.length_utf8EncodeChar, String.utf8Len_cons,
        Nat.add_comm]

theorem length_le_utf8Len (cs : List Char) : cs.length ≤ String.utf8Len cs := by
  induction cs with
  | nil => exact Nat.le_refl 0
  | cons c cs ih =>
      rw [String.utf8Len_cons, List.length_cons]
      exact Nat.add_le_add ih c.utf8Size_pos

/-! ## Characters within ASCII and above -/

theorem toNat_ofUInt8 (b : UInt8) : (Char.ofUInt8 b).toNat = b.toNat := rfl

/-- A character of ASCII is one byte, which stands for it. -/
theorem exists_byte {c : Char} (ascii : c.toNat < 128) :
    ∃ b, String.utf8EncodeChar c = [b] ∧ Char.ofUInt8 b = c := by
  refine ⟨UInt8.ofNat c.toNat, ?_, ?_⟩
  · rw [String.utf8EncodeChar]
    exact if_pos (Nat.le_of_lt_succ ascii)
  · rw [← Char.toNat_inj, toNat_ofUInt8,
      UInt8.toNat_ofNat_of_lt' (Nat.lt_trans ascii (by decide))]

theorem utf8Size_eq_one {c : Char} (ascii : c.toNat < 128) : c.utf8Size = 1 :=
  Char.utf8Size_eq_one_iff.mpr (UInt32.le_iff_toNat_le.mpr (Nat.le_of_lt_succ ascii))

theorem le_toNat_ofNat_add {n tag : Nat} (high : 128 ≤ tag) (fits : n + tag < 256) :
    128 ≤ (UInt8.ofNat (n + tag)).toNat := by
  rw [UInt8.toNat_ofNat_of_lt' fits]
  exact Nat.le_add_left_of_le high

/-- The bytes of a character above ASCII are above ASCII. -/
theorem le_of_mem_utf8EncodeChar {c : Char} (wide : 128 ≤ c.toNat) :
    ∀ b ∈ String.utf8EncodeChar c, 128 ≤ (Char.ofUInt8 b).toNat := by
  have above : ¬ c.val.toNat ≤ 127 := Nat.not_le.mpr wide
  intro b listed
  rw [String.utf8EncodeChar, if_neg above] at listed
  rw [toNat_ofUInt8]
  split at listed
  case' isFalse => split at listed
  all_goals
    simp only [List.mem_cons, List.not_mem_nil, or_false] at listed
    rcases listed with rfl | rfl | rfl | rfl <;> exact le_toNat_ofNat_add (by decide) (by omega)

/-- A property of characters does not tell characters above ASCII apart. -/
def Flat {α : Type} (f : Char → α) : Prop := ∃ a, ∀ c : Char, 128 ≤ c.toNat → f c = a

namespace Flat

/-- Each byte of a character has what the character has. -/
theorem apply_byte {α : Type} {f : Char → α} (flat : Flat f) {c : Char} {b : UInt8}
    (listed : b ∈ String.utf8EncodeChar c) : f (Char.ofUInt8 b) = f c := by
  rcases Nat.lt_or_ge c.toNat 128 with ascii | wide
  · obtain ⟨b', encoded, same⟩ := exists_byte ascii
    rw [encoded, List.mem_singleton] at listed
    rw [listed, same]
  · obtain ⟨a, above⟩ := flat
    rw [above _ (le_of_mem_utf8EncodeChar wide b listed), above c wide]

variable {p : Char → Bool}

/-- A run of characters is a run of their bytes. -/
theorem takeWhile_octets (flat : Flat p) (cs : List Char) :
    (octets cs).takeWhile (fun b => p (Char.ofUInt8 b)) = octets (cs.takeWhile p) := by
  induction cs with
  | nil => rfl
  | cons c cs ih =>
      rw [octets_cons]
      cases passes : p c with
      | true =>
          rw [List.takeWhile_append_of_pos fun b listed => (flat.apply_byte listed).trans passes,
            ih, List.takeWhile_cons_of_pos passes, octets_cons]
      | false =>
          rw [List.takeWhile_cons_of_neg (by simp [passes])]
          cases encoded : String.utf8EncodeChar c with
          | nil => exact absurd encoded String.utf8EncodeChar_ne_nil
          | cons b bs =>
              have first : p (Char.ofUInt8 b) = false :=
                (flat.apply_byte (by simp [encoded])).trans passes
              rw [List.cons_append, List.takeWhile_cons_of_neg (by simp [first]), octets_nil]

/-- What the next byte shows is what the next character has, and zero shows if there is none. -/
theorem apply_headD_octets (flat : Flat p) (zero : p '\x00' = false) (cs : List Char) :
    p (Char.ofUInt8 ((octets cs).headD 0)) = cs.head?.any p := by
  cases cs with
  | nil => exact zero
  | cons c cs =>
      rw [octets_cons, List.head?_cons, Option.any_some]
      cases encoded : String.utf8EncodeChar c with
      | nil => exact absurd encoded String.utf8EncodeChar_ne_nil
      | cons b bs => exact flat.apply_byte (by simp [encoded])

theorem eq_ascii {d : Char} (ascii : d.toNat < 128) : Flat fun c : Char => decide (c = d) :=
  ⟨false, fun c wide => decide_eq_false (by rintro rfl; omega)⟩

theorem ne_ascii {d : Char} (ascii : d.toNat < 128) : Flat fun c : Char => decide (c ≠ d) :=
  ⟨true, fun c wide => decide_eq_true (by rintro rfl; omega)⟩

end Flat

/-- A character of ASCII occurs among characters as often as among their bytes. -/
theorem countP_octets {d : Char} (ascii : d.toNat < 128) (cs : List Char) :
    (octets cs).countP (fun b => Char.ofUInt8 b = d) = cs.count d := by
  induction cs with
  | nil => rfl
  | cons c cs ih =>
      rw [octets_cons, List.countP_append, ih, List.count_cons, Nat.add_comm]
      congr 1
      rcases Nat.lt_or_ge c.toNat 128 with within | wide
      · obtain ⟨b, encoded, same⟩ := exists_byte within
        simp [encoded, same, List.countP_cons]
      · have differs : c ≠ d := by
          rintro rfl
          omega
        rw [if_neg (by simpa using differs), List.countP_eq_zero]
        intro b listed
        have above := le_of_mem_utf8EncodeChar wide b listed
        rw [decide_eq_true_iff]
        rintro rfl
        omega

/-! ## Slices -/

/-- A text is cut between its characters. -/
theorem isValid_utf8Len {source : String} {read rest : List Char}
    (whole : source.toList = read ++ rest) :
    String.Pos.Raw.isValid source ⟨String.utf8Len read⟩ = true := by
  rw [String.Pos.Raw.isValid_eq_true_iff, String.Pos.Raw.isValid_iff_exists_append]
  refine ⟨String.ofList read, String.ofList rest, ?_, ?_⟩
  · rw [← String.ofList_append, ← whole, String.ofList_toList]
  · rw [String.rawEndPos, String.utf8ByteSize_ofList]

/-- What stands between two places of a text. -/
theorem extract_utf8Len {source : String} {read mid rest : List Char}
    (whole : source.toList = read ++ mid ++ rest) :
    String.Pos.Raw.extract source ⟨String.utf8Len read⟩
      ⟨String.utf8Len read + String.utf8Len mid⟩ = String.ofList mid := by
  rw [← String.ofList_toList (s := source), whole]
  exact String.extract_of_valid read mid rest

end Rill
