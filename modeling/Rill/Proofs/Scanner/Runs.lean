import Rill.Proofs.Scanner.Reader

/-!
# Reading bytes by index

What a scanner reads is decided by the bytes that are left. Looking at them never fails, also where
none are left, and a byte that is left can be read. So a loop over bytes comes to its end, and reads
the longest run of its class, if its bound is greater than the number of bytes that are left.
-/

namespace Rill.Scanner

open EStateM (Result)

variable {source : String} {w : Window}

theorem run_bind_of_ok {α β : Type} {p : Reader α} {f : α → Reader β} {w' : Window} {a : α}
    (ran : p.run w = .ok a w') : (p >>= f).run w = (f a).run w' := by
  rw [EStateM.run_bind, ran]

/-! ## Bytes that are left -/

/-- The bytes that are left to read. -/
def left (source : String) (w : Window) : List UInt8 := (bytesOf source).drop w.current

/-- The window with more bytes read. -/
def Window.moved (w : Window) (length : Nat) : Window := { w with current := w.current + length }

variable {b : UInt8} {bs : List UInt8}

@[simp] theorem Window.moved_zero : w.moved 0 = w := rfl

@[simp] theorem Window.moved_moved (first second : Nat) :
    (w.moved first).moved second = w.moved (first + second) := by
  simp only [Window.moved, Nat.add_assoc]

theorem left_moved (length : Nat) : left source (w.moved length) = (left source w).drop length :=
  List.drop_drop.symm

theorem left_of_cons (ahead : left source w = b :: bs) : left source (w.moved 1) = bs := by
  rw [left_moved, ahead, List.drop_one, List.tail_cons]

theorem getElem?_current : (bytesOf source)[w.current]? = (left source w).head? := by
  rw [left, List.head?_drop]

theorem run_isAtEnd : (isAtEnd source).run w = .ok (left source w).isEmpty w := by
  simp only [isAtEnd, EStateM.run_bind, EStateM.run_get, EStateM.run_pure]
  congr 1
  rw [left, Bool.eq_iff_iff, decide_eq_true_iff, List.isEmpty_iff, List.drop_eq_nil_iff, size]

theorem run_byteAt {index : Nat} (there : (bytesOf source)[index]? = some b) :
    (byteAt source index).run w = .ok b w := by
  rw [byteAt, there]
  rfl

theorem run_advance (ahead : left source w = b :: bs) :
    (advance source).run w = .ok b (w.moved 1) := by
  have there : (bytesOf source)[w.current]? = some b := by
    rw [getElem?_current, ahead, List.head?_cons]
  simp only [advance, EStateM.run_bind, EStateM.run_get, run_byteAt there, EStateM.run_modify,
    EStateM.run_pure, Window.moved]

theorem run_peek : (peek source).run w = .ok ((left source w).headD 0) w := by
  simp only [peek, EStateM.run_bind, run_isAtEnd]
  cases ahead : left source w with
  | nil => simp [EStateM.run_pure]
  | cons b bs =>
      have there : (bytesOf source)[w.current]? = some b := by
        rw [getElem?_current, ahead, List.head?_cons]
      simp [EStateM.run_bind, EStateM.run_get, run_byteAt there]

theorem run_peekNext : (peekNext source).run w = .ok ((left source w).tail.headD 0) w := by
  have tail : (left source w).tail = (bytesOf source).drop (w.current + 1) := by
    rw [left, List.tail_drop]
  simp only [peekNext, EStateM.run_bind, EStateM.run_get, tail]
  split
  · next ended => simp [List.drop_of_length_le ended, EStateM.run_pure]
  · next within =>
      have there := List.getElem?_eq_getElem (Nat.lt_of_not_le within)
      rw [run_byteAt there, List.headD_eq_head?_getD, List.head?_drop, there, Option.getD_some]

theorem run_accept_of_eq (ahead : left source w = b :: bs) :
    (accept source (Char.ofUInt8 b)).run w = .ok true (w.moved 1) := by
  rw [accept, run_bind_of_ok run_isAtEnd, ahead, List.isEmpty_cons, if_neg Bool.false_ne_true,
    run_bind_of_ok run_peek, ahead, List.headD_cons, if_pos rfl, run_bind_of_ok (run_advance ahead)]
  rfl

theorem run_accept_of_ne {c : Char} (other : ∀ b ∈ (left source w).head?, Char.ofUInt8 b ≠ c) :
    (accept source c).run w = .ok false w := by
  rw [accept, run_bind_of_ok run_isAtEnd]
  cases ahead : left source w with
  | nil => rfl
  | cons b bs =>
      rw [ahead] at other
      rw [List.isEmpty_cons, if_neg Bool.false_ne_true, run_bind_of_ok run_peek, ahead,
        List.headD_cons, if_neg (other b rfl)]
      rfl

/-! ## Runs of bytes -/

theorem run_skipWhile {p : Char → Bool} (stops : p '\x00' = false) {bound : Nat}
    (enough : (left source w).length < bound) :
    (skipWhile source p bound).run w =
      .ok () (w.moved ((left source w).takeWhile fun b => p (Char.ofUInt8 b)).length) := by
  induction bound generalizing w with
  | zero => exact absurd enough (Nat.not_lt_zero _)
  | succ bound ih =>
      rw [skipWhile, run_bind_of_ok run_peek]
      cases ahead : left source w with
      | nil =>
          have zero : ¬ p (Char.ofUInt8 0) = true := by
            rw [show Char.ofUInt8 0 = '\x00' from rfl, stops]
            exact Bool.false_ne_true
          rw [List.headD_nil, if_neg zero]
          rfl
      | cons b bs =>
          rw [ahead, List.length_cons] at enough
          have after := left_of_cons ahead
          rw [List.headD_cons]
          by_cases passes : p (Char.ofUInt8 b) = true
          · rw [if_pos passes, run_bind_of_ok (run_advance ahead),
              ih (by rw [after]; exact Nat.lt_of_succ_lt_succ enough), after,
              List.takeWhile_cons_of_pos (p := fun b => p (Char.ofUInt8 b)) passes,
              Window.moved_moved, List.length_cons, Nat.add_comm]
          · rw [if_neg passes, List.takeWhile_cons_of_neg (p := fun b => p (Char.ofUInt8 b)) passes]
            rfl

/-- The window behind bytes of a body, the line feeds among which are counted. -/
def Window.past (w : Window) (bs : List UInt8) : Window :=
  { w.moved bs.length with line := w.line + bs.countP fun b => Char.ofUInt8 b = '\n' }

theorem Window.past_cons : w.past (b :: bs) = (w.past [b]).past bs := by
  rw [← List.singleton_append]
  simp only [Window.past, Window.moved, List.length_append, List.countP_append, Nat.add_assoc]

theorem run_skipBody {bound : Nat} (enough : (left source w).length < bound) :
    (skipBody source bound).run w =
      .ok () (w.past ((left source w).takeWhile fun b => Char.ofUInt8 b ≠ '"')) := by
  induction bound generalizing w with
  | zero => exact absurd enough (Nat.not_lt_zero _)
  | succ bound ih =>
      rw [skipBody, run_bind_of_ok run_isAtEnd]
      cases ahead : left source w with
      | nil => rfl
      | cons b bs =>
          rw [ahead, List.length_cons] at enough
          have after : left source (w.past [b]) = bs := left_of_cons ahead
          have rest := ih (w := w.past [b]) (by rw [after]; exact Nat.lt_of_succ_lt_succ enough)
          rw [List.isEmpty_cons, if_neg Bool.false_ne_true, run_bind_of_ok run_peek, ahead,
            List.headD_cons]
          by_cases quote : Char.ofUInt8 b = '"'
          · rw [if_pos quote, List.takeWhile_cons_of_neg (by simp [quote])]
            rfl
          · rw [if_neg quote, run_bind_of_ok (run_advance ahead),
              List.takeWhile_cons_of_pos (by simp [quote]), Window.past_cons, ← after, ← rest]
            by_cases lineFeed : Char.ofUInt8 b = '\n'
            · rw [if_pos lineFeed, EStateM.run_bind, EStateM.run_modify]
              simp [Window.past, Window.moved, lineFeed]
            · rw [if_neg lineFeed]
              simp [Window.past, Window.moved, lineFeed]

end Rill.Scanner
