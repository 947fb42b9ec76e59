import Rill.Proofs.Scanner.Runs
import Rill.Proofs.Token.Lexemes
import Rill.Token.Scan

/-!
# Reading pieces by index

A window holds a lexeme if its bytes are those of the lexeme, and the rest of the text is left. What
a scanner reads next, a token, a blank, a comment or a fault, is the piece that is cut off the rest
of the text, so it starts and stops between two characters, also behind a fault
(`Holds.scans_token`).
-/

namespace Rill.Scanner

open EStateM (Result)

variable {source : String} {w : Window} {limit : Nat} {read lexeme rest : List Char} {c : Char}

/-! ## The lexeme in a window -/

/-- A window holds a lexeme that stands between what was read earlier and the rest of the text. -/
structure Holds (source : String) (w : Window) (read lexeme rest : List Char) : Prop where
  whole : source.toList = read ++ lexeme ++ rest
  start : w.start = String.utf8Len read
  current : w.current = String.utf8Len read + String.utf8Len lexeme

namespace Holds

theorem left_eq (holds : Holds source w read lexeme rest) : left source w = octets rest := by
  rw [left, bytesOf_eq, holds.whole, octets_append, octets_append, holds.current, ← length_octets,
    ← length_octets, ← List.length_append, List.drop_left]

theorem size_eq (holds : Holds source w read lexeme rest) :
    size source = w.current + String.utf8Len rest := by
  rw [size, bytesOf_eq, length_octets, holds.whole, String.utf8Len_append, String.utf8Len_append,
    holds.current]

/-- A bound above the size of the text is above the number of bytes that are left. -/
theorem enough (holds : Holds source w read lexeme rest) (above : size source < limit) :
    (left source w).length < limit := by
  rw [holds.left_eq, length_octets]
  have size := holds.size_eq
  omega

/-- Reading on makes the lexeme longer. -/
theorem grow {mid : List Char} (holds : Holds source w read lexeme (mid ++ rest)) :
    Holds source (w.moved (String.utf8Len mid)) read (lexeme ++ mid) rest where
  whole := by rw [holds.whole, List.append_assoc, List.append_assoc, List.append_assoc]
  start := holds.start
  current := by
    rw [Window.moved, holds.current, String.utf8Len_append, Nat.add_assoc]

/-- A character of ASCII is read as one byte. -/
theorem push {d : Char} (holds : Holds source w read lexeme (d :: rest)) (ascii : d.toNat < 128) :
    Holds source (w.moved 1) read (lexeme ++ [d]) rest := by
  have grown : Holds source (w.moved (String.utf8Len [d])) read (lexeme ++ [d]) rest := grow holds
  rwa [String.utf8Len_cons, String.utf8Len_nil, utf8Size_eq_one ascii] at grown

/-- The lexeme can be cut out of the text. -/
theorem run_slice (holds : Holds source w read lexeme rest) (w' : Window) :
    (slice source w.start w.current).run w' = .ok (String.ofList lexeme) w' := by
  have first := isValid_utf8Len (holds.whole.trans (List.append_assoc ..))
  have last := isValid_utf8Len holds.whole
  rw [String.utf8Len_append] at last
  rw [slice, holds.start, holds.current, if_pos ⟨Nat.le_add_right .., first, last⟩,
    extract_utf8Len holds.whole]
  rfl

/-- The bytes of the lexeme can be cut out of those of the text. -/
theorem run_byteSlice (holds : Holds source w read lexeme rest) (w' : Window) :
    (byteSlice source w.start w.current).run w' = .ok (octets lexeme) w' := by
  have within : w.start ≤ w.current ∧ w.current ≤ size source := by
    rw [holds.size_eq, holds.start, holds.current]
    exact ⟨Nat.le_add_right .., Nat.le_add_right ..⟩
  rw [byteSlice, if_pos within, bytesOf_eq, holds.whole, octets_append, octets_append,
    holds.current, holds.start, ← length_octets, ← length_octets, ← List.length_append,
    List.take_left, List.drop_left]
  rfl

end Holds

/-! ## Characters that are left -/

theorem Holds.accept_of_eq {d : Char} (ascii : d.toNat < 128)
    (holds : Holds source w read lexeme (d :: rest)) :
    (accept source d).run w = .ok true (w.moved 1) := by
  obtain ⟨b, encoded, stands⟩ := exists_byte ascii
  have ahead := holds.left_eq
  rw [octets_cons, encoded, List.singleton_append] at ahead
  rw [← stands, run_accept_of_eq ahead]

theorem Holds.accept_of_ne {d : Char} (ascii : d.toNat < 128)
    (holds : Holds source w read lexeme rest) (other : ∀ tail, rest ≠ d :: tail) :
    (accept source d).run w = .ok false w := by
  refine run_accept_of_ne fun b first same => ?_
  rw [holds.left_eq] at first
  cases rest with
  | nil => cases first
  | cons e tail =>
      have listed : b ∈ String.utf8EncodeChar e := by
        rw [octets_cons, List.head?_append_of_ne_nil _ String.utf8EncodeChar_ne_nil] at first
        exact List.mem_of_mem_head? first
      have equal := (Flat.eq_ascii ascii).apply_byte listed
      rw [same] at equal
      exact other tail (by rw [of_decide_eq_true (equal.symm.trans (decide_eq_true rfl))])

/-- A run of characters is read to its end. -/
theorem Holds.run_skipWhile {p : Char → Bool} (flat : Flat p) (stops : p '\x00' = false)
    (holds : Holds source w read lexeme rest) (above : size source < limit) :
    (skipWhile source p limit).run w =
      .ok () (w.moved (String.utf8Len (rest.takeWhile p))) := by
  rw [Scanner.run_skipWhile stops (holds.enough above), holds.left_eq, flat.takeWhile_octets,
    length_octets]

/-! ## Characters above ASCII -/

theorem continuesWord_of_wide (wide : 128 ≤ c.toNat) : Piece.continuesWord c = false := by
  have value : c.val.toNat = c.toNat := rfl
  refine Bool.eq_false_iff.mpr fun continues => ?_
  rcases Bool.or_eq_true_iff.mp continues with word | underscore
  · rcases Bool.or_eq_true_iff.mp word with letter | digit
    · rcases Bool.or_eq_true_iff.mp letter with upper | lower
      · have within : c.val.toNat ≤ 90 := (of_decide_eq_true upper).2
        omega
      · have within : c.val.toNat ≤ 122 := of_decide_eq_true (Bool.and_eq_true_iff.mp lower).2
        omega
    · have within : c.val.toNat ≤ 57 := of_decide_eq_true (Bool.and_eq_true_iff.mp digit).2
      omega
  · rw [of_decide_eq_true underscore] at wide
    exact absurd wide (by decide)

theorem isDigit_of_wide (wide : 128 ≤ c.toNat) : c.isDigit = false :=
  Bool.eq_false_iff.mpr fun digit => Bool.eq_false_iff.mp (continuesWord_of_wide wide)
    (Piece.continuesWord_of_isDigit digit)

theorem startsWord_of_wide (wide : 128 ≤ c.toNat) : Piece.startsWord c = false :=
  Bool.eq_false_iff.mpr fun starts => Bool.eq_false_iff.mp (continuesWord_of_wide wide)
    (Piece.continuesWord_of_startsWord starts)

theorem ne_of_wide {d : Char} (wide : 128 ≤ c.toNat) (ascii : d.toNat < 128) : c ≠ d := by
  rintro rfl
  omega

theorem isBlank_of_wide (wide : 128 ≤ c.toNat) : Piece.isBlank c = false := by
  simp [Piece.isBlank, ne_of_wide wide (d := ' ') (by decide),
    ne_of_wide wide (d := '\r') (by decide), ne_of_wide wide (d := '\t') (by decide)]

theorem loneMark?_of_wide (wide : 128 ≤ c.toNat) : Piece.loneMark? c = none := by
  unfold Piece.loneMark?
  split <;> first | rfl | exact absurd wide (by decide)

theorem extensibleMark?_of_wide (wide : 128 ≤ c.toNat) : Piece.extensibleMark? c = none := by
  unfold Piece.extensibleMark?
  split <;> first | rfl | exact absurd wide (by decide)

/-- A character above ASCII is at fault. -/
theorem cut_of_wide (wide : 128 ≤ c.toNat) (rest : List Char) :
    Piece.cut c rest = (⟨.fault (.unexpected c), [c]⟩, rest) := by
  simp only [Piece.cut, loneMark?_of_wide wide, extensibleMark?_of_wide wide,
    ne_of_wide wide (d := '\n') (by decide), ne_of_wide wide (d := '/') (by decide),
    ne_of_wide wide (d := '"') (by decide), isBlank_of_wide wide, isDigit_of_wide wide,
    startsWord_of_wide wide]
  rfl

/-- A byte above ASCII starts what is at fault. -/
theorem scanBehind_of_wide (wide : 128 ≤ c.toNat) :
    scanBehind source limit c = scanUnexpected source := by
  simp only [scanBehind, loneMark?_of_wide wide, extensibleMark?_of_wide wide,
    ne_of_wide wide (d := '\n') (by decide), ne_of_wide wide (d := '/') (by decide),
    ne_of_wide wide (d := '"') (by decide), isBlank_of_wide wide, isDigit_of_wide wide,
    startsWord_of_wide wide]
  rfl

/-! ## Tokens -/

/-- The kind of token that a piece leaves pending. -/
def kindOf? : Role → Option Kind
  | .token kind => some kind
  | _ => none

/-- What is answered for a piece that starts on a line. -/
def verdict (line : Nat) : Role → Except Diagnostic Unit
  | .fault fault => .error ⟨line, .lexical fault⟩
  | _ => .ok ()

/-- The line behind a piece that starts on a line. Lines are counted within strings only. -/
def lineBehind (line : Nat) (p : Piece) : Nat :=
  match p.role with
  | .token (.string _) => line + p.lineFeeds
  | .fault .unterminatedString => line + p.lineFeeds
  | _ => line

/-- A piece has been read that starts on a line. -/
structure Shows (source : String) (w : Window) (read : List Char) (line : Nat) (p : Piece)
    (rest : List Char) : Prop extends Holds source w read p.text rest where
  line : w.line = lineBehind line p
  pending : w.pending = kindOf? p.role

/-- A scanner answers for a piece and shows it, with the rest of the text behind it. -/
inductive Scans (source : String) (read : List Char) (line : Nat) :
    Result Stop Window (Except Diagnostic Unit) → Piece × List Char → Prop
  | intro {w : Window} {p : Piece} {rest : List Char} : Shows source w read line p rest →
      Scans source read line (.ok (verdict line p.role) w) (p, rest)

variable {line : Nat}

theorem Holds.scans_recognize (holds : Holds source w read lexeme rest) {kind : Kind}
    (same : w.line = lineBehind line ⟨.token kind, lexeme⟩) :
    Scans source read line ((recognize kind).run w) (Piece.tokenCut kind lexeme rest) := by
  have held : Holds source { w with pending := some kind } read lexeme rest :=
    ⟨holds.whole, holds.start, holds.current⟩
  exact Scans.intro (p := ⟨.token kind, lexeme⟩) ⟨held, same, rfl⟩

theorem Holds.scans_extensible (holds : Holds source w read [c] rest) (alone extended : Mark) :
    Scans source read w.line ((scanExtensible source alone extended).run w)
      (Piece.cutExtensible c alone extended rest) := by
  unfold Piece.cutExtensible
  split
  · next tail =>
      have grown : Holds source (w.moved 1) read [c, '='] tail := holds.push (by decide)
      have accepted := holds.accept_of_eq (by decide)
      rw [scanExtensible, run_bind_of_ok accepted]
      exact grown.scans_recognize rfl
  · next other =>
      have refused := holds.accept_of_ne (by decide) other
      rw [scanExtensible, run_bind_of_ok refused]
      exact holds.scans_recognize rfl

/-- The first line feed among bytes is where the run of other characters ends. -/
theorem findIdx_lineFeed (cs : List Char) :
    (octets cs).findIdx (fun b => Char.ofUInt8 b = '\n') =
      String.utf8Len (cs.takeWhile (· ≠ '\n')) := by
  have run := (Flat.ne_ascii (d := '\n') (by decide)).takeWhile_octets cs
  rw [List.takeWhile_eq_take_findIdx_not] at run
  rw [← length_octets, ← run, List.length_take, Nat.min_eq_left List.findIdx_le_length]
  simp

/-- A comment is read up to the line feed that ends its line, or up to the end of the text. -/
theorem Holds.run_scanComment (holds : Holds source w read lexeme rest) :
    (scanComment source).run w =
      .ok (.ok ()) (w.moved (String.utf8Len (rest.takeWhile (· ≠ '\n')))) := by
  have ahead : Holds source { w with start := w.current, current := size source }
      (read ++ lexeme) rest [] :=
    ⟨by rw [holds.whole, List.append_nil], by rw [String.utf8Len_append, holds.current],
      by rw [holds.size_eq, holds.current, String.utf8Len_append]⟩
  have cut : (byteSlice source w.current (size source)).run w = .ok (octets rest) w :=
    ahead.run_byteSlice w
  rw [← findIdx_lineFeed]
  simp only [scanComment, EStateM.run_bind, EStateM.run_get, cut]
  split
  · next length found =>
      rw [(List.findIdx?_eq_some_iff_findIdx_eq.mp found).2]
      rfl
  · next absent =>
      rw [List.findIdx?_eq_none_iff_findIdx_eq.mp absent, length_octets, Window.moved,
        ← holds.size_eq]
      rfl

theorem Holds.scans_slash (holds : Holds source w read ['/'] rest) (idle : w.pending = none) :
    Scans source read w.line ((scanSlash source).run w) (Piece.cutSlash rest) := by
  unfold Piece.cutSlash
  split
  · next tail =>
      have both : Holds source (w.moved 1) read ['/', '/'] tail := holds.push (by decide)
      have accepted := holds.accept_of_eq (by decide)
      rw [scanSlash, run_bind_of_ok accepted, if_pos rfl, both.run_scanComment]
      rw [← List.takeWhile_append_dropWhile (p := (· ≠ '\n')) (l := tail)] at both
      exact Scans.intro (p := ⟨.layout, _⟩) ⟨both.grow, rfl, idle⟩
  · next other =>
      have refused := holds.accept_of_ne (by decide) other
      rw [scanSlash, run_bind_of_ok refused]
      exact holds.scans_recognize rfl

/-! ### Strings -/

theorem Holds.past {mid : List Char} (holds : Holds source w read lexeme (mid ++ rest)) :
    Holds source (w.past (octets mid)) read (lexeme ++ mid) rest := by
  have grown := holds.grow
  rw [← length_octets] at grown
  exact ⟨grown.whole, grown.start, grown.current⟩

theorem line_past (cs : List Char) : (w.past (octets cs)).line = w.line + cs.count '\n' := by
  rw [Window.past, countP_octets (by decide)]

theorem Holds.scans_unterminated {body : List Char} (holds : Holds source w read ('"' :: body) [])
    (idle : w.pending = none) (lines : w.line = line + body.count '\n') :
    Scans source read line ((closeString source line).run w)
      (⟨.fault .unterminatedString, '"' :: body⟩, []) := by
  have ahead : left source w = [] := holds.left_eq
  rw [closeString, run_bind_of_ok run_isAtEnd, ahead]
  refine Scans.intro (p := ⟨.fault .unterminatedString, _⟩) ⟨holds, ?_, idle⟩
  rw [lines, lineBehind, Piece.lineFeeds, List.count_cons_of_ne (by decide)]

theorem Holds.scans_closed {body : List Char}
    (holds : Holds source w read ('"' :: body) ('"' :: rest))
    (lines : w.line = line + body.count '\n') :
    Scans source read line ((closeString source line).run w)
      (Piece.tokenCut (.string (String.ofList body)) ('"' :: (body ++ ['"'])) rest) := by
  have ahead : left source w = 34 :: octets rest := holds.left_eq
  have closed := holds.push (by decide)
  have inner : Holds source { w with start := w.start + 1 } (read ++ ['"']) body ('"' :: rest) := by
    refine ⟨?_, ?_, ?_⟩
    · simp [holds.whole]
    · simp [holds.start, utf8Size_eq_one]
    · simp [holds.current, utf8Size_eq_one, Nat.add_comm, Nat.add_left_comm, Nat.add_assoc]
  have payload : (slice source ((w.moved 1).start + 1) w.current).run (w.moved 1) =
      .ok (String.ofList body) (w.moved 1) := inner.run_slice _
  have back : (before (w.moved 1).current).run (w.moved 1) = .ok w.current (w.moved 1) := rfl
  rw [closeString, run_bind_of_ok run_isAtEnd, ahead, List.isEmpty_cons,
    if_neg Bool.false_ne_true, run_bind_of_ok (run_advance ahead)]
  simp only [EStateM.run_bind, EStateM.run_get, back, payload]
  refine closed.scans_recognize ?_
  rw [Window.moved, lines, lineBehind, Piece.lineFeeds, List.cons_append,
    List.count_cons_of_ne (by decide), List.count_append]
  rfl

theorem Holds.scans_string (holds : Holds source w read ['"'] rest) (idle : w.pending = none)
    (above : size source < limit) :
    Scans source read w.line ((scanString source limit).run w) (Piece.cutString rest) := by
  have whole := List.takeWhile_append_dropWhile (p := (· ≠ '"')) (l := rest)
  have stopped := List.head?_dropWhile_not (· ≠ '"') rest
  have skipped : (skipBody source limit).run w =
      .ok () (w.past (octets (rest.takeWhile (· ≠ '"')))) := by
    rw [run_skipBody (holds.enough above), holds.left_eq,
      (Flat.ne_ascii (d := '"') (by decide)).takeWhile_octets]
  simp only [scanString, EStateM.run_bind, EStateM.run_get, skipped, Piece.cutString]
  revert whole stopped
  generalize rest.takeWhile (· ≠ '"') = body
  cases rest.dropWhile (· ≠ '"') with
  | nil =>
      rintro rfl -
      exact holds.past.scans_unterminated idle (line_past body)
  | cons quote after =>
      rintro rfl stopped
      obtain rfl : quote = '"' := by simpa using stopped
      exact holds.past.scans_closed (line_past body)

/-! ### Numbers -/

theorem flat_isDigit : Flat Char.isDigit := ⟨false, fun _ wide => isDigit_of_wide wide⟩

/-- The point and the digits at the front of a text, if there are digits behind the point. -/
def fractionOf : List Char → List Char
  | '.' :: rest => if rest.head?.any Char.isDigit then '.' :: rest.takeWhile Char.isDigit else []
  | _ => []

theorem Holds.run_skipFraction (holds : Holds source w read lexeme rest)
    (above : size source < limit) :
    (skipFraction source limit).run w = .ok () (w.moved (String.utf8Len (fractionOf rest))) := by
  have point := (Flat.eq_ascii (d := '.') (by decide)).apply_headD_octets rfl rest
  unfold fractionOf
  split
  · next tail =>
      have ahead : left source w = 46 :: octets tail := holds.left_eq
      have digit := flat_isDigit.apply_headD_octets rfl tail
      rw [skipFraction, run_bind_of_ok run_peek, holds.left_eq, if_pos (of_decide_eq_true point),
        run_bind_of_ok run_peekNext, ahead, List.tail_cons, digit]
      split
      · have pushed := holds.push (by decide)
        rw [run_bind_of_ok (run_advance ahead), pushed.run_skipWhile flat_isDigit rfl above,
          Window.moved_moved, String.utf8Len_cons, Nat.add_comm]
        rfl
      · rfl
  · next other =>
      have none : ¬ Char.ofUInt8 ((octets rest).headD 0) = '.' := by
        intro same
        rw [same] at point
        cases rest with
        | nil => cases point
        | cons d tail => exact other tail (by rw [of_decide_eq_true point.symm])
      rw [skipFraction, run_bind_of_ok run_peek, holds.left_eq, if_neg none]
      rfl

theorem valueOf_whole {whole : List Char} (digits : ∀ d ∈ whole, d.isDigit = true) :
    valueOf whole = .ofDigits whole [] := by
  rw [valueOf, List.takeWhile_eq_self_iff.mpr digits, List.dropWhile_eq_nil_iff.mpr digits,
    List.tail_nil]

theorem valueOf_fraction {whole fraction : List Char} (digits : ∀ d ∈ whole, d.isDigit = true) :
    valueOf (whole ++ '.' :: fraction) = .ofDigits whole fraction := by
  have stops : ¬ Char.isDigit '.' = true := by decide
  rw [valueOf, List.takeWhile_append_of_pos digits, List.dropWhile_append_of_pos digits,
    List.takeWhile_cons_of_neg stops, List.dropWhile_cons_of_neg stops, List.append_nil,
    List.tail_cons]

/-- A number is a run of digits and the fraction behind it. -/
theorem cutNumber_eq (digit : c.isDigit = true) (rest : List Char) :
    ∃ after, rest.dropWhile Char.isDigit = fractionOf (rest.dropWhile Char.isDigit) ++ after ∧
      let literal := c :: rest.takeWhile Char.isDigit ++ fractionOf (rest.dropWhile Char.isDigit)
      Piece.cutNumber c rest = Piece.tokenCut (.number (valueOf literal)) literal after := by
  have digits : ∀ d ∈ c :: rest.takeWhile Char.isDigit, d.isDigit = true :=
    (Digits.cons digit).isDigit
  unfold Piece.cutNumber
  dsimp only
  split
  · next d after tail =>
      rw [tail]
      split
      · next digit' =>
          have fraction : fractionOf ('.' :: d :: after) =
              '.' :: d :: after.takeWhile Char.isDigit := by
            rw [fractionOf, List.head?_cons, Option.any_some, if_pos digit',
              List.takeWhile_cons_of_pos digit']
          refine ⟨after.dropWhile Char.isDigit, ?_, ?_⟩
          · simp [fraction, List.takeWhile_append_dropWhile]
          · rw [fraction, valueOf_fraction digits]
      · next other =>
          have fraction : fractionOf ('.' :: d :: after) = [] := by
            rw [fractionOf, List.head?_cons, Option.any_some, if_neg other]
          exact ⟨_, by rw [fraction, List.nil_append],
            by rw [fraction, List.append_nil, valueOf_whole digits]⟩
  · next other =>
      have fraction : fractionOf (rest.dropWhile Char.isDigit) = [] := by
        unfold fractionOf
        split
        · next tail found =>
            cases tail with
            | nil => rfl
            | cons d after => exact absurd found (other d after)
        · rfl
      exact ⟨_, by rw [fraction, List.nil_append],
        by rw [fraction, List.append_nil, valueOf_whole digits]⟩

theorem Holds.scans_number (holds : Holds source w read [c] rest) (digit : c.isDigit = true)
    (above : size source < limit) :
    Scans source read w.line ((scanNumber source limit).run w) (Piece.cutNumber c rest) := by
  obtain ⟨after, tail, cut⟩ := cutNumber_eq digit rest
  have skipped := holds.run_skipWhile flat_isDigit rfl above
  rw [← List.takeWhile_append_dropWhile (p := Char.isDigit) (l := rest)] at holds
  have whole := holds.grow
  have skipped' := whole.run_skipFraction above
  rw [tail] at whole
  have literal := whole.grow
  have text := literal.run_slice ((w.moved (String.utf8Len (rest.takeWhile Char.isDigit))).moved
    (String.utf8Len (fractionOf (rest.dropWhile Char.isDigit))))
  rw [cut]
  simp only [scanNumber, EStateM.run_bind, EStateM.run_get, skipped, skipped', text,
    String.toList_ofList]
  exact literal.scans_recognize rfl

/-! ### Words -/

theorem flat_continuesWord : Flat Piece.continuesWord :=
  ⟨false, fun _ wide => continuesWord_of_wide wide⟩

theorem wordKind_octets (word : List Char) : wordKind (octets word) = Piece.wordKind word := by
  have same (keyword : Keyword) :
      decide (bytesOf keyword.text = octets word) = decide (keyword.text = String.ofList word) := by
    rw [decide_eq_decide, ← bytesOf_inj, bytesOf_eq (String.ofList word), String.toList_ofList]
  have found : Keyword.all.find? (fun keyword => bytesOf keyword.text = octets word) =
      Keyword.ofText? (String.ofList word) :=
    congrArg (Keyword.all.find? ·) (funext same)
  cases named : Keyword.ofText? (String.ofList word) with
  | some keyword => rw [wordKind, Piece.wordKind, found, named]
  | none => rw [wordKind, Piece.wordKind, found, named]

theorem Holds.scans_word (holds : Holds source w read [c] rest) (above : size source < limit) :
    Scans source read w.line ((scanWord source limit).run w) (Piece.cutWord c rest) := by
  have skipped := holds.run_skipWhile flat_continuesWord rfl above
  rw [← List.takeWhile_append_dropWhile (p := Piece.continuesWord) (l := rest)] at holds
  have word := holds.grow
  have bytes := word.run_byteSlice (w.moved (String.utf8Len (rest.takeWhile Piece.continuesWord)))
  simp only [scanWord, EStateM.run_bind, EStateM.run_get, skipped, bytes, wordKind_octets]
  refine word.scans_recognize ?_
  unfold Piece.wordKind lineBehind
  cases Keyword.ofText? (String.ofList ([c] ++ rest.takeWhile Piece.continuesWord)) <;> rfl

/-! ### Faults -/

theorem scans_unexpected (whole : source.toList = read ++ c :: rest)
    (start : w.start = String.utf8Len read) (idle : w.pending = none) :
    Scans source read w.line ((scanUnexpected source).run w)
      (⟨.fault (.unexpected c), [c]⟩, rest) := by
  have ahead : Holds source { w with current := size source } read (c :: rest) [] :=
    ⟨by rw [whole, List.append_nil], start,
      by rw [size, bytesOf_eq, length_octets, whole, String.utf8Len_append]⟩
  have text : (slice source w.start (size source)).run w = .ok (String.ofList (c :: rest)) w :=
    ahead.run_slice w
  have behind : Holds source { w with current := w.start + c.utf8Size } read [c] rest :=
    ⟨by rw [whole, List.append_assoc, List.singleton_append], start, by simp [start]⟩
  simp only [scanUnexpected, EStateM.run_bind, EStateM.run_get, text, String.toList_ofList]
  exact Scans.intro (p := ⟨.fault (.unexpected c), [c]⟩) ⟨behind, rfl, idle⟩

/-! ### All pieces -/

/-- Behind the first byte of a piece of ASCII, the rest of the piece is read. -/
theorem Holds.scans_behind (holds : Holds source w read [c] rest) (idle : w.pending = none)
    (above : size source < limit) :
    Scans source read w.line ((scanBehind source limit c).run w) (Piece.cut c rest) := by
  unfold scanBehind Piece.cut
  cases Piece.loneMark? c with
  | some mark => exact holds.scans_recognize rfl
  | none =>
      dsimp only
      cases Piece.extensibleMark? c with
      | some marks => exact holds.scans_extensible marks.1 marks.2
      | none =>
          dsimp only
          split
          · exact holds.scans_recognize rfl
          · split
            · next slash =>
                subst slash
                exact holds.scans_slash idle
            · split
              · next quote =>
                  subst quote
                  exact holds.scans_string idle above
              · split
                · exact Scans.intro (p := ⟨.layout, [c]⟩) ⟨holds, rfl, idle⟩
                · split
                  · next digit => exact holds.scans_number digit above
                  · split
                    · exact holds.scans_word above
                    · have whole := holds.whole
                      rw [List.append_assoc, List.singleton_append] at whole
                      exact scans_unexpected whole holds.start idle

/-- What a scanner reads next is what is cut off the rest of the text. -/
theorem Holds.scans_token (holds : Holds source w read [] (c :: rest)) (idle : w.pending = none)
    (above : size source < limit) :
    Scans source read w.line ((scanToken source limit).run w) (Piece.cut c rest) := by
  rcases Nat.lt_or_ge c.toNat 128 with ascii | wide
  · obtain ⟨b, encoded, stands⟩ := exists_byte ascii
    have ahead : left source w = b :: octets rest := by
      rw [holds.left_eq, octets_cons, encoded, List.singleton_append]
    rw [scanToken, run_bind_of_ok (run_advance ahead), stands]
    exact (holds.push ascii).scans_behind idle above
  · cases encoded : String.utf8EncodeChar c with
    | nil => exact absurd encoded String.utf8EncodeChar_ne_nil
    | cons b bs =>
        have ahead : left source w = b :: (bs ++ octets rest) := by
          rw [holds.left_eq, octets_cons, encoded, List.cons_append]
        have whole := holds.whole
        rw [List.append_nil] at whole
        rw [scanToken, run_bind_of_ok (run_advance ahead),
          scanBehind_of_wide (le_of_mem_utf8EncodeChar wide b (by simp [encoded])),
          cut_of_wide wide]
        exact scans_unexpected (w := w.moved 1) whole holds.start idle

theorem Scans.exists_shows {result : Result Stop Window (Except Diagnostic Unit)}
    {cut : Piece × List Char} (scans : Scans source read line result cut) :
    ∃ w, result = .ok (verdict line cut.1.role) w ∧ Shows source w read line cut.1 cut.2 := by
  cases scans with
  | intro shows => exact ⟨_, rfl, shows⟩

end Rill.Scanner
