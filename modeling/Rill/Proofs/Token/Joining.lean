import Rill.Proofs.Token.Ending

/-!
# Scanning joined texts

A line break between two texts separates their tokens: if no string is left open in the first one,
the scan of the whole is that of the first, the line break, and that of the second further down.
Comments, numbers and words end before the line break in any case.
-/

namespace Rill

section Lists

variable {α : Type} {p : α → Bool} {stop : α} (stops : p stop = false)

include stops

theorem takeWhile_append_stop (first tail : List α) :
    (first ++ stop :: tail).takeWhile p = first.takeWhile p := by
  induction first with
  | nil => rw [List.nil_append, List.takeWhile_cons_of_neg (by simp [stops]), List.takeWhile_nil]
  | cons a rest ih =>
      rw [List.cons_append]
      by_cases holds : p a = true
      · rw [List.takeWhile_cons_of_pos holds, List.takeWhile_cons_of_pos holds, ih]
      · rw [List.takeWhile_cons_of_neg holds, List.takeWhile_cons_of_neg holds]

theorem dropWhile_append_stop (first tail : List α) :
    (first ++ stop :: tail).dropWhile p = first.dropWhile p ++ stop :: tail := by
  induction first with
  | nil => rw [List.nil_append, List.dropWhile_cons_of_neg (by simp [stops]), List.dropWhile_nil,
      List.nil_append]
  | cons a rest ih =>
      rw [List.cons_append]
      by_cases holds : p a = true
      · rw [List.dropWhile_cons_of_pos holds, List.dropWhile_cons_of_pos holds, ih]
      · rw [List.dropWhile_cons_of_neg holds, List.dropWhile_cons_of_neg holds, List.cons_append]

omit stops in
theorem takeWhile_append_of_dropWhile {first rest : List α}
    (found : first.dropWhile p = stop :: rest)
    (tail : List α) : (first ++ tail).takeWhile p = first.takeWhile p := by
  induction first with
  | nil => cases found
  | cons a others ih =>
      rw [List.cons_append]
      by_cases holds : p a = true
      · rw [List.dropWhile_cons_of_pos holds] at found
        rw [List.takeWhile_cons_of_pos holds, List.takeWhile_cons_of_pos holds, ih found]
      · rw [List.takeWhile_cons_of_neg holds, List.takeWhile_cons_of_neg holds]

omit stops in
theorem dropWhile_append_of_dropWhile {first rest : List α}
    (found : first.dropWhile p = stop :: rest)
    (tail : List α) : (first ++ tail).dropWhile p = stop :: (rest ++ tail) := by
  induction first with
  | nil => cases found
  | cons a others ih =>
      rw [List.cons_append]
      by_cases holds : p a = true
      · rw [List.dropWhile_cons_of_pos holds] at found
        rw [List.dropWhile_cons_of_pos holds, ih found]
      · rw [List.dropWhile_cons_of_neg holds] at found
        cases found
        rw [List.dropWhile_cons_of_neg holds]

end Lists

namespace Piece

/-! ## What the next character decides -/

section

variable {c d : Char} {rest after : List Char}

theorem cutExtensible_cons_of_ne (alone extended : Mark) (other : d ≠ '=') :
    cutExtensible c alone extended (d :: rest) = tokenCut (.mark alone) [c] (d :: rest) := by
  unfold cutExtensible
  split
  · next same => exact absurd (List.cons.inj same).1 other
  · rfl

theorem cutSlash_slash (rest : List Char) :
    cutSlash ('/' :: rest) =
      (⟨.layout, '/' :: '/' :: rest.takeWhile (· ≠ '\n')⟩, rest.dropWhile (· ≠ '\n')) :=
  rfl

theorem cutSlash_cons_of_ne (other : d ≠ '/') :
    cutSlash (d :: rest) = tokenCut (.mark .slash) ['/'] (d :: rest) := by
  unfold cutSlash
  split
  · next same => exact absurd (List.cons.inj same).1 other
  · rfl

theorem cutNumber_of_ne (found : rest.dropWhile Char.isDigit = d :: after) (other : d ≠ '.') :
    cutNumber c rest =
      tokenCut (.number (Number.ofDigits (c :: rest.takeWhile Char.isDigit) []))
        (c :: rest.takeWhile Char.isDigit) (d :: after) := by
  unfold cutNumber
  rw [found]
  dsimp only
  split
  · next same => exact absurd (List.cons.inj same).1 other
  · rfl

end

/-! ## Pieces end before a line break -/

variable (c : Char) (rest tail : List Char)

theorem cutExtensible_append (alone extended : Mark) :
    cutExtensible c alone extended (rest ++ '\n' :: tail) =
      ((cutExtensible c alone extended rest).1,
        (cutExtensible c alone extended rest).2 ++ '\n' :: tail) := by
  cases rest with
  | nil => simp [cutExtensible, tokenCut]
  | cons d after =>
      rw [List.cons_append]
      by_cases equal : d = '='
      · subst equal
        rfl
      · rw [cutExtensible_cons_of_ne _ _ equal, cutExtensible_cons_of_ne _ _ equal]
        rfl

theorem cutSlash_append :
    cutSlash (rest ++ '\n' :: tail) = ((cutSlash rest).1, (cutSlash rest).2 ++ '\n' :: tail) := by
  cases rest with
  | nil => simp [cutSlash, tokenCut]
  | cons d after =>
      rw [List.cons_append]
      by_cases slash : d = '/'
      · subst slash
        rw [cutSlash_slash, cutSlash_slash, takeWhile_append_stop (by simp),
          dropWhile_append_stop (by simp)]
      · rw [cutSlash_cons_of_ne slash, cutSlash_cons_of_ne slash]
        rfl

theorem cutWord_append :
    cutWord c (rest ++ '\n' :: tail) =
      ((cutWord c rest).1, (cutWord c rest).2 ++ '\n' :: tail) := by
  have stops : continuesWord '\n' = false := by decide
  rw [cutWord, takeWhile_append_stop stops, dropWhile_append_stop stops]
  rfl

theorem cutNumber_append :
    cutNumber c (rest ++ '\n' :: tail) =
      ((cutNumber c rest).1, (cutNumber c rest).2 ++ '\n' :: tail) := by
  have stops : Char.isDigit '\n' = false := by decide
  have behind := dropWhile_append_stop stops rest tail
  cases found : rest.dropWhile Char.isDigit with
  | nil =>
      simp [cutNumber, tokenCut, takeWhile_append_stop stops, behind, found]
  | cons d others =>
      rw [found, List.cons_append] at behind
      by_cases point : d = '.'
      · subst point
        cases others with
        | nil => simp [cutNumber, tokenCut, takeWhile_append_stop stops, behind, found, stops]
        | cons e more =>
            by_cases digit : e.isDigit = true
            · simp [cutNumber, tokenCut, takeWhile_append_stop stops, dropWhile_append_stop stops,
                found, digit]
            · simp [cutNumber, tokenCut, takeWhile_append_stop stops, behind, found, digit]
      · rw [cutNumber_of_ne found point, cutNumber_of_ne behind point, takeWhile_append_stop stops]
        rfl

/-- A string that is closed ends at its closing quote, whatever follows. -/
theorem cutString_append (closed : (cutString rest).1.role ≠ .fault .unterminatedString) :
    cutString (rest ++ tail) = ((cutString rest).1, (cutString rest).2 ++ tail) := by
  unfold cutString at *
  dsimp only at *
  cases found : rest.dropWhile (fun d => decide (d ≠ '"')) with
  | nil =>
      rw [found] at closed
      exact absurd rfl closed
  | cons quote after =>
      rw [takeWhile_append_of_dropWhile found, dropWhile_append_of_dropWhile found]
      rfl

/-- What is cut off a text is the same with a line break behind the text, but for open strings. -/
theorem cut_append (closed : (cut c rest).1.role ≠ .fault .unterminatedString) :
    cut c (rest ++ '\n' :: tail) = ((cut c rest).1, (cut c rest).2 ++ '\n' :: tail) := by
  unfold cut at *
  split
  · rfl
  · split
    · exact cutExtensible_append ..
    · split
      · rfl
      · split
        · exact cutSlash_append ..
        · split
          · simp_all [cutString_append]
          · split
            · rfl
            · split
              · exact cutNumber_append ..
              · split
                · exact cutWord_append ..
                · rfl

end Piece

/-- The pieces of a text without open strings are the same with a line break behind it. -/
theorem pieces_append {text : List Char} (tail : List Char)
    (closed : ∀ p ∈ pieces text, p.role ≠ .fault .unterminatedString) :
    pieces (text ++ '\n' :: tail) =
      pieces text ++ ⟨.token .newline, ['\n']⟩ :: pieces tail := by
  fun_induction pieces text with
  | case1 =>
      rw [List.nil_append, pieces]
      rfl
  | case2 c rest ih =>
      have here := closed _ (List.mem_cons_self ..)
      rw [List.cons_append, pieces, Piece.cut_append c rest tail here]
      rw [ih fun p listed => closed p (List.mem_cons_of_mem _ listed)]
      rfl

/-! ## Lines -/

/-- The line feeds of pieces are those of the text they make up. -/
theorem lineFeedsOf_eq_count (ps : List Piece) :
    lineFeedsOf ps = (ps.flatMap Piece.text).count '\n' := by
  induction ps with
  | nil => rfl
  | cons p rest ih =>
      rw [lineFeedsOf, ih, List.flatMap_cons, List.count_append]
      rfl

theorem lineFeedsOf_pieces (text : List Char) : lineFeedsOf (pieces text) = text.count '\n' := by
  rw [lineFeedsOf_eq_count, flatMap_text_pieces]

theorem lineFeedsOf_append (ps qs : List Piece) :
    lineFeedsOf (ps ++ qs) = lineFeedsOf ps + lineFeedsOf qs := by
  rw [lineFeedsOf_eq_count, lineFeedsOf_eq_count, lineFeedsOf_eq_count, List.flatMap_append,
    List.count_append]

theorem itemsWithin_append (line : Nat) (ps qs : List Piece) :
    itemsWithin line (ps ++ qs) =
      itemsWithin line ps ++ itemsWithin (line + lineFeedsOf ps) qs := by
  induction ps generalizing line with
  | nil => rfl
  | cons p rest ih =>
      rw [List.cons_append, itemsWithin, itemsWithin, ih, lineFeedsOf, List.append_assoc,
        Nat.add_assoc]

/-- Pieces are scanned without faults if and only if none of them is one. -/
theorem scannedFaults_itemsWithin_eq_nil {line : Nat} {ps : List Piece} :
    scannedFaults (itemsWithin line ps) = [] ↔ ∀ p ∈ ps, ∀ fault, p.role ≠ .fault fault := by
  induction ps generalizing line with
  | nil => simp [itemsWithin, scannedFaults]
  | cons p rest ih =>
      have here : scannedFaults (p.item? line).toList = [] ↔ ∀ fault, p.role ≠ .fault fault := by
        obtain ⟨role, text⟩ := p
        unfold Piece.item?
        dsimp only
        split <;> simp_all [scannedFaults]
      rw [itemsWithin, scannedFaults_append, List.append_eq_nil_iff, here, ih,
        List.forall_mem_cons]

/-- A token some lines further down. -/
def Token.lower (lines : Nat) (t : Token) : Token := { t with line := t.line + lines }

/-- Pieces that start further down are scanned as the same tokens further down. -/
theorem scannedTokens_itemsWithin_add (line lines : Nat) (ps : List Piece) :
    scannedTokens (itemsWithin (line + lines) ps) =
      (scannedTokens (itemsWithin line ps)).map (Token.lower lines) := by
  induction ps generalizing line with
  | nil => rfl
  | cons p rest ih =>
      have here : scannedTokens (p.item? (line + lines)).toList =
          (scannedTokens (p.item? line).toList).map (Token.lower lines) := by
        obtain ⟨role, text⟩ := p
        unfold Piece.item?
        dsimp only
        split
        · rfl
        · simp [scannedTokens, Token.lower, Except.toOption, Nat.add_right_comm]
        · rfl
        · rfl
      rw [itemsWithin, itemsWithin, scannedTokens_append, scannedTokens_append, List.map_append,
        here, Nat.add_right_comm, ih]

/-! ## Whole texts -/

/-- How far down a text stands behind another one and a line break. -/
def linesThrough (text : String) : Nat := 1 + text.toList.count '\n'

/-- A scan ends on the last line of its text. -/
theorem exists_body_of_tokens_eq_ok {source : String} {ts : List Token}
    (scanned : tokens source = .ok ts) :
    ∃ body, ts = body ++ [inputEnd (linesThrough source)] ∧ ∀ t ∈ body, t.Lawful := by
  obtain ⟨_, rfl⟩ := tokens_eq_ok.mp scanned
  rw [lineFeedsOf_pieces]
  exact ⟨_, rfl, fun t present => Token.lawful_of_mem_itemsWithin lawful_of_mem_pieces present⟩

/-- The scan of two texts with a line break between them. -/
theorem tokens_join {first second : String} {body body' : List Token} {line line' : Nat}
    (scanned : tokens first = .ok (body ++ [inputEnd line]))
    (scanned' : tokens second = .ok (body' ++ [inputEnd line'])) :
    tokens (first ++ "\n" ++ second) =
      .ok (body ++ (⟨.newline, "\n", line⟩ :: body'.map (Token.lower line) ++
        [inputEnd (line' + line)])) := by
  obtain ⟨faultless, found⟩ := tokens_eq_ok.mp scanned
  obtain ⟨faultless', found'⟩ := tokens_eq_ok.mp scanned'
  obtain ⟨rfl, ended⟩ := List.append_inj' found rfl
  obtain ⟨rfl, ended'⟩ := List.append_inj' found' rfl
  have lines : line = 1 + lineFeedsOf (pieces first.toList) :=
    congrArg Token.line (List.singleton_inj.mp ended)
  have lines' : line' = 1 + lineFeedsOf (pieces second.toList) :=
    congrArg Token.line (List.singleton_inj.mp ended')
  rw [scannedFaults_itemsWithin_eq_nil] at faultless faultless'
  have cuts : pieces (first ++ "\n" ++ second).toList =
      pieces first.toList ++ ⟨.token .newline, ['\n']⟩ :: pieces second.toList := by
    rw [← pieces_append second.toList fun p listed => faultless p listed _]
    simp
  rw [tokens_eq_ok, cuts, scannedFaults_itemsWithin_eq_nil]
  constructor
  · intro p listed fault
    rcases List.mem_append.mp listed with inFirst | inRest
    · exact faultless p inFirst fault
    · rcases List.mem_cons.mp inRest with rfl | inSecond
      · simp
      · exact faultless' p inSecond fault
  · rw [itemsWithin_append, itemsWithin, scannedTokens_append, scannedTokens_append, ← lines]
    have broken : line + Piece.lineFeeds ⟨.token .newline, ['\n']⟩ = 1 + line := Nat.add_comm _ _
    rw [broken, scannedTokens_itemsWithin_add]
    have count : 1 + lineFeedsOf (pieces first.toList ++
        ⟨.token .newline, ['\n']⟩ :: pieces second.toList) = line' + line := by
      rw [lineFeedsOf_append, lineFeedsOf, lines, lines']
      have one : Piece.lineFeeds ⟨.token .newline, ['\n']⟩ = 1 := rfl
      omega
    rw [count, List.append_assoc]
    rfl

end Rill
