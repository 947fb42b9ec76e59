import Rill.Token.Scan

/-!
# The end of a scan

A scan is what the pieces of the text contribute, and one token for the end of the input behind it.
No piece is read as the end of the input, so it stands at the end alone.
-/

namespace Rill

namespace Piece

/-- A piece is not the end of the input, and no reserved word if it is an identifier. -/
structure Lawful (p : Piece) : Prop where
  not_endOfInput : p.role ≠ .token .endOfInput
  not_reserved : p.role = .token .identifier → Keyword.ofText? (String.ofList p.text) = none

variable {c : Char} {rest : List Char}

/-- A piece is lawful if it is a token of no kind that the law is about. -/
theorem lawful_of_ne {p : Piece} (notEnd : p.role ≠ .token .endOfInput)
    (notIdentifier : p.role ≠ .token .identifier) : p.Lawful :=
  ⟨notEnd, fun identifier => absurd identifier notIdentifier⟩

theorem cutExtensible_lawful {alone extended : Mark} :
    (cutExtensible c alone extended rest).1.Lawful := by
  unfold cutExtensible
  split <;> exact lawful_of_ne (by simp [tokenCut]) (by simp [tokenCut])

theorem cutSlash_lawful : (cutSlash rest).1.Lawful := by
  unfold cutSlash
  split <;> exact lawful_of_ne (by simp [tokenCut]) (by simp [tokenCut])

theorem cutString_lawful : (cutString rest).1.Lawful := by
  unfold cutString
  dsimp only
  split <;> exact lawful_of_ne (by simp [tokenCut]) (by simp [tokenCut])

theorem cutNumber_lawful : (cutNumber c rest).1.Lawful := by
  unfold cutNumber
  dsimp only
  split
  · split <;> exact lawful_of_ne (by simp [tokenCut]) (by simp [tokenCut])
  · exact lawful_of_ne (by simp [tokenCut]) (by simp [tokenCut])

theorem cutWord_lawful : (cutWord c rest).1.Lawful := by
  unfold cutWord wordKind
  dsimp only
  split
  · exact lawful_of_ne (by simp [tokenCut]) (by simp [tokenCut])
  · next free => exact ⟨by simp [tokenCut], fun _ => free⟩

/-- What is cut off a text is never the end of the input, nor a reserved word as an identifier. -/
theorem cut_lawful : (cut c rest).1.Lawful := by
  unfold cut
  split
  · exact lawful_of_ne (by simp [tokenCut]) (by simp [tokenCut])
  · split
    · exact cutExtensible_lawful
    · split
      · exact lawful_of_ne (by simp [tokenCut]) (by simp [tokenCut])
      · split
        · exact cutSlash_lawful
        · split
          · exact cutString_lawful
          · split
            · exact lawful_of_ne (by simp) (by simp)
            · split
              · exact cutNumber_lawful
              · split
                · exact cutWord_lawful
                · exact lawful_of_ne (by simp) (by simp)

end Piece

theorem lawful_of_mem_pieces {text : List Char} : ∀ p ∈ pieces text, p.Lawful := by
  fun_induction pieces text with
  | case1 => simp
  | case2 c rest ih =>
      intro p present
      rw [List.mem_cons] at present
      rcases present with rfl | present
      · exact Piece.cut_lawful
      · exact ih p present

/-- How many lines pieces end. -/
def lineFeedsOf : List Piece → Nat
  | [] => 0
  | p :: rest => p.lineFeeds + lineFeedsOf rest

/-- The tokens and faults of pieces from a line on, without the end of the input. -/
def itemsWithin (line : Nat) : List Piece → List (Except Diagnostic Token)
  | [] => []
  | p :: rest => (p.item? line).toList ++ itemsWithin (line + p.lineFeeds) rest

/-- The token for the end of the input on a line. -/
def inputEnd (line : Nat) : Token := ⟨.endOfInput, "", line⟩

theorem itemsFrom_eq (line : Nat) (ps : List Piece) :
    itemsFrom line ps = itemsWithin line ps ++ [.ok (inputEnd (line + lineFeedsOf ps))] := by
  induction ps generalizing line with
  | nil => rfl
  | cons p rest ih =>
      rw [itemsFrom, itemsWithin, ih, List.append_assoc, lineFeedsOf, Nat.add_assoc]

theorem scannedTokens_append (first second : List (Except Diagnostic Token)) :
    scannedTokens (first ++ second) = scannedTokens first ++ scannedTokens second :=
  List.filterMap_append

theorem scannedFaults_append (first second : List (Except Diagnostic Token)) :
    scannedFaults (first ++ second) = scannedFaults first ++ scannedFaults second :=
  List.filterMap_append

/-- The tokens of a text without faults are all those of its scan. -/
theorem eq_scannedTokens_of_tokens_eq_ok {source : String} {ts : List Token}
    (scanned : tokens source = .ok ts) : ts = scannedTokens (scan source) := by
  unfold tokens at scanned
  dsimp only at scanned
  split at scanned
  · exact (Except.ok.inj scanned).symm
  · cases scanned

/-- A text is scanned without faults if and only if no piece is at fault. -/
theorem tokens_eq_ok {source : String} {ts : List Token} :
    tokens source = .ok ts ↔
      scannedFaults (itemsWithin 1 (pieces source.toList)) = [] ∧
        ts = scannedTokens (itemsWithin 1 (pieces source.toList)) ++
          [inputEnd (1 + lineFeedsOf (pieces source.toList))] := by
  have faults : scannedFaults (scan source) =
      scannedFaults (itemsWithin 1 (pieces source.toList)) := by
    rw [scan, itemsFrom_eq, scannedFaults_append]
    exact List.append_nil _
  have found : scannedTokens (scan source) =
      scannedTokens (itemsWithin 1 (pieces source.toList)) ++
        [inputEnd (1 + lineFeedsOf (pieces source.toList))] := by
    rw [scan, itemsFrom_eq, scannedTokens_append]
    rfl
  rw [tokens, faults, found]
  cases scannedFaults (itemsWithin 1 (pieces source.toList)) with
  | nil =>
      rw [Except.ok.injEq, eq_comm]
      simp
  | cons fault rest => simp

/-- A token is not the end of the input, and no reserved word if it is an identifier. -/
structure Token.Lawful (t : Token) : Prop where
  not_endOfInput : t.kind ≠ .endOfInput
  not_reserved : t.kind = .identifier → Keyword.ofText? t.lexeme = none

theorem Token.lawful_of_mem_itemsWithin {line : Nat} {ps : List Piece} {t : Token}
    (lawful : ∀ p ∈ ps, p.Lawful) (present : t ∈ scannedTokens (itemsWithin line ps)) :
    t.Lawful := by
  induction ps generalizing line with
  | nil => cases present
  | cons p rest ih =>
      rw [itemsWithin, scannedTokens_append, List.mem_append] at present
      rcases present with here | behind
      · obtain ⟨notEnd, notReserved⟩ := lawful p (List.mem_cons_self ..)
        obtain ⟨role, text⟩ := p
        unfold Piece.item? at here
        dsimp only at here notEnd notReserved
        split at here
        · cases List.mem_singleton.mp here
          exact ⟨by simp, by simp⟩
        · cases List.mem_singleton.mp here
          constructor
          · intro same
            exact notEnd (congrArg Role.token same)
          · intro same
            exact notReserved (congrArg Role.token same)
        · cases here
        · cases here
      · exact ih (fun q listed => lawful q (List.mem_cons_of_mem p listed)) behind

/-- A scan is lawful tokens, and the end of the input behind them. -/
theorem exists_of_tokens_eq_ok {source : String} {ts : List Token}
    (scanned : tokens source = .ok ts) :
    ∃ body ending, ts = body ++ [ending] ∧ ending.kind = .endOfInput ∧ ∀ t ∈ body, t.Lawful := by
  obtain ⟨_, rfl⟩ := tokens_eq_ok.mp scanned
  refine ⟨_, _, rfl, rfl, ?_⟩
  intro t present
  exact Token.lawful_of_mem_itemsWithin lawful_of_mem_pieces present

end Rill
