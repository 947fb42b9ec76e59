import Rill.Proofs.Token.Joining
import Rill.Proofs.Token.Segments

/-!
# Line numbers

A scan never looks back at the text: it counts the lines while it goes on. The line of every item is
nevertheless that of its place in the text: one more than the line feeds in front of the last
character of a token, in front of the first character of what is at fault, and in the whole text for
the end of the input.
-/

namespace Rill

/-! ## Excerpts -/

/-- A piece of a text, with the text in front of it. -/
structure Excerpt where
  before : List Char
  piece : Piece

/-- The excerpts of pieces, in order, the first of which stands behind a text. -/
def excerptsFrom (before : List Char) : List Piece → List Excerpt
  | [] => []
  | p :: rest => ⟨before, p⟩ :: excerptsFrom (before ++ p.text) rest

/-- The excerpts of a source text, one for each of its pieces. -/
def excerpts (source : String) : List Excerpt := excerptsFrom [] (pieces source.toList)

/-- An excerpt is one of the text that the pieces make up. -/
theorem exists_after_of_mem_excerptsFrom {before : List Char} {ps : List Piece} {excerpt : Excerpt}
    (present : excerpt ∈ excerptsFrom before ps) :
    ∃ after, before ++ ps.flatMap Piece.text = excerpt.before ++ excerpt.piece.text ++ after := by
  induction ps generalizing before with
  | nil => cases present
  | cons p rest ih =>
      rw [List.flatMap_cons]
      rcases List.mem_cons.mp present with rfl | later
      · exact ⟨rest.flatMap Piece.text, (List.append_assoc ..).symm⟩
      · obtain ⟨after, whole⟩ := ih later
        exact ⟨after, by rw [← List.append_assoc, whole]⟩

theorem exists_after_of_mem_excerpts {source : String} {excerpt : Excerpt}
    (present : excerpt ∈ excerpts source) :
    ∃ after, source.toList = excerpt.before ++ excerpt.piece.text ++ after := by
  obtain ⟨after, whole⟩ := exists_after_of_mem_excerptsFrom present
  rw [List.nil_append, flatMap_text_pieces] at whole
  exact ⟨after, whole⟩

/-! ## What is scanned of an excerpt -/

/--
What a scan yields for an excerpt, with its line: that of the last character of a token, and that of
the first character of a fault, which is a single character or all from an opening quote on.
-/
inductive Excerpt.Reports : Excerpt → Except Diagnostic Token → Prop
  | token (before : List Char) (kind : Kind) (text : List Char) :
      Reports ⟨before, ⟨.token kind, text⟩⟩
        (.ok ⟨kind, String.ofList text, 1 + (before ++ text.dropLast).count '\n'⟩)
  | unexpected (before : List Char) (c : Char) :
      Reports ⟨before, ⟨.fault (.unexpected c), [c]⟩⟩
        (.error ⟨1 + before.count '\n', .lexical (.unexpected c)⟩)
  | unterminated (before body : List Char) :
      Reports ⟨before, ⟨.fault .unterminatedString, '"' :: body⟩⟩
        (.error ⟨1 + before.count '\n', .lexical .unterminatedString⟩)

/-- A text without line feeds ends no line. -/
theorem count_dropLast_of_not_mem {text : List Char} (absent : '\n' ∉ text) :
    text.dropLast.count '\n' = text.count '\n' := by
  rw [List.count_eq_zero_of_not_mem absent,
    List.count_eq_zero_of_not_mem fun present => absent ((List.dropLast_sublist _).subset present)]

/-- Only a line break ends with a line feed. -/
theorem Lexeme.count_dropLast {kind : Kind} {text : List Char} (lexeme : Lexeme kind text)
    (other : kind ≠ .newline) : text.dropLast.count '\n' = text.count '\n' := by
  by_cases quoted : ∃ body, kind = .string body
  · obtain ⟨_, rfl⟩ := quoted
    cases lexeme
    rw [← List.cons_append, List.dropLast_concat, List.count_append]
    rfl
  · have unquoted : ∀ body, kind ≠ .string body := fun body same => quoted ⟨body, same⟩
    exact count_dropLast_of_not_mem (lexeme.lineFeed_not_mem other unquoted)

/-- The item for a piece that stands somewhere has the line of its place. -/
theorem Piece.Stands.reports {p : Piece} {rest : List Char} (stands : p.Stands rest)
    {before : List Char} {item : Except Diagnostic Token}
    (yielded : p.item? (1 + before.count '\n') = some item) :
    Excerpt.Reports ⟨before, p⟩ item := by
  cases stands with
  | @longest p _ readable _ =>
      obtain ⟨role, text⟩ := p
      cases readable with
      | layout => cases yielded
      | @token kind _ lexeme =>
          by_cases newline : kind = .newline
          · subst newline
            cases lexeme
            cases yielded
            have report := Excerpt.Reports.token before .newline ['\n']
            rwa [List.dropLast_singleton, List.append_nil] at report
          · have line : 1 + (before ++ text.dropLast).count '\n' =
                1 + before.count '\n' + Piece.lineFeeds ⟨.token kind, text⟩ := by
              rw [List.count_append, lexeme.count_dropLast newline, Nat.add_assoc]
              rfl
            have item : Piece.item? (1 + before.count '\n') ⟨.token kind, text⟩ =
                some (.ok ⟨kind, String.ofList text,
                  1 + (before ++ text.dropLast).count '\n'⟩) := by
              rw [line]
              unfold Piece.item?
              cases kind <;> first | rfl | exact absurd rfl newline
            cases item.symm.trans yielded
            exact .token before kind text
  | unexpected =>
      cases yielded
      exact .unexpected before _
  | unterminated =>
      cases yielded
      exact .unterminated before _

/-- There is an item for each excerpt that is no layout, on the line of the excerpt. -/
theorem forall₂_reports_itemsWithin {before : List Char} {ps : List Piece}
    (stand : ∀ p ∈ ps, ∃ rest, p.Stands rest) :
    List.Forall₂ Excerpt.Reports
      ((excerptsFrom before ps).filter fun excerpt => excerpt.piece.role ≠ .layout)
      (itemsWithin (1 + before.count '\n') ps) := by
  induction ps generalizing before with
  | nil => exact .nil
  | cons p rest ih =>
      have behind := @ih (before ++ p.text)
        fun q listed => stand q (List.mem_cons_of_mem p listed)
      rw [List.count_append, ← Nat.add_assoc] at behind
      obtain ⟨after, stands⟩ := stand p List.mem_cons_self
      have here := @Piece.Stands.reports p after stands before
      obtain ⟨role, text⟩ := p
      rw [excerptsFrom, itemsWithin]
      cases role with
      | layout =>
          rw [List.filter_cons_of_neg (by simp)]
          exact behind
      | fault fault =>
          rw [List.filter_cons_of_pos (by simp)]
          exact .cons (here rfl) behind
      | token kind =>
          rw [List.filter_cons_of_pos (by simp)]
          cases kind <;> exact .cons (here rfl) behind

/-! ## The order of lines -/

/-- The line of a token or of a fault. -/
def itemLine : Except Diagnostic Token → Nat
  | .ok t => t.line
  | .error fault => fault.line

/-- A piece is reported on a line between those on which it begins and ends. -/
theorem Piece.itemLine_bounds {p : Piece} {line : Nat} {item : Except Diagnostic Token}
    (yielded : item ∈ (p.item? line).toList) :
    line ≤ itemLine item ∧ itemLine item ≤ line + p.lineFeeds := by
  obtain ⟨role, text⟩ := p
  unfold Piece.item? at yielded
  dsimp only at yielded
  split at yielded
  · cases List.mem_singleton.mp yielded
    exact ⟨Nat.le_refl _, Nat.le_add_right ..⟩
  · cases List.mem_singleton.mp yielded
    exact ⟨Nat.le_add_right .., Nat.le_refl _⟩
  · cases yielded
  · cases List.mem_singleton.mp yielded
    exact ⟨Nat.le_refl _, Nat.le_add_right ..⟩

/-- No piece is reported on a line in front of the first one. -/
theorem le_itemLine_of_mem {line : Nat} {ps : List Piece} {item : Except Diagnostic Token}
    (present : item ∈ itemsFrom line ps) : line ≤ itemLine item := by
  induction ps generalizing line with
  | nil =>
      cases List.mem_singleton.mp present
      exact Nat.le_refl _
  | cons p rest ih =>
      rcases List.mem_append.mp present with here | later
      · exact (Piece.itemLine_bounds here).1
      · exact Nat.le_trans (Nat.le_add_right ..) (ih later)

theorem pairwise_itemLine (line : Nat) (ps : List Piece) :
    (itemsFrom line ps).Pairwise fun first second => itemLine first ≤ itemLine second := by
  induction ps generalizing line with
  | nil => exact List.pairwise_singleton ..
  | cons p rest ih =>
      rw [itemsFrom, List.pairwise_append]
      refine ⟨?_, ih _, fun first here second later => ?_⟩
      · cases p.item? line with
        | none => exact .nil
        | some item => exact List.pairwise_singleton ..
      · exact Nat.le_trans (Piece.itemLine_bounds here).2 (le_itemLine_of_mem later)

/-! ## Whole texts -/

/--
Lines count the line feeds of the text. Every piece of a text is an excerpt of it, and those
that are neither blank nor comment are the items of the scan, in order. A token has the line of its
last character: one more than the line feeds strictly in front of that character, so that a line
break belongs to the line it ends and a string to the line of its closing quote. What is at fault
has the line of its first character, which is the opening quote of a string that is not closed.
The end of the input comes behind all line feeds. Along the items, faults included, lines never
decrease.
-/
theorem scan_counts_lines (source : String) :
    ∃ items, scan source =
        items ++ [.ok ⟨.endOfInput, "", 1 + source.toList.count '\n'⟩] ∧
      List.Forall₂ Excerpt.Reports
        ((excerpts source).filter fun excerpt => excerpt.piece.role ≠ .layout) items ∧
      (∀ excerpt ∈ excerpts source,
        ∃ after, source.toList = excerpt.before ++ excerpt.piece.text ++ after) ∧
      (scan source).Pairwise fun first second => itemLine first ≤ itemLine second := by
  refine ⟨itemsWithin 1 (pieces source.toList), ?_, ?_, ?_, pairwise_itemLine 1 _⟩
  · rw [scan, itemsFrom_eq, lineFeedsOf_pieces]
    rfl
  · exact @forall₂_reports_itemsWithin [] _ fun p listed =>
      (segmented_pieces source.toList).exists_stands listed
  · exact fun excerpt present => exists_after_of_mem_excerpts present

/-- A string over two lines, a fault, a comment, a line break, and a string that is not closed. -/
theorem scan_counts_lines_of_open_string :
    ∃ items, scan "\"a\n\"@//\n\"b\n" = items ++ [.ok ⟨.endOfInput, "", 4⟩] ∧
      List.Forall₂ Excerpt.Reports
        [⟨[], ⟨.token (.string "a\n"), ['"', 'a', '\n', '"']⟩⟩,
          ⟨['"', 'a', '\n', '"'], ⟨.fault (.unexpected '@'), ['@']⟩⟩,
          ⟨['"', 'a', '\n', '"', '@', '/', '/'], ⟨.token .newline, ['\n']⟩⟩,
          ⟨['"', 'a', '\n', '"', '@', '/', '/', '\n'],
            ⟨.fault .unterminatedString, ['"', 'b', '\n']⟩⟩] items ∧
      (scan "\"a\n\"@//\n\"b\n").map itemLine = [2, 2, 2, 3, 4] := by
  obtain ⟨items, scanned, reports, -⟩ := scan_counts_lines "\"a\n\"@//\n\"b\n"
  exact ⟨items, scanned, by with_unfolding_all exact reports, by with_unfolding_all rfl⟩

end Rill
