import Mathlib.Data.List.Forall2
import Rill.Proofs.Scanner.Agreement
import Rill.Proofs.Token.Ending

/-!
# Scans follow the lexical grammar

There is one way to cut a text into pieces of which each is the longest that the lexical grammar
reads at its place, with faults where it reads nothing. A scan yields one item for each piece that
is no layout, and closes with the end of the input; a scanner of bytes answers the same items, one
each time it is asked (`scan_follows_grammar`).
-/

namespace Rill

/-! ## Pieces -/

/-- A text is cut into pieces, each of which stands in front of the rest of the text. -/
inductive Segmented : List Char → List Piece → Prop
  | nil : Segmented [] []
  | cons {p : Piece} {rest : List Char} {ps : List Piece} : p.Stands rest → Segmented rest ps →
      Segmented (p.text ++ rest) (p :: ps)

theorem segmented_pieces (text : List Char) : Segmented text (pieces text) := by
  fun_induction pieces text with
  | case1 => exact .nil
  | case2 c rest ih =>
      have cut := Segmented.cons (Piece.cut_stands c rest) ih
      rwa [Piece.cut_text] at cut

/-- There is one way to cut a text. -/
theorem segmented_iff {text : List Char} {ps : List Piece} :
    Segmented text ps ↔ ps = pieces text := by
  constructor
  · intro segmented
    induction segmented with
    | nil => rw [pieces]
    | @cons p rest ps stands _ ih =>
        obtain ⟨c, tail, same, cut⟩ := stands.eq_cut
        rw [same, pieces, cut, ih]
  · rintro rfl
    exact segmented_pieces text

theorem Segmented.exists_stands {text : List Char} {ps : List Piece} (segmented : Segmented text ps)
    {p : Piece} (present : p ∈ ps) : ∃ rest, p.Stands rest := by
  induction segmented with
  | nil => cases present
  | cons stands _ ih =>
      rcases List.mem_cons.mp present with rfl | later
      · exact ⟨_, stands⟩
      · exact ih later

/-- A token among the pieces of a text is written as its kind asks. -/
theorem lexeme_of_mem_pieces {text written : List Char} {kind : Kind}
    (present : ⟨.token kind, written⟩ ∈ pieces text) : Lexeme kind written := by
  obtain ⟨rest, stands⟩ := (segmented_pieces text).exists_stands present
  cases stands with
  | longest readable _ =>
      cases readable with
      | token lexeme => exact lexeme

/-! ## Lexemes determine kinds -/

/-- A text that the grammar reads is one piece. -/
theorem Readable.pieces_eq {role : Role} {text : List Char} (readable : Readable role text) :
    pieces text = [⟨role, text⟩] := by
  obtain ⟨c, more, rfl, covers⟩ := readable.covers []
  rw [List.append_nil] at covers
  have whole := Piece.cut_text c more
  have cut : (Piece.cut c more).1 = ⟨role, c :: more⟩ := covers.resolve_right fun longer => by
    have length := congrArg List.length whole
    rw [List.length_append] at length
    omega
  rw [cut] at whole
  rw [pieces, cut, List.append_right_eq_self.mp whole, pieces]

/-- The grammar reads a text in one way only. -/
theorem Readable.role_eq {role role' : Role} {text : List Char} (first : Readable role text)
    (second : Readable role' text) : role = role' := by
  have same := first.pieces_eq.symm.trans second.pieces_eq
  exact congrArg Piece.role (List.singleton_inj.mp same)

/-- A lexeme is of one kind, with what it denotes. -/
theorem Lexeme.kind_eq {kind kind' : Kind} {text : List Char} (first : Lexeme kind text)
    (second : Lexeme kind' text) : kind = kind' :=
  Role.token.inj ((Readable.token first).role_eq (.token second))

theorem Lexeme.ne_endOfInput {kind : Kind} {text : List Char} (lexeme : Lexeme kind text) :
    kind ≠ .endOfInput := by
  cases lexeme <;> exact nofun

/-- How the keywords are written. -/
theorem Keyword.mem_texts_iff {word : String} :
    word ∈ ["and", "class", "else", "false", "fn", "for", "if", "let", "nil", "or", "print",
      "return", "self", "true"] ↔ ∃ keyword : Keyword, word = keyword.text := by
  constructor
  · intro present
    have listed : word ∈ Keyword.all.map Keyword.text := present
    obtain ⟨keyword, _, same⟩ := List.mem_map.mp listed
    exact ⟨keyword, same.symm⟩
  · rintro ⟨keyword, rfl⟩
    cases keyword <;> decide

theorem Lexeme.eq_text {keyword : Keyword} {text : List Char}
    (lexeme : Lexeme (.keyword keyword) text) : text = keyword.text.toList := by
  cases lexeme
  rfl

/-- A token is a keyword if and only if it is written as one. -/
theorem Lexeme.keyword_iff {kind : Kind} {text : String} (lexeme : Lexeme kind text.toList) :
    (∃ keyword, kind = .keyword keyword) ↔ ∃ keyword : Keyword, text = keyword.text := by
  constructor
  · rintro ⟨keyword, rfl⟩
    exact ⟨keyword, String.toList_inj.mp lexeme.eq_text⟩
  · rintro ⟨keyword, rfl⟩
    exact ⟨keyword, lexeme.kind_eq (.keyword keyword)⟩

/-! ## Items -/

/-- What a scan yields for a piece: a token that is written as the piece, or a fault. -/
inductive Piece.Yields : Piece → Except Diagnostic Token → Prop
  | token (kind : Kind) (text : List Char) (line : Nat) :
      Yields ⟨.token kind, text⟩ (.ok ⟨kind, String.ofList text, line⟩)
  | fault (fault : LexicalFault) (text : List Char) (line : Nat) :
      Yields ⟨.fault fault, text⟩ (.error ⟨line, .lexical fault⟩)

/-- There is an item for each piece that is no layout. -/
theorem forall₂_yields_itemsWithin (line : Nat) (ps : List Piece) :
    List.Forall₂ Piece.Yields (ps.filter fun p => p.role ≠ .layout) (itemsWithin line ps) := by
  induction ps generalizing line with
  | nil => exact .nil
  | cons p rest ih =>
      obtain ⟨role, text⟩ := p
      rw [itemsWithin]
      cases role with
      | layout =>
          rw [List.filter_cons_of_neg (by simp)]
          exact ih _
      | fault fault =>
          rw [List.filter_cons_of_pos (by simp)]
          exact .cons (.fault fault text line) (ih _)
      | token kind =>
          rw [List.filter_cons_of_pos (by simp)]
          cases kind <;> exact .cons (.token _ text _) (ih _)

/-- In lists that are related one by one, each member of the second has one of the first. -/
theorem exists_rel_of_mem {α β : Type} {R : α → β → Prop} {as : List α} {bs : List β}
    (related : List.Forall₂ R as bs) {b : β} (present : b ∈ bs) : ∃ a ∈ as, R a b := by
  induction related with
  | nil => cases present
  | cons first _ ih =>
      rcases List.mem_cons.mp present with rfl | later
      · exact ⟨_, List.mem_cons_self, first⟩
      · obtain ⟨a, listed, rel⟩ := ih later
        exact ⟨a, List.mem_cons_of_mem _ listed, rel⟩

/-- A token that is yielded for a piece of a text is written as its kind asks. -/
theorem lexeme_of_mem_itemsWithin {source : String} {line : Nat} {t : Token}
    (present : .ok t ∈ itemsWithin line (pieces source.toList)) :
    Lexeme t.kind t.lexeme.toList := by
  obtain ⟨p, listed, yields⟩ := exists_rel_of_mem (forall₂_yields_itemsWithin _ _) present
  cases yields with
  | token kind text line =>
      dsimp only
      rw [String.toList_ofList]
      exact lexeme_of_mem_pieces (List.mem_of_mem_filter listed)

/-- A token of a scan closes the scan, or is written as its kind asks. -/
theorem eq_inputEnd_or_lexeme {source : String} {t : Token} (present : .ok t ∈ scan source) :
    (∃ line, t = inputEnd line) ∨ Lexeme t.kind t.lexeme.toList := by
  rw [scan, itemsFrom_eq, List.mem_append] at present
  rcases present with within | last
  · exact .inr (lexeme_of_mem_itemsWithin within)
  · cases List.mem_singleton.mp last
    exact .inl ⟨_, rfl⟩

/-- Only the end of the input agrees with itself. -/
theorem Kind.endOfInput_iff_of_agrees {kind kind' : Kind} (agrees : kind.agrees kind' = true) :
    kind = .endOfInput ↔ kind' = .endOfInput := by
  cases kind <;> cases kind' <;> simp_all [Kind.agrees]

/-- Tokens of scans that agree are the same, with what they denote. -/
theorem eq_of_agrees {source other : String} {t u : Token} (scanned : .ok t ∈ scan source)
    (scanned' : .ok u ∈ scan other) (agrees : t.agrees u = true) : t = u := by
  obtain ⟨kind, lexeme, line⟩ := t
  obtain ⟨kind', lexeme', line'⟩ := u
  simp only [Token.agrees, Bool.and_eq_true, beq_iff_eq] at agrees
  obtain ⟨⟨kinds, rfl⟩, rfl⟩ := agrees
  suffices same : kind = kind' by rw [same]
  rcases eq_inputEnd_or_lexeme scanned with ⟨_, ended⟩ | read <;>
    rcases eq_inputEnd_or_lexeme scanned' with ⟨_, ended'⟩ | read'
  · cases ended
    cases ended'
    rfl
  · cases ended
    exact ((Kind.endOfInput_iff_of_agrees kinds).mp rfl).symm
  · cases ended'
    exact (Kind.endOfInput_iff_of_agrees kinds).mpr rfl
  · exact read.kind_eq read'

/--
Scans follow the lexical grammar, and lose nothing. There is one way to cut a text, left to right,
into pieces of which each is the longest token, blank or comment that its place begins with, or is
at fault where it begins with none: the whole rest of the text from a quote on, or else one
character. Put together again, the pieces are the text. The scan yields one item for each piece that
is neither blank nor comment, and then the end of the input, with an empty lexeme. That is the only
one of its kind: every other token is a lexeme of its kind, which is a keyword just if the lexeme is
one of the fourteen. Lexemes determine what tokens denote, so tokens that agree denote the same. A
scanner that reads bytes by index, with a bound on its loops above the size of the text, comes to no
such bound, reads no byte outside of the text and cuts no character in two: however often it is
asked, it answers the items of the scan, one each time, and nothing ever after.
-/
theorem scan_follows_grammar (source : String) :
    ∃ (ps : List Piece) (items : List (Except Diagnostic Token)) (line : Nat),
      (∀ qs, Segmented source.toList qs ↔ qs = ps) ∧
      ps.flatMap Piece.text = source.toList ∧
      scan source = items ++ [.ok ⟨.endOfInput, "", line⟩] ∧
      List.Forall₂ Piece.Yields (ps.filter fun p => p.role ≠ .layout) items ∧
      (∀ t, .ok t ∈ items → t.kind ≠ .endOfInput ∧ Lexeme t.kind t.lexeme.toList ∧
        ((∃ keyword, t.kind = .keyword keyword) ↔
          t.lexeme ∈ ["and", "class", "else", "false", "fn", "for", "if", "let", "nil", "or",
            "print", "return", "self", "true"])) ∧
      (∀ (other : String) (t u : Token), .ok t ∈ scan source → .ok u ∈ scan other →
        t.agrees u = true → t = u) ∧
      ∀ limit, Scanner.size source < limit → ∀ count, ∃ w,
        (Scanner.answers source limit count).run .initial =
          .ok ((List.range count).map fun i => (scan source)[i]?) w := by
  refine ⟨pieces source.toList, _, _, fun qs => segmented_iff, flatMap_text_pieces _,
    itemsFrom_eq 1 _, forall₂_yields_itemsWithin 1 _, ?_, fun other t u => eq_of_agrees,
    fun limit => Scanner.run_answers⟩
  intro t present
  have lexeme := lexeme_of_mem_itemsWithin present
  exact ⟨lexeme.ne_endOfInput, lexeme, lexeme.keyword_iff.trans Keyword.mem_texts_iff.symm⟩

/--
A word that starts as a keyword, a mark of two characters, a fault of more than one byte and a
comment. A scanner that is asked five times answers them, the end of the input and then nothing.
-/
theorem scan_follows_grammar_of_comment :
    ∃ first second third line, scan "ifs<=é//" =
        [first, second, third, .ok ⟨.endOfInput, "", line⟩] ∧
      List.Forall₂ Piece.Yields
        [⟨.token .identifier, ['i', 'f', 's']⟩, ⟨.token (.mark .lessEqual), ['<', '=']⟩,
          ⟨.fault (.unexpected 'é'), ['é']⟩] [first, second, third] ∧
      ∃ w, (Scanner.answers "ifs<=é//" 10 5).run .initial =
        .ok [some first, some second, some third, some (.ok ⟨.endOfInput, "", line⟩), none] w := by
  have cut : pieces "ifs<=é//".toList =
      [⟨.token .identifier, ['i', 'f', 's']⟩, ⟨.token (.mark .lessEqual), ['<', '=']⟩,
        ⟨.fault (.unexpected 'é'), ['é']⟩, ⟨.layout, ['/', '/']⟩] := by with_unfolding_all rfl
  obtain ⟨ps, items, line, unique, -, scanned, yields, -, -, asked⟩ :=
    scan_follows_grammar "ifs<=é//"
  have same := (unique _).mp (segmented_iff.mpr cut.symm)
  subst same
  have within : Scanner.size "ifs<=é//" < 10 := by decide
  obtain ⟨w, answered⟩ := asked 10 within 5
  rw [scanned] at answered
  -- There are as many items as pieces that are no layout.
  match yields with
  | .cons first (.cons second (.cons third .nil)) =>
      exact ⟨_, _, _, line, scanned, .cons first (.cons second (.cons third .nil)), w, answered⟩

end Rill
