import Rill.Proofs.Token.Joining
import Rill.Proofs.Token.Segments

/-!
# Tokens determine a text up to layout

Every lexeme is cut as it is when a blank stands behind it, whatever comes then. So the lexemes of a
scan with a blank behind each are scanned as the same tokens, on the same lines: layout holds no
line feeds, and is of no other use than to keep lexemes apart.
-/

namespace Rill

/-! ## Lexemes in front of a blank -/

/-- The blank that keeps lexemes apart. -/
def Piece.space : Piece := ⟨.layout, [' ']⟩

namespace Piece

variable {c : Char} {more : List Char}

/-- What is cut off a text tells what is left of it. -/
theorem cut_eq_of_fst {p : Piece} {rest tail : List Char} (first : (cut c rest).1 = p)
    (written : p.text ++ tail = c :: rest) : cut c rest = (p, tail) := by
  have whole : p.text ++ (cut c rest).2 = p.text ++ tail := by
    rw [written, ← first]
    exact cut_text c rest
  exact Prod.ext first (List.append_cancel_left whole)

theorem cutWord_space (continues : ∀ d ∈ more, continuesWord d = true) (rest : List Char) :
    cutWord c (more ++ ' ' :: rest) =
      tokenCut (wordKind (c :: more)) (c :: more) (' ' :: rest) := by
  have stops : ¬ continuesWord ' ' = true := by decide
  rw [cutWord, List.takeWhile_append_of_pos continues, List.dropWhile_append_of_pos continues,
    List.takeWhile_cons_of_neg stops, List.dropWhile_cons_of_neg stops, List.append_nil]

theorem cutNumber_space (digits : ∀ d ∈ more, d.isDigit = true) (rest : List Char) :
    cutNumber c (more ++ ' ' :: rest) =
      tokenCut (.number (.ofDigits (c :: more) [])) (c :: more) (' ' :: rest) := by
  have stops : ¬ Char.isDigit ' ' = true := by decide
  have behind : (more ++ ' ' :: rest).dropWhile Char.isDigit = ' ' :: rest := by
    rw [List.dropWhile_append_of_pos digits, List.dropWhile_cons_of_neg stops]
  rw [cutNumber_of_ne behind (by decide), List.takeWhile_append_of_pos digits,
    List.takeWhile_cons_of_neg stops, List.append_nil]

theorem cutNumber_fraction_space {d : Char} {fraction : List Char}
    (digits : ∀ d ∈ more, d.isDigit = true) (digit : d.isDigit = true)
    (digits' : ∀ d ∈ fraction, d.isDigit = true) (rest : List Char) :
    cutNumber c (more ++ '.' :: d :: (fraction ++ ' ' :: rest)) =
      tokenCut (.number (.ofDigits (c :: more) (d :: fraction))) (c :: more ++ '.' :: d :: fraction)
        (' ' :: rest) := by
  have stops : ¬ Char.isDigit ' ' = true := by decide
  have point : ¬ Char.isDigit '.' = true := by decide
  have whole : (more ++ '.' :: d :: (fraction ++ ' ' :: rest)).takeWhile Char.isDigit = more := by
    rw [List.takeWhile_append_of_pos digits, List.takeWhile_cons_of_neg point, List.append_nil]
  have behind : (more ++ '.' :: d :: (fraction ++ ' ' :: rest)).dropWhile Char.isDigit =
      '.' :: d :: (fraction ++ ' ' :: rest) := by
    rw [List.dropWhile_append_of_pos digits, List.dropWhile_cons_of_neg point]
  rw [cutNumber, whole, behind]
  simp only [if_pos digit, List.takeWhile_append_of_pos digits',
    List.dropWhile_append_of_pos digits', List.takeWhile_cons_of_neg stops,
    List.dropWhile_cons_of_neg stops, List.append_nil]

end Piece

/-- A word is cut as it is in front of a blank. -/
theorem Word.cut_space {word : List Char} (isWord : Word word) (rest : List Char) :
    ∃ c more, word = c :: more ∧
      Piece.cut c (more ++ ' ' :: rest) = (⟨.token (Piece.wordKind word), word⟩, ' ' :: rest) := by
  obtain ⟨c, more, rfl, starts⟩ := isWord.starts
  refine ⟨c, more, rfl, ?_⟩
  rw [Piece.cut_of_startsWord starts]
  exact Piece.cutWord_space
    (fun d present => isWord.continues d (List.mem_cons_of_mem c present)) rest

/-- A lexeme is cut as it is in front of a blank. -/
theorem Lexeme.cut_space {kind : Kind} {text : List Char} (lexeme : Lexeme kind text)
    (rest : List Char) : ∃ c more, text = c :: more ∧
      Piece.cut c (more ++ ' ' :: rest) = (⟨.token kind, text⟩, ' ' :: rest) := by
  cases lexeme with
  | mark mark => cases mark <;> exact ⟨_, _, rfl, rfl⟩
  | newline => exact ⟨_, _, rfl, rfl⟩
  | keyword keyword =>
      obtain ⟨c, more, written, cut⟩ := keyword.word.cut_space rest
      rw [Piece.wordKind_text] at cut
      exact ⟨c, more, written, cut⟩
  | identifier word free =>
      obtain ⟨c, more, written, cut⟩ := word.cut_space rest
      rw [Piece.wordKind_of_free free] at cut
      exact ⟨c, more, written, cut⟩
  | whole whole =>
      obtain ⟨c, more, rfl, digit, digits⟩ := whole.exists_cons
      refine ⟨c, more, rfl, ?_⟩
      rw [Piece.cut_of_isDigit digit]
      exact Piece.cutNumber_space digits rest
  | fraction whole fraction =>
      obtain ⟨c, more, rfl, digit, digits⟩ := whole.exists_cons
      obtain ⟨d, others, rfl, digit', digits'⟩ := fraction.exists_cons
      refine ⟨c, more ++ '.' :: d :: others, rfl, ?_⟩
      rw [Piece.cut_of_isDigit digit, List.append_assoc]
      exact Piece.cutNumber_fraction_space digits digit' digits' rest
  | @string body unquoted =>
      refine ⟨'"', body ++ ['"'], rfl, Piece.cut_eq_of_fst ?_ ?_⟩
      · rw [List.append_assoc]
        exact Piece.cutString_covers unquoted _
      · dsimp only
        rw [List.cons_append, List.append_assoc]

/-! ## Texts with a blank behind each lexeme -/

/-- The lexemes of tokens, with a blank behind each. -/
def spaced (ts : List Token) : String :=
  String.ofList (ts.flatMap fun t => t.lexeme.toList ++ [' '])

/-- Lexemes with a blank behind each are cut into the lexemes and the blanks. -/
theorem pieces_spaced {ps : List Piece}
    (lexemes : ∀ p ∈ ps, ∃ kind, p.role = .token kind ∧ Lexeme kind p.text) :
    pieces (ps.flatMap (fun p => p.text ++ [' ']) ++ [' ']) =
      ps.flatMap (fun p => [p, Piece.space]) ++ [Piece.space] := by
  have blank (rest : List Char) : pieces (' ' :: rest) = Piece.space :: pieces rest := by
    rw [pieces]
    rfl
  induction ps with
  | nil => rw [List.flatMap_nil, List.nil_append, blank, pieces]; rfl
  | cons p others ih =>
      obtain ⟨role, text⟩ := p
      obtain ⟨kind, isToken, lexeme⟩ := lexemes _ List.mem_cons_self
      cases isToken
      obtain ⟨c, more, rfl, cut⟩ := lexeme.cut_space
        (others.flatMap (fun p => p.text ++ [' ']) ++ [' '])
      have rest := ih fun p listed => lexemes p (List.mem_cons_of_mem _ listed)
      simp only [List.flatMap_cons, List.cons_append, List.append_assoc, List.nil_append]
      rw [pieces, cut, blank, rest]

/-- The pieces that are no layout. -/
def content (ps : List Piece) : List Piece := ps.filter fun p => p.role ≠ .layout

/-- Pieces without line feeds in layout are scanned as if there were no layout. -/
theorem itemsWithin_content {line : Nat} {ps : List Piece}
    (plain : ∀ p ∈ ps, p.role = .layout → p.lineFeeds = 0) :
    itemsWithin line (content ps) = itemsWithin line ps := by
  unfold content
  induction ps generalizing line with
  | nil => rfl
  | cons p rest ih =>
      have behind {line : Nat} := @ih line
        fun q listed => plain q (List.mem_cons_of_mem p listed)
      by_cases layout : p.role = .layout
      · rw [List.filter_cons_of_neg (by simp [layout]), behind, itemsWithin,
          plain p List.mem_cons_self layout, Piece.item?, layout]
        rfl
      · rw [List.filter_cons_of_pos (by simp [layout]), itemsWithin, itemsWithin, behind]

/-- Pieces without line feeds in layout end as many lines as if there were no layout. -/
theorem lineFeedsOf_content {ps : List Piece}
    (plain : ∀ p ∈ ps, p.role = .layout → p.lineFeeds = 0) :
    lineFeedsOf (content ps) = lineFeedsOf ps := by
  unfold content
  induction ps with
  | nil => rfl
  | cons p rest ih =>
      have behind := ih fun q listed => plain q (List.mem_cons_of_mem p listed)
      by_cases layout : p.role = .layout
      · rw [List.filter_cons_of_neg (by simp [layout]), behind, lineFeedsOf,
          plain p List.mem_cons_self layout, Nat.zero_add]
      · rw [List.filter_cons_of_pos (by simp [layout]), lineFeedsOf, lineFeedsOf, behind]

/-- The lexemes of pieces that are tokens are the texts of the pieces. -/
theorem flatMap_lexeme_itemsWithin {line : Nat} {ps : List Piece}
    (isToken : ∀ p ∈ ps, ∃ kind, p.role = .token kind) :
    (scannedTokens (itemsWithin line ps)).flatMap (fun t => t.lexeme.toList ++ [' ']) =
      ps.flatMap fun p => p.text ++ [' '] := by
  induction ps generalizing line with
  | nil => rfl
  | cons p rest ih =>
      have behind {line : Nat} := @ih line
        fun q listed => isToken q (List.mem_cons_of_mem p listed)
      obtain ⟨role, text⟩ := p
      obtain ⟨kind, same⟩ := isToken _ List.mem_cons_self
      cases same
      have here : (scannedTokens (Piece.item? line ⟨.token kind, text⟩).toList).flatMap
          (fun t => t.lexeme.toList ++ [' ']) = text ++ [' '] := by
        cases kind <;> simp [Piece.item?, scannedTokens, Except.toOption, String.toList_ofList]
      rw [itemsWithin, scannedTokens_append, List.flatMap_append, here, behind,
        List.flatMap_cons]

/-- Layout in the pieces of a text ends no lines. -/
theorem lineFeeds_of_layout {text : List Char} {p : Piece} (listed : p ∈ pieces text)
    (layout : p.role = .layout) : p.lineFeeds = 0 := by
  obtain ⟨rest, stands⟩ := (segmented_pieces text).exists_stands listed
  cases stands with
  | @longest p _ readable _ =>
      obtain ⟨role, text⟩ := p
      cases layout
      cases readable with
      | layout layout => exact List.count_eq_zero_of_not_mem layout.lineFeed_not_mem
  | unexpected => cases layout
  | unterminated => cases layout

/-- Texts that differ in layout only are scanned alike. -/
theorem scan_eq_of_content_eq {source other : String}
    (same : content (pieces other.toList) = content (pieces source.toList)) :
    scan other = scan source := by
  have plain {text : List Char} : ∀ p ∈ pieces text, p.role = .layout → p.lineFeeds = 0 :=
    fun p listed layout => lineFeeds_of_layout listed layout
  rw [scan, scan, itemsFrom_eq, itemsFrom_eq, ← itemsWithin_content plain,
    ← itemsWithin_content plain, ← lineFeedsOf_content plain, ← lineFeedsOf_content plain, same]

theorem content_append (ps qs : List Piece) : content (ps ++ qs) = content ps ++ content qs :=
  List.filter_append ..

theorem content_spaced (ps : List Piece) :
    content (ps.flatMap (fun p => [p, Piece.space]) ++ [Piece.space]) = content ps := by
  have blank : content [Piece.space] = [] := rfl
  induction ps with
  | nil => exact blank
  | cons p rest ih =>
      calc content ((p :: rest).flatMap (fun p => [p, Piece.space]) ++ [Piece.space])
          = content ([p] ++ ([Piece.space] ++
              (rest.flatMap (fun p => [p, Piece.space]) ++ [Piece.space]))) := rfl
        _ = content [p] ++ content rest := by
            rw [content_append, content_append, blank, List.nil_append, ih]
        _ = content (p :: rest) := (content_append [p] rest).symm

/--
Tokens determine a text up to layout. Where a text is scanned without faults, its lexemes in order,
that of the end of the input included, with one blank behind each, are scanned without faults to the
same tokens: of the same kinds, denoting and written the same, and on the same lines.
-/
theorem tokens_spaced {source : String} {ts : List Token} (scanned : tokens source = .ok ts) :
    tokens (spaced ts) = .ok ts := by
  obtain ⟨faultless, found⟩ := tokens_eq_ok.mp scanned
  rw [scannedFaults_itemsWithin_eq_nil] at faultless
  have lexemes : ∀ p ∈ content (pieces source.toList),
      ∃ kind, p.role = .token kind ∧ Lexeme kind p.text := by
    intro p present
    have listed := List.mem_of_mem_filter present
    have other := List.of_mem_filter present
    obtain ⟨role, text⟩ := p
    cases role with
    | token kind => exact ⟨kind, rfl, lexeme_of_mem_pieces listed⟩
    | layout => simp at other
    | fault fault => exact absurd rfl (faultless _ listed fault)
  have written : (spaced ts).toList =
      (content (pieces source.toList)).flatMap (fun p => p.text ++ [' ']) ++ [' '] := by
    rw [spaced, String.toList_ofList, found, List.flatMap_append,
      ← itemsWithin_content fun p listed layout => lineFeeds_of_layout listed layout,
      flatMap_lexeme_itemsWithin fun p listed => (lexemes p listed).imp fun _ found => found.1]
    rfl
  have cut : content (pieces (spaced ts).toList) = content (pieces source.toList) := by
    rw [written, pieces_spaced lexemes, content_spaced, content, content, List.filter_filter]
    simp only [Bool.and_self]
  rw [← scanned, tokens, tokens, scan_eq_of_content_eq cut]

/-- Marks that would join others or start a comment, a string over two lines, and a comment. -/
theorem tokens_spaced_of_division :
    ∃ ts, tokens "a==/\"b\n//\"-1.5.c//d\n;" = .ok ts ∧
      tokens "a == / \"b\n//\" - 1.5 . c \n ;  " = .ok ts := by
  have scanned : tokens "a==/\"b\n//\"-1.5.c//d\n;" = .ok
      [⟨.identifier, "a", 1⟩, ⟨.mark .equalEqual, "==", 1⟩, ⟨.mark .slash, "/", 1⟩,
       ⟨.string "b\n//", "\"b\n//\"", 2⟩, ⟨.mark .minus, "-", 2⟩,
       ⟨.number (.ofDigits ['1'] ['5']), "1.5", 2⟩, ⟨.mark .dot, ".", 2⟩, ⟨.identifier, "c", 2⟩,
       ⟨.newline, "\n", 2⟩, ⟨.mark .semicolon, ";", 3⟩, ⟨.endOfInput, "", 3⟩] := by
    with_unfolding_all rfl
  have again := tokens_spaced scanned
  rw [show spaced _ = "a == / \"b\n//\" - 1.5 . c \n ;  " from rfl] at again
  exact ⟨_, scanned, again⟩

end Rill
