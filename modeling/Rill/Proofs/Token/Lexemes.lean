import Mathlib.Data.List.TakeWhile
import Rill.Token.Piece

/-!
# Lexemes

The lexical grammar says which texts are tokens, and of what kind, and which are layout between
tokens. What is cut off a text is the longest beginning of it that the grammar reads
(`Readable.cut_eq_or_lt`). A text is at fault where the grammar reads no beginning of it.
-/

namespace Rill

/-! ## The lexical grammar -/

/-- A text is digits, at least one. -/
structure Digits (text : List Char) : Prop where
  ne_nil : text ≠ []
  isDigit : ∀ d ∈ text, d.isDigit = true

/-- A text starts as a word and goes on as one. -/
structure Word (text : List Char) : Prop where
  starts : ∃ c rest, text = c :: rest ∧ Piece.startsWord c = true
  continues : ∀ d ∈ text, Piece.continuesWord d = true

/-- The texts that are tokens of a kind. -/
inductive Lexeme : Kind → List Char → Prop
  | mark (mark : Mark) : Lexeme (.mark mark) mark.text.toList
  | newline : Lexeme .newline ['\n']
  | keyword (keyword : Keyword) : Lexeme (.keyword keyword) keyword.text.toList
  | identifier {word : List Char} : Word word → (∀ keyword : Keyword, keyword.text.toList ≠ word) →
      Lexeme .identifier word
  | whole {whole : List Char} : Digits whole → Lexeme (.number (.ofDigits whole [])) whole
  | fraction {whole fraction : List Char} : Digits whole → Digits fraction →
      Lexeme (.number (.ofDigits whole fraction)) (whole ++ '.' :: fraction)
  | string {body : List Char} : '"' ∉ body →
      Lexeme (.string (String.ofList body)) ('"' :: (body ++ ['"']))

/-- The texts that separate tokens: a blank, or a comment, which ends with its line. -/
inductive Layout : List Char → Prop
  | blank {c : Char} : Piece.isBlank c = true → Layout [c]
  | comment {body : List Char} : '\n' ∉ body → Layout ('/' :: '/' :: body)

/-- The texts that the lexical grammar reads, and as what. -/
inductive Readable : Role → List Char → Prop
  | token {kind : Kind} {text : List Char} : Lexeme kind text → Readable (.token kind) text
  | layout {text : List Char} : Layout text → Readable .layout text

/-- The grammar reads no beginning of a text. -/
def Unreadable (text : List Char) : Prop :=
  ∀ (role : Role) (first rest : List Char), text = first ++ rest → ¬ Readable role first

/-! ## What the first character decides -/

namespace Piece

variable {c : Char} {rest : List Char}

theorem loneMark?_of_continuesWord (continues : continuesWord c = true) : loneMark? c = none := by
  unfold loneMark?
  split <;> first | rfl | exact absurd continues (by decide)

theorem extensibleMark?_of_continuesWord (continues : continuesWord c = true) :
    extensibleMark? c = none := by
  unfold extensibleMark?
  split <;> first | rfl | exact absurd continues (by decide)

theorem continuesWord_of_isDigit (digit : c.isDigit = true) : continuesWord c = true := by
  simp [continuesWord, Char.isAlphanum, digit]

theorem continuesWord_of_startsWord (starts : startsWord c = true) : continuesWord c = true := by
  unfold startsWord at starts
  unfold continuesWord Char.isAlphanum
  cases alpha : c.isAlpha with
  | true => simp
  | false =>
      rw [alpha, Bool.false_or] at starts
      rw [starts, Bool.or_true]

theorem isDigit_of_startsWord (starts : startsWord c = true) : c.isDigit = false := by
  refine Bool.eq_false_iff.mpr fun digit => ?_
  have within : c.val.toNat ≤ 57 := of_decide_eq_true (Bool.and_eq_true_iff.mp digit).2
  rcases Bool.or_eq_true_iff.mp starts with letter | underscore
  · rcases Bool.or_eq_true_iff.mp letter with upper | lower
    · have above : 65 ≤ c.val.toNat := (of_decide_eq_true upper).1
      omega
    · have above : 97 ≤ c.val.toNat := of_decide_eq_true (Bool.and_eq_true_iff.mp lower).1
      omega
  · rw [of_decide_eq_true underscore] at digit
    exact absurd digit (by decide)

theorem isBlank_of_continuesWord (continues : continuesWord c = true) : isBlank c = false := by
  unfold isBlank
  have space : c ≠ ' ' := by rintro rfl; exact absurd continues (by decide)
  have back : c ≠ '\r' := by rintro rfl; exact absurd continues (by decide)
  have tab : c ≠ '\t' := by rintro rfl; exact absurd continues (by decide)
  simp [space, back, tab]

/-- A character of a word is cut as part of a number or of a word. -/
theorem cut_of_continuesWord (continues : continuesWord c = true) (rest : List Char) :
    cut c rest = if c.isDigit then cutNumber c rest
      else if startsWord c then cutWord c rest else (⟨.fault (.unexpected c), [c]⟩, rest) := by
  have feed : c ≠ '\n' := by rintro rfl; exact absurd continues (by decide)
  have slash : c ≠ '/' := by rintro rfl; exact absurd continues (by decide)
  have quote : c ≠ '"' := by rintro rfl; exact absurd continues (by decide)
  rw [cut, loneMark?_of_continuesWord continues]
  dsimp only
  rw [extensibleMark?_of_continuesWord continues]
  dsimp only
  rw [if_neg feed, if_neg slash, if_neg quote, isBlank_of_continuesWord continues]
  rfl

theorem cut_of_isDigit (digit : c.isDigit = true) (rest : List Char) :
    cut c rest = cutNumber c rest := by
  rw [cut_of_continuesWord (continuesWord_of_isDigit digit), if_pos digit]

theorem cut_of_startsWord (starts : startsWord c = true) (rest : List Char) :
    cut c rest = cutWord c rest := by
  rw [cut_of_continuesWord (continuesWord_of_startsWord starts), isDigit_of_startsWord starts,
    if_neg (by decide), if_pos starts]

theorem cut_of_isBlank (blank : isBlank c = true) (rest : List Char) :
    cut c rest = (⟨.layout, [c]⟩, rest) := by
  have cases_ : c = ' ' ∨ c = '\r' ∨ c = '\t' := by
    simpa [isBlank, or_assoc] using blank
  rcases cases_ with rfl | rfl | rfl <;> rfl

end Piece

/-! ## What is cut is the longest beginning -/

/--
A piece is a readable text that was found at the start of another one, or a longer text that is at
no fault.
-/
def Piece.Covers (p : Piece) (role : Role) (text : List Char) : Prop :=
  p = ⟨role, text⟩ ∨ text.length < p.text.length ∧ ∀ fault, p.role ≠ .fault fault

namespace Piece

variable {c : Char} {more rest : List Char}

/-- A token covers any shorter text. -/
theorem covers_token {kind : Kind} {text first : List Char} {role : Role}
    (shorter : first.length < text.length) : Covers ⟨.token kind, text⟩ role first :=
  .inr ⟨shorter, nofun⟩

theorem cutWord_covers {kind : Kind} (continues : ∀ d ∈ more, continuesWord d = true)
    (named : wordKind (c :: more) = kind) (rest : List Char) :
    (cutWord c (more ++ rest)).1.Covers (.token kind) (c :: more) := by
  rw [cutWord, List.takeWhile_append_of_pos continues]
  cases behind : rest.takeWhile continuesWord with
  | nil =>
      rw [List.append_nil, named]
      exact .inl rfl
  | cons d others =>
      refine covers_token ?_
      simp

theorem cutNumber_covers_whole (digits : ∀ d ∈ more, d.isDigit = true) (rest : List Char) :
    (cutNumber c (more ++ rest)).1.Covers (.token (.number (.ofDigits (c :: more) [])))
      (c :: more) := by
  rw [cutNumber, List.takeWhile_append_of_pos digits, List.dropWhile_append_of_pos digits]
  dsimp only
  cases behind : rest.takeWhile Char.isDigit with
  | nil =>
      rw [List.append_nil]
      split
      · split
        · exact covers_token (by simp)
        · exact .inl rfl
      · exact .inl rfl
  | cons d others =>
      split
      · split <;> exact covers_token (by simp)
      · exact covers_token (by simp)

theorem cutNumber_covers_fraction {d : Char} {fraction : List Char}
    (digits : ∀ d ∈ more, d.isDigit = true) (digit : d.isDigit = true)
    (digits' : ∀ d ∈ fraction, d.isDigit = true) (rest : List Char) :
    (cutNumber c (more ++ '.' :: d :: fraction ++ rest)).1.Covers
      (.token (.number (.ofDigits (c :: more) (d :: fraction))))
      (c :: more ++ '.' :: d :: fraction) := by
  have point : ¬ Char.isDigit '.' = true := by decide
  have whole : (more ++ '.' :: d :: fraction ++ rest).takeWhile Char.isDigit = more := by
    rw [List.append_assoc, List.takeWhile_append_of_pos digits, List.cons_append,
      List.takeWhile_cons_of_neg point, List.append_nil]
  have behind : (more ++ '.' :: d :: fraction ++ rest).dropWhile Char.isDigit =
      '.' :: d :: (fraction ++ rest) := by
    rw [List.append_assoc, List.dropWhile_append_of_pos digits, List.cons_append,
      List.dropWhile_cons_of_neg point, List.cons_append]
  rw [cutNumber, whole, behind]
  simp only [if_pos digit, List.takeWhile_append_of_pos digits']
  cases more' : rest.takeWhile Char.isDigit with
  | nil =>
      rw [List.append_nil]
      exact .inl rfl
  | cons e others => exact covers_token (by simp)

theorem cutString_covers {body : List Char} (unquoted : '"' ∉ body) (rest : List Char) :
    (cutString (body ++ '"' :: rest)).1 =
      ⟨.token (.string (String.ofList body)), '"' :: (body ++ ['"'])⟩ := by
  have open_ : ∀ d ∈ body, decide (d ≠ '"') = true := by
    intro d present
    refine decide_eq_true ?_
    rintro rfl
    exact unquoted present
  rw [cutString, List.takeWhile_append_of_pos open_, List.dropWhile_append_of_pos open_,
    List.takeWhile_cons_of_neg (by simp), List.dropWhile_cons_of_neg (by simp), List.append_nil]
  rfl

theorem cutSlash_covers_comment {body : List Char} (within : '\n' ∉ body) (rest : List Char) :
    (cutSlash ('/' :: body ++ rest)).1.Covers .layout ('/' :: '/' :: body) := by
  have inLine : ∀ d ∈ body, decide (d ≠ '\n') = true := by
    intro d present
    refine decide_eq_true ?_
    rintro rfl
    exact within present
  rw [List.cons_append, cutSlash, List.takeWhile_append_of_pos inLine]
  cases rest.takeWhile (· ≠ '\n') with
  | nil =>
      rw [List.append_nil]
      exact .inl rfl
  | cons d others =>
      refine .inr ⟨?_, by intro cause same; cases same⟩
      simp

end Piece

/-- Each mark is cut as it is written, or as part of a longer mark or of a comment. -/
theorem Mark.covers (mark : Mark) (rest : List Char) : ∃ c more, mark.text.toList = c :: more ∧
    (Piece.cut c (more ++ rest)).1.Covers (.token (.mark mark)) (c :: more) := by
  have extensible (c : Char) (alone extended : Mark) (rest : List Char) :
      (Piece.cutExtensible c alone extended rest).1.Covers (.token (.mark alone)) [c] := by
    unfold Piece.cutExtensible
    split
    · exact Piece.covers_token (by simp)
    · exact .inl rfl
  cases mark with
  | bang | equal | greater | less => exact ⟨_, _, rfl, extensible _ _ _ _⟩
  | slash =>
      refine ⟨_, _, rfl, ?_⟩
      change (Piece.cutSlash rest).1.Covers _ _
      unfold Piece.cutSlash
      split
      · exact .inr ⟨by simp, nofun⟩
      · exact .inl rfl
  | _ => exact ⟨_, _, rfl, .inl rfl⟩

theorem Keyword.word (keyword : Keyword) : Word keyword.text.toList := by
  have letters : keyword.text.toList.all Piece.continuesWord = true := by
    cases keyword <;> rfl
  refine ⟨?_, List.all_eq_true.mp letters⟩
  cases keyword <;> exact ⟨_, _, rfl, rfl⟩

theorem Keyword.ofText?_text (keyword : Keyword) : ofText? keyword.text = some keyword := by
  cases keyword <;> decide

theorem Keyword.text_eq_of_ofText? {keyword : Keyword} {word : String}
    (found : ofText? word = some keyword) : keyword.text = word := by
  have written := List.find?_some found
  exact of_decide_eq_true written

theorem Piece.wordKind_text (keyword : Keyword) :
    wordKind keyword.text.toList = .keyword keyword := by
  rw [wordKind, String.ofList_toList, keyword.ofText?_text]

theorem Piece.wordKind_of_free {word : List Char}
    (free : ∀ keyword : Keyword, keyword.text.toList ≠ word) : wordKind word = .identifier := by
  unfold wordKind
  split
  · next keyword found =>
      refine absurd ?_ (free keyword)
      rw [Keyword.text_eq_of_ofText? found, String.toList_ofList]
  · rfl

/-- A word is cut as it is, or as part of a longer word. -/
theorem Word.covers {word : List Char} (isWord : Word word) {kind : Kind}
    (named : Piece.wordKind word = kind) (rest : List Char) : ∃ c more, word = c :: more ∧
    (Piece.cut c (more ++ rest)).1.Covers (.token kind) word := by
  obtain ⟨c, more, rfl, starts⟩ := isWord.starts
  refine ⟨c, more, rfl, ?_⟩
  rw [Piece.cut_of_startsWord starts]
  exact Piece.cutWord_covers (fun d present => isWord.continues d (List.mem_cons_of_mem c present))
    named rest

theorem Digits.exists_cons {text : List Char} (digits : Digits text) :
    ∃ c more, text = c :: more ∧ c.isDigit = true ∧ ∀ d ∈ more, d.isDigit = true := by
  obtain ⟨nonempty, isDigit⟩ := digits
  cases text with
  | nil => exact absurd rfl nonempty
  | cons c more =>
      exact ⟨c, more, rfl, isDigit c List.mem_cons_self,
        fun d present => isDigit d (List.mem_cons_of_mem c present)⟩

/-- A readable beginning of a text is cut off it, or else something longer is. -/
theorem Readable.covers {role : Role} {first : List Char} (readable : Readable role first)
    (rest : List Char) : ∃ c more, first = c :: more ∧
    (Piece.cut c (more ++ rest)).1.Covers role first := by
  cases readable with
  | token lexeme =>
      cases lexeme with
      | mark mark =>
          obtain ⟨c, more, written, covers⟩ := mark.covers rest
          exact ⟨c, more, written, written ▸ covers⟩
      | newline => exact ⟨_, _, rfl, .inl rfl⟩
      | keyword keyword => exact keyword.word.covers (Piece.wordKind_text keyword) rest
      | identifier word free => exact word.covers (Piece.wordKind_of_free free) rest
      | whole whole =>
          obtain ⟨c, more, rfl, digit, digits⟩ := whole.exists_cons
          refine ⟨c, more, rfl, ?_⟩
          rw [Piece.cut_of_isDigit digit]
          exact Piece.cutNumber_covers_whole digits rest
      | fraction whole fraction =>
          obtain ⟨c, more, rfl, digit, digits⟩ := whole.exists_cons
          obtain ⟨d, others, rfl, digit', digits'⟩ := fraction.exists_cons
          refine ⟨c, more ++ '.' :: d :: others, rfl, ?_⟩
          rw [Piece.cut_of_isDigit digit]
          exact Piece.cutNumber_covers_fraction digits digit' digits' rest
      | @string body unquoted =>
          refine ⟨_, _, rfl, .inl ?_⟩
          rw [List.append_assoc]
          exact Piece.cutString_covers unquoted rest
  | layout layout =>
      cases layout with
      | blank blank => exact ⟨_, _, rfl, .inl (by rw [Piece.cut_of_isBlank blank])⟩
      | comment within => exact ⟨_, _, rfl, Piece.cutSlash_covers_comment within rest⟩

/-! ## What is cut is readable -/

theorem not_mem_takeWhile_ne {α : Type} [DecidableEq α] (stop : α) (text : List α) :
    stop ∉ text.takeWhile (· ≠ stop) := by
  intro present
  simpa using List.mem_takeWhile_imp present

theorem Digits.cons {c : Char} {rest : List Char} (digit : c.isDigit = true) :
    Digits (c :: rest.takeWhile Char.isDigit) where
  ne_nil := List.cons_ne_nil _ _
  isDigit d present := by
    rcases List.mem_cons.mp present with rfl | later
    · exact digit
    · exact List.mem_takeWhile_imp later

namespace Piece

variable {c : Char} {rest : List Char}

theorem cutExtensible_readable {alone extended : Mark} (written : alone.text.toList = [c])
    (written' : extended.text.toList = [c, '=']) :
    Readable (cutExtensible c alone extended rest).1.role
      (cutExtensible c alone extended rest).1.text := by
  unfold cutExtensible
  split
  · exact .token (written' ▸ .mark extended)
  · exact .token (written ▸ .mark alone)

theorem cutSlash_readable : Readable (cutSlash rest).1.role (cutSlash rest).1.text := by
  unfold cutSlash
  split
  · exact .layout (.comment (not_mem_takeWhile_ne _ _))
  · exact .token (.mark .slash)

theorem cutNumber_readable (digit : c.isDigit = true) :
    Readable (cutNumber c rest).1.role (cutNumber c rest).1.text := by
  unfold cutNumber
  dsimp only
  split
  · split
    · next digit' => exact .token (.fraction (.cons digit) (.cons digit'))
    · exact .token (.whole (.cons digit))
  · exact .token (.whole (.cons digit))

theorem cutWord_readable (starts : startsWord c = true) :
    Readable (cutWord c rest).1.role (cutWord c rest).1.text := by
  have word : Word (c :: rest.takeWhile continuesWord) := by
    refine ⟨⟨c, _, rfl, starts⟩, fun d present => ?_⟩
    rcases List.mem_cons.mp present with rfl | later
    · exact continuesWord_of_startsWord starts
    · exact List.mem_takeWhile_imp later
  unfold cutWord tokenCut wordKind
  dsimp only
  split
  · next keyword found =>
      have written := congrArg String.toList (Keyword.text_eq_of_ofText? found)
      rw [String.toList_ofList] at written
      exact .token (written ▸ .keyword keyword)
  · next absent =>
      refine .token (.identifier word ?_)
      intro keyword written
      rw [← written, String.ofList_toList, keyword.ofText?_text] at absent
      cases absent

end Piece

/-! ## Where pieces stand -/

/-- How a piece stands in front of the rest of a text. -/
inductive Piece.Stands : Piece → List Char → Prop
  /-- It is the longest beginning that the grammar reads. -/
  | longest {p : Piece} {rest : List Char} : Readable p.role p.text →
      (∀ {role : Role} {first tail : List Char}, p.text ++ rest = first ++ tail →
        Readable role first → first.length ≤ p.text.length) →
      Stands p rest
  /-- The grammar reads no beginning, and the first character is at fault. -/
  | unexpected {c : Char} {rest : List Char} : c ≠ '"' → Unreadable (c :: rest) →
      Stands ⟨.fault (.unexpected c), [c]⟩ rest
  /-- The grammar reads no beginning, and all from a quote on is at fault. -/
  | unterminated {body : List Char} : Unreadable ('"' :: body) →
      Stands ⟨.fault .unterminatedString, '"' :: body⟩ []

namespace Piece

variable {c : Char} {rest : List Char}

theorem cutString_cases (rest : List Char) :
    Readable (cutString rest).1.role (cutString rest).1.text ∨
      cutString rest = (⟨.fault .unterminatedString, '"' :: rest⟩, []) := by
  unfold cutString
  dsimp only
  split
  · next quote after found =>
      have closed : quote = '"' := by
        have stopped := List.head?_dropWhile_not (· ≠ '"') rest
        rw [found] at stopped
        simpa using stopped
      subst closed
      exact .inl (.token (.string (not_mem_takeWhile_ne _ _)))
  · next found =>
      have whole := @List.takeWhile_append_dropWhile Char (· ≠ '"') rest
      rw [found, List.append_nil] at whole
      exact .inr (by rw [whole])

/-- What is cut off a text is readable, or else at fault. -/
theorem cut_cases (c : Char) (rest : List Char) :
    Readable (cut c rest).1.role (cut c rest).1.text ∨
      c ≠ '"' ∧ cut c rest = (⟨.fault (.unexpected c), [c]⟩, rest) ∨
      c = '"' ∧ cut c rest = (⟨.fault .unterminatedString, c :: rest⟩, []) := by
  unfold cut
  split
  · next mark lone =>
      refine .inl ?_
      unfold loneMark? at lone
      split at lone <;> cases lone <;> exact .token (.mark _)
  · split
    · next alone extended extensible =>
        refine .inl ?_
        unfold extensibleMark? at extensible
        split at extensible <;> cases extensible <;> exact cutExtensible_readable rfl rfl
    · split
      · next feed => exact .inl (feed ▸ .token .newline)
      · split
        · exact .inl cutSlash_readable
        · split
          · next quote =>
              subst quote
              exact (cutString_cases rest).imp_right fun same => .inr ⟨rfl, same⟩
          · next unquoted =>
              split
              · next blank => exact .inl (.layout (.blank blank))
              · split
                · next digit => exact .inl (cutNumber_readable digit)
                · split
                  · next starts => exact .inl (cutWord_readable starts)
                  · exact .inr (.inl ⟨unquoted, rfl⟩)

/-- Where the grammar reads a beginning, what is cut is at no fault, and no shorter. -/
theorem length_le_of_readable {role : Role} {first tail : List Char}
    (same : c :: rest = first ++ tail) (readable : Readable role first) :
    first.length ≤ (cut c rest).1.text.length ∧ ∀ fault, (cut c rest).1.role ≠ .fault fault := by
  obtain ⟨d, more, rfl, covers⟩ := readable.covers tail
  rw [List.cons_append] at same
  obtain ⟨rfl, rfl⟩ := List.cons.inj same
  rcases covers with cut | ⟨longer, faultless⟩
  · rw [cut]
    refine ⟨Nat.le_refl _, fun fault same => ?_⟩
    cases same
    cases readable
  · exact ⟨Nat.le_of_lt longer, faultless⟩

/-- A piece that is cut off a text stands in front of what is left of it. -/
theorem cut_stands (c : Char) (rest : List Char) : (cut c rest).1.Stands (cut c rest).2 := by
  have unreadable {fault : LexicalFault} (role : (cut c rest).1.role = .fault fault) :
      Unreadable (c :: rest) :=
    fun _ _ _ same readable => (length_le_of_readable same readable).2 fault role
  rcases cut_cases c rest with readable | ⟨unquoted, same⟩ | ⟨rfl, same⟩
  · refine .longest readable fun same shorter => ?_
    rw [cut_text] at same
    exact (length_le_of_readable same shorter).1
  · have nothing := unreadable (congrArg (·.1.role) same)
    rw [same]
    exact .unexpected unquoted nothing
  · have nothing := unreadable (congrArg (·.1.role) same)
    rw [same]
    exact .unterminated nothing

/-- Only the piece that is cut off a text stands in front of what is left of it. -/
theorem Stands.eq_cut {p : Piece} (stands : p.Stands rest) :
    ∃ c tail, p.text ++ rest = c :: tail ∧ cut c tail = (p, rest) := by
  cases stands with
  | longest readable longest =>
      obtain ⟨c, more, written, covers⟩ := readable.covers rest
      refine ⟨c, more ++ rest, by rw [written]; rfl, ?_⟩
      have whole := cut_text c (more ++ rest)
      rw [← List.cons_append, ← written] at whole
      rcases covers with same | ⟨longer, faultless⟩
      · rw [same] at whole
        exact Prod.ext same (List.append_cancel_left whole)
      · rcases cut_cases c (more ++ rest) with readable' | ⟨_, same⟩ | ⟨_, same⟩
        · exact absurd (longest whole.symm readable') (Nat.not_le.mpr longer)
        · exact absurd (congrArg (·.1.role) same) (faultless _)
        · exact absurd (congrArg (·.1.role) same) (faultless _)
  | @unexpected c _ unquoted unreadable =>
      refine ⟨c, rest, rfl, ?_⟩
      rcases cut_cases c rest with readable | ⟨_, same⟩ | ⟨quoted, _⟩
      · exact absurd readable (unreadable _ _ _ (cut_text c rest).symm)
      · exact same
      · exact absurd quoted unquoted
  | @unterminated body unreadable =>
      refine ⟨'"', body, List.append_nil _, ?_⟩
      rcases cut_cases '"' body with readable | ⟨unquoted, _⟩ | ⟨_, same⟩
      · exact absurd readable (unreadable _ _ _ (cut_text '"' body).symm)
      · exact absurd rfl unquoted
      · exact same

end Piece

/-! ## Line feeds -/

theorem Digits.lineFeed_not_mem {text : List Char} (digits : Digits text) : '\n' ∉ text :=
  fun present => absurd (digits.isDigit _ present) (by decide)

theorem Word.lineFeed_not_mem {text : List Char} (word : Word text) : '\n' ∉ text :=
  fun present => absurd (word.continues _ present) (by decide)

/-- Only line breaks and strings have line feeds in them. -/
theorem Lexeme.lineFeed_not_mem {kind : Kind} {text : List Char} (lexeme : Lexeme kind text)
    (other : kind ≠ .newline) (unquoted : ∀ body, kind ≠ .string body) : '\n' ∉ text := by
  cases lexeme with
  | mark mark => cases mark <;> simp [Mark.text]
  | newline => exact absurd rfl other
  | keyword keyword => exact keyword.word.lineFeed_not_mem
  | identifier word => exact word.lineFeed_not_mem
  | whole whole => exact whole.lineFeed_not_mem
  | fraction whole fraction => simp [whole.lineFeed_not_mem, fraction.lineFeed_not_mem]
  | string => exact absurd rfl (unquoted _)

/-- Layout ends no lines. -/
theorem Layout.lineFeed_not_mem {text : List Char} (layout : Layout text) : '\n' ∉ text := by
  cases layout with
  | @blank c blank =>
      intro present
      rw [← List.mem_singleton.mp present] at blank
      exact absurd blank (by decide)
  | comment within => simpa using within

end Rill
