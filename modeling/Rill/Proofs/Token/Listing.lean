import Rill.Proofs.Outline.Words
import Rill.Proofs.Token.Lines

/-!
# Listings of tokens

A token is listed with its lexeme and what it denotes. Of these only strings can break the line,
each of their line feeds twice (`Token.breaks_listing`): a line break is spelled out, and nothing
else that is listed has a line feed in it.
-/

namespace Rill

/-! ## Line feeds in texts -/

/-- How many line feeds there are in a text. -/
def breaks (text : String) : Nat := text.toList.count '\n'

/-- How many line feeds there are in some texts. -/
def breaksIn : List String → Nat
  | [] => 0
  | text :: rest => breaks text + breaksIn rest

theorem breaks_eq_zero_iff {text : String} : breaks text = 0 ↔ '\n' ∉ text.toList :=
  List.count_eq_zero

theorem breaks_append (first second : String) :
    breaks (first ++ second) = breaks first + breaks second := by
  rw [breaks, String.toList_append, List.count_append]
  rfl

@[simp]
theorem breaksIn_nil : breaksIn [] = 0 := rfl

@[simp]
theorem breaksIn_cons (text : String) (rest : List String) :
    breaksIn (text :: rest) = breaks text + breaksIn rest := rfl

@[simp]
theorem breaksIn_append (first second : List String) :
    breaksIn (first ++ second) = breaksIn first + breaksIn second := by
  induction first with
  | nil => exact (Nat.zero_add _).symm
  | cons text rest ih =>
      rw [List.cons_append, breaksIn_cons, ih, breaksIn_cons, Nat.add_assoc]

/-- Texts with separators between them have the line feeds of both. -/
theorem breaks_intercalate (separator : String) (texts : List String) :
    breaks (separator.intercalate texts) =
      (texts.length - 1) * breaks separator + breaksIn texts := by
  induction texts with
  | nil => exact (Nat.zero_mul _).symm
  | cons text rest ih =>
      cases rest with
      | nil => simp
      | cons second others =>
          rw [String.intercalate_cons_cons, breaks_append, breaks_append, ih, breaksIn_cons text]
          simp only [List.length_cons, Nat.add_sub_cancel, Nat.succ_mul]
          omega

theorem breaksIn_eq_zero_iff {texts : List String} :
    breaksIn texts = 0 ↔ ∀ text ∈ texts, '\n' ∉ text.toList := by
  induction texts with
  | nil => simp
  | cons text rest ih => simp [Nat.add_eq_zero_iff, ih, breaks_eq_zero_iff]

/-! ## Numbers -/

namespace Number

theorem breaks_signed {magnitude : List Char} (plain : '\n' ∉ magnitude) (n : Number) :
    breaks (n.signed magnitude) = 0 := by
  rw [breaks_eq_zero_iff, signed, String.toList_ofList]
  split
  · simp [plain]
  · exact plain

theorem breaks_wholeText (n : Number) : breaks n.wholeText = 0 :=
  breaks_signed (Numeral.toDigits n.wholePart).lineFeed_not_mem n

theorem breaks_plainText (n : Number) : breaks n.plainText = 0 := by
  rw [plainText]
  split
  · exact breaks_signed (Numeral.positional _).lineFeed_not_mem n
  · split
    · exact breaks_signed (by decide) n
    · decide

theorem breaks_tokenText (n : Number) : breaks n.tokenText = 0 := by
  rw [tokenText]
  split
  · rw [breaks_append, repr_toInt]
    split
    · decide
    · rw [breaks_wholeText]
      decide
  · exact breaks_plainText n

theorem breaks_treeText (n : Number) : breaks n.treeText = 0 := by
  rw [treeText]
  split
  · rw [breaks_append, breaks_wholeText]
    decide
  · exact breaks_plainText n

end Number

/-! ## Tokens -/

/-- The text that a kind of token denotes, if it is a string. -/
def Kind.texts : Kind → List String
  | .string text => [text]
  | _ => []

/-- The texts that the strings of a source text denote, in order. -/
def textsOf (source : String) : List String :=
  (scannedTokens (scan source)).flatMap fun t => t.kind.texts

theorem Kind.breaks_name (kind : Kind) : breaks kind.name = 0 := by
  cases kind with
  | mark mark => cases mark <;> decide
  | keyword keyword => cases keyword <;> decide
  | string _ => exact (by decide : breaks "STRING" = 0)
  | number _ => exact (by decide : breaks "NUMBER" = 0)
  | newline | identifier | endOfInput => decide

/-- A lexeme that is no line break has the line feeds of the text it denotes. -/
theorem Lexeme.breaks_eq {kind : Kind} {text : String} (lexeme : Lexeme kind text.toList)
    (other : kind ≠ .newline) : breaks text = breaksIn kind.texts := by
  by_cases quoted : ∃ body, kind = .string body
  · obtain ⟨_, rfl⟩ := quoted
    generalize written : text.toList = letters at lexeme
    cases lexeme with
    | string =>
      rw [breaks, written, Kind.texts, breaksIn_cons, breaks, String.toList_ofList]
      simp
  · have unquoted : ∀ body, kind ≠ .string body := fun body same => quoted ⟨body, same⟩
    have nothing : kind.texts = [] := by
      unfold Kind.texts
      split
      · exact absurd rfl (unquoted _)
      · rfl
    rw [nothing, breaksIn_nil, breaks_eq_zero_iff]
    exact lexeme.lineFeed_not_mem other unquoted

theorem mem_scannedTokens {items : List (Except Diagnostic Token)} {t : Token} :
    t ∈ scannedTokens items ↔ .ok t ∈ items := by
  rw [scannedTokens, List.mem_filterMap]
  constructor
  · rintro ⟨item, listed, found⟩
    cases item with
    | error => cases found
    | ok u => exact Option.some.inj found ▸ listed
  · exact fun listed => ⟨_, listed, rfl⟩

namespace Token

variable {source : String} {t : Token}

theorem breaks_listedLexeme (scanned : t ∈ scannedTokens (scan source)) :
    breaks t.listedLexeme = breaksIn t.kind.texts := by
  rw [listedLexeme]
  split
  · next newline =>
      rw [newline]
      decide
  · next other =>
      rcases eq_inputEnd_or_lexeme (mem_scannedTokens.mp scanned) with ⟨line, rfl⟩ | lexeme
      · rfl
      · exact lexeme.breaks_eq other

theorem breaks_listedLiteral (t : Token) : breaks t.listedLiteral = breaksIn t.kind.texts := by
  have nothing : breaks "null" = 0 := by decide
  obtain ⟨kind, lexeme, line⟩ := t
  cases kind with
  | string text => exact (Nat.add_zero _).symm
  | number value => exact value.breaks_tokenText
  | mark | keyword | newline | identifier | endOfInput => exact nothing

/-- A listed token has the line feeds of the text it denotes, twice. -/
theorem breaks_listing (scanned : t ∈ scannedTokens (scan source)) :
    breaks t.listing = 2 * breaksIn t.kind.texts := by
  have space : breaks " " = 0 := by decide
  rw [listing, breaks_append, breaks_append, breaks_append, breaks_append, t.kind.breaks_name,
    space, breaks_listedLexeme scanned, breaks_listedLiteral]
  omega

end Token

end Rill
