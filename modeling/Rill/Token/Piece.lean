import Rill.Diagnostic
import Rill.Number.Reading
import Rill.Token.Basic

/-!
# Pieces of a source text

A source text is cut, left to right, into pieces: tokens, layout that separates them, and text that
is neither. `cut` takes the longest piece at a place; `pieces` cuts a whole text. Nothing is lost
(`flatMap_text_pieces`).
-/

namespace Rill

/-- What a piece of source text is. -/
inductive Role
  | token (kind : Kind)
  /-- A blank or a comment. -/
  | layout
  | fault (fault : LexicalFault)
deriving DecidableEq

/-- A piece of source text. -/
structure Piece where
  role : Role
  text : List Char
deriving DecidableEq

namespace Piece

/-- The marks that are one character and start no longer one. -/
def loneMark? : Char → Option Mark
  | '(' => some .leftParen
  | ')' => some .rightParen
  | '{' => some .leftBrace
  | '}' => some .rightBrace
  | ',' => some .comma
  | '.' => some .dot
  | '-' => some .minus
  | '+' => some .plus
  | ';' => some .semicolon
  | '*' => some .star
  | _ => none

/-- The marks that an equals sign may extend, alone and extended. -/
def extensibleMark? : Char → Option (Mark × Mark)
  | '!' => some (.bang, .bangEqual)
  | '=' => some (.equal, .equalEqual)
  | '<' => some (.less, .lessEqual)
  | '>' => some (.greater, .greaterEqual)
  | _ => none

/-- The blanks that separate tokens within a line. -/
def isBlank (c : Char) : Bool := c = ' ' || c = '\r' || c = '\t'

/-- The characters that an identifier or keyword starts with: ASCII letters and the underscore. -/
def startsWord (c : Char) : Bool := c.isAlpha || c = '_'

/-- The characters that an identifier or keyword goes on with. -/
def continuesWord (c : Char) : Bool := c.isAlphanum || c = '_'

/-- A token and what follows it. -/
def tokenCut (kind : Kind) (text rest : List Char) : Piece × List Char :=
  (⟨.token kind, text⟩, rest)

/-- Cuts a mark that an equals sign may extend. -/
def cutExtensible (c : Char) (alone extended : Mark) : List Char → Piece × List Char
  | '=' :: rest => tokenCut (.mark extended) [c, '='] rest
  | rest => tokenCut (.mark alone) [c] rest

/-- Cuts a slash, or a comment up to the end of its line. -/
def cutSlash : List Char → Piece × List Char
  | '/' :: rest =>
    (⟨.layout, '/' :: '/' :: rest.takeWhile (· ≠ '\n')⟩, rest.dropWhile (· ≠ '\n'))
  | rest => tokenCut (.mark .slash) ['/'] rest

/-- Cuts a string, given what follows its opening quote. Without a closing quote all is at fault. -/
def cutString (rest : List Char) : Piece × List Char :=
  let body := rest.takeWhile (· ≠ '"')
  match rest.dropWhile (· ≠ '"') with
  | quote :: after => tokenCut (.string (String.ofList body)) ('"' :: (body ++ [quote])) after
  | [] => (⟨.fault .unterminatedString, '"' :: body⟩, [])

/-- Cuts a number that starts with the digit `c`. A point belongs to it if a digit follows. -/
def cutNumber (c : Char) (rest : List Char) : Piece × List Char :=
  let whole := c :: rest.takeWhile Char.isDigit
  match rest.dropWhile Char.isDigit with
  | '.' :: d :: after =>
    if d.isDigit then
      let fraction := d :: after.takeWhile Char.isDigit
      tokenCut (.number (Number.ofDigits whole fraction)) (whole ++ '.' :: fraction)
        (after.dropWhile Char.isDigit)
    else tokenCut (.number (Number.ofDigits whole [])) whole ('.' :: d :: after)
  | after => tokenCut (.number (Number.ofDigits whole [])) whole after

/-- What a word is: a keyword if it is reserved, else an identifier. -/
def wordKind (word : List Char) : Kind :=
  match Keyword.ofText? (String.ofList word) with
  | some keyword => .keyword keyword
  | none => .identifier

/-- Cuts an identifier or keyword that starts with `c`. -/
def cutWord (c : Char) (rest : List Char) : Piece × List Char :=
  let word := c :: rest.takeWhile continuesWord
  tokenCut (wordKind word) word (rest.dropWhile continuesWord)

/-- Cuts the longest piece off a text that starts with `c`, and gives what follows it. -/
def cut (c : Char) (rest : List Char) : Piece × List Char :=
  match loneMark? c with
  | some mark => tokenCut (.mark mark) [c] rest
  | none =>
    match extensibleMark? c with
    | some (alone, extended) => cutExtensible c alone extended rest
    | none =>
      if c = '\n' then tokenCut .newline [c] rest
      else if c = '/' then cutSlash rest
      else if c = '"' then cutString rest
      else if isBlank c then (⟨.layout, [c]⟩, rest)
      else if c.isDigit then cutNumber c rest
      else if startsWord c then cutWord c rest
      else (⟨.fault (.unexpected c), [c]⟩, rest)

/-! ## Nothing is lost -/

theorem cutExtensible_text (c : Char) (alone extended : Mark) (rest : List Char) :
    (cutExtensible c alone extended rest).1.text ++ (cutExtensible c alone extended rest).2 =
      c :: rest := by
  unfold cutExtensible
  split <;> simp [tokenCut]

theorem cutSlash_text (rest : List Char) :
    (cutSlash rest).1.text ++ (cutSlash rest).2 = '/' :: rest := by
  unfold cutSlash
  split
  · simp [List.takeWhile_append_dropWhile]
  · simp [tokenCut]

theorem cutString_text (rest : List Char) :
    (cutString rest).1.text ++ (cutString rest).2 = '"' :: rest := by
  have whole := @List.takeWhile_append_dropWhile Char (· ≠ '"') rest
  unfold cutString
  dsimp only
  split
  · next quote after tail =>
      rw [tail] at whole
      simpa [tokenCut] using whole
  · next tail =>
      rw [tail] at whole
      simpa using whole

theorem cutNumber_text (c : Char) (rest : List Char) :
    (cutNumber c rest).1.text ++ (cutNumber c rest).2 = c :: rest := by
  have whole := @List.takeWhile_append_dropWhile Char Char.isDigit rest
  unfold cutNumber
  dsimp only
  split
  · next d after tail =>
      rw [tail] at whole
      split
      · have fraction := @List.takeWhile_append_dropWhile Char Char.isDigit after
        simpa [tokenCut, fraction] using whole
      · simpa [tokenCut] using whole
  · simp [tokenCut]

theorem cutWord_text (c : Char) (rest : List Char) :
    (cutWord c rest).1.text ++ (cutWord c rest).2 = c :: rest := by
  simp [cutWord, tokenCut, List.takeWhile_append_dropWhile]

/-- A piece and what follows it make up the text that was cut. -/
theorem cut_text (c : Char) (rest : List Char) :
    (cut c rest).1.text ++ (cut c rest).2 = c :: rest := by
  unfold cut
  split
  · simp [tokenCut]
  · split
    · exact cutExtensible_text ..
    · split
      · simp [tokenCut]
      · split
        · next slash => subst slash; exact cutSlash_text rest
        · split
          · next quote => subst quote; exact cutString_text rest
          · split
            · simp
            · split
              · exact cutNumber_text c rest
              · split
                · exact cutWord_text c rest
                · simp

/-- No piece is empty. -/
theorem cut_text_ne_nil (c : Char) (rest : List Char) : (cut c rest).1.text ≠ [] := by
  unfold cut
  repeat' split
  all_goals
    simp only [tokenCut, cutExtensible, cutSlash, cutString, cutNumber, cutWord]
    repeat' split
    all_goals simp

/-- Cutting leaves a shorter text. -/
theorem length_cut_le (c : Char) (rest : List Char) : (cut c rest).2.length ≤ rest.length := by
  have total := congrArg List.length (cut_text c rest)
  have some := List.length_pos_iff.mpr (cut_text_ne_nil c rest)
  simp only [List.length_append, List.length_cons] at total
  omega

end Piece

/-- The pieces of a source text, in order. -/
def pieces : List Char → List Piece
  | [] => []
  | c :: rest => (Piece.cut c rest).1 :: pieces (Piece.cut c rest).2
termination_by text => text.length
decreasing_by exact Nat.lt_succ_of_le (Piece.length_cut_le c rest)

/-- The pieces, put together again, are the source text. -/
theorem flatMap_text_pieces (text : List Char) : (pieces text).flatMap Piece.text = text := by
  fun_induction pieces text with
  | case1 => rfl
  | case2 c rest ih => rw [List.flatMap_cons, ih, Piece.cut_text]

end Rill
