import Mathlib.Data.List.TakeWhile

/-!
# Forms

An outline is made of words and of lists in parentheses, with spaces between the parts of a list. If
no word has a space, a parenthesis or a line break in it, then a text is that of one form at most,
also where more text follows.
-/

namespace Rill

/-- What an outline is made of: a word, or a list of forms in parentheses. -/
inductive Form
  | word (text : String)
  | list (parts : List Form)

namespace Form

/-! ## How forms are written -/

mutual

/-- The characters of a form. -/
def chars : Form → List Char
  | word text => text.toList
  | list parts => '(' :: ([' '].intercalate (charsAll parts) ++ [')'])

/-- The characters of each of some forms. -/
def charsAll : List Form → List (List Char)
  | [] => []
  | part :: rest => part.chars :: charsAll rest

end

theorem charsAll_eq (parts : List Form) : charsAll parts = parts.map chars := by
  induction parts with
  | nil => rfl
  | cons part rest ih => rw [charsAll, ih, List.map_cons]

/-- Forms, each behind a separator. -/
def behind (separator : Char) (parts : List Form) : List Char :=
  parts.flatMap fun part => separator :: part.chars

@[simp]
theorem behind_nil (separator : Char) : behind separator [] = [] := rfl

@[simp]
theorem behind_cons (separator : Char) (part : Form) (rest : List Form) :
    behind separator (part :: rest) = separator :: (part.chars ++ behind separator rest) := by
  rw [behind, List.flatMap_cons, List.cons_append]
  rfl

/-- Forms with separators between them are the first one, and the others behind separators. -/
theorem intercalate_cons (separator : Char) (part : Form) (rest : List Form) :
    [separator].intercalate ((part :: rest).map chars) = part.chars ++ behind separator rest := by
  induction rest generalizing part with
  | nil => simp
  | cons next rest ih =>
      rw [List.map_cons, List.map_cons, List.intercalate_cons_cons, ← List.map_cons, ih,
        behind_cons, List.append_assoc]
      rfl

@[simp]
theorem chars_word (text : String) : (word text).chars = text.toList := rfl

theorem chars_list (parts : List Form) :
    (list parts).chars = '(' :: ([' '].intercalate (parts.map chars) ++ [')']) := by
  rw [chars, charsAll_eq]

@[simp]
theorem chars_list_cons (part : Form) (rest : List Form) :
    (list (part :: rest)).chars = '(' :: (part.chars ++ behind ' ' rest ++ [')']) := by
  rw [chars_list, intercalate_cons]

/-! ## Words -/

/-- The characters that no word has. -/
def isDelimiter (c : Char) : Bool := c = ' ' || c = '(' || c = ')' || c = '\n'

/-- A text that is taken for a word wherever it stands in an outline. -/
structure IsWord (text : String) : Prop where
  ne_empty : text.toList ≠ []
  plain : ∀ c ∈ text.toList, isDelimiter c = false

/-- A form all of whose words are taken for words. -/
inductive Legible : Form → Prop
  | word {text : String} : IsWord text → Legible (.word text)
  | list {parts : List Form} : (∀ part ∈ parts, Legible part) → Legible (.list parts)

/-- What can follow a form: nothing, or a character that no word has. -/
def Stops (rest : List Char) : Prop := ∀ c ∈ rest.head?, isDelimiter c = true

theorem stops_cons {c : Char} (delimiter : isDelimiter c = true) (rest : List Char) :
    Stops (c :: rest) := by
  intro d first
  cases Option.mem_some.mp first
  exact delimiter

theorem stops_behind {separator : Char} (delimiter : isDelimiter separator = true)
    (parts : List Form) {rest : List Char} (stops : Stops rest) :
    Stops (behind separator parts ++ rest) := by
  cases parts with
  | nil => exact stops
  | cons part parts =>
      rw [behind_cons]
      exact stops_cons delimiter _

/-- Where a word ends is seen from what follows it. -/
theorem IsWord.eq_of_append {text other : String} (isWord : IsWord text) (isWord' : IsWord other)
    {rest rest' : List Char} (stops : Stops rest) (stops' : Stops rest')
    (same : text.toList ++ rest = other.toList ++ rest') : text = other ∧ rest = rest' := by
  have up_to {word : String} (isWord : IsWord word) {rest : List Char} (stops : Stops rest) :
      (word.toList ++ rest).takeWhile (fun c => !isDelimiter c) = word.toList := by
    rw [List.takeWhile_append_of_pos fun c present => by rw [isWord.plain c present]; rfl]
    cases rest with
    | nil => exact List.append_nil _
    | cons c rest =>
        rw [List.takeWhile_cons_of_neg (by simp [stops c rfl]), List.append_nil]
  have words : text.toList = other.toList := by
    rw [← up_to isWord stops, same, up_to isWord' stops']
  exact ⟨String.toList_inj.mp words, List.append_cancel_left (words ▸ same)⟩

/-- A word begins with no parenthesis. -/
theorem IsWord.append_ne_cons {text : String} (isWord : IsWord text) {c : Char}
    (delimiter : isDelimiter c = true) (rest rest' : List Char) :
    text.toList ++ rest ≠ c :: rest' := by
  obtain ⟨first, more, begins⟩ := List.exists_cons_of_ne_nil isWord.ne_empty
  have plain := isWord.plain first (begins ▸ List.mem_cons_self)
  rw [begins, List.cons_append]
  intro same
  rw [(List.cons.inj same).1, delimiter] at plain
  cases plain

/-! ## A text is that of one form -/

/-- What follows a form is what is left of a text that begins with it, and so is the form. -/
def Sole (form : Form) : Prop :=
  ∀ {other : Form} {rest rest' : List Char}, other.Legible → Stops rest → Stops rest' →
    form.chars ++ rest = other.chars ++ rest' → form = other ∧ rest = rest'

theorem behind_eq {separator : Char} (delimiter : isDelimiter separator = true)
    {parts others : List Form} (sole : ∀ part ∈ parts, part.Sole)
    (legible : ∀ other ∈ others, other.Legible) {rest rest' : List Char}
    (stops : Stops rest) (stops' : Stops rest') (ends : separator ∉ rest.head?)
    (ends' : separator ∉ rest'.head?)
    (same : behind separator parts ++ rest = behind separator others ++ rest') :
    parts = others ∧ rest = rest' := by
  induction parts generalizing others with
  | nil =>
      cases others with
      | nil => exact ⟨rfl, same⟩
      | cons other others =>
          rw [behind_cons, List.cons_append] at same
          have empty : behind separator [] ++ rest = rest := rfl
          rw [← empty, same] at ends
          exact absurd rfl ends
  | cons part parts ih =>
      cases others with
      | nil =>
          rw [behind_cons, List.cons_append] at same
          have empty : behind separator [] ++ rest' = rest' := rfl
          rw [← empty, ← same] at ends'
          exact absurd rfl ends'
      | cons other others =>
          rw [behind_cons, behind_cons, List.cons_append, List.cons_append, List.append_assoc,
            List.append_assoc] at same
          obtain ⟨rfl, remains⟩ := sole part List.mem_cons_self
            (legible other List.mem_cons_self) (stops_behind delimiter parts stops)
            (stops_behind delimiter others stops') (List.cons.inj same).2
          obtain ⟨rfl, left⟩ := ih (fun p listed => sole p (List.mem_cons_of_mem _ listed))
            (fun p listed => legible p (List.mem_cons_of_mem _ listed)) remains
          exact ⟨rfl, left⟩

/-- Forms with separators between them tell which forms they are. -/
theorem intercalate_eq {separator : Char} (delimiter : isDelimiter separator = true)
    {parts others : List Form} (sole : ∀ part ∈ parts, part.Sole)
    (legible : ∀ other ∈ others, other.Legible) {rest rest' : List Char}
    (stops : Stops rest) (stops' : Stops rest') (ends : separator ∉ rest.head?)
    (ends' : separator ∉ rest'.head?) (none : ∀ part ∈ parts, ∀ more, part.chars ++ more ≠ rest')
    (none' : ∀ other ∈ others, ∀ more, other.chars ++ more ≠ rest)
    (same : [separator].intercalate (parts.map chars) ++ rest =
      [separator].intercalate (others.map chars) ++ rest') :
    parts = others ∧ rest = rest' := by
  cases parts with
  | nil =>
      cases others with
      | nil => exact ⟨rfl, same⟩
      | cons other others =>
          rw [intercalate_cons, List.append_assoc] at same
          exact absurd same.symm (none' other List.mem_cons_self _)
  | cons part parts =>
      cases others with
      | nil =>
          rw [intercalate_cons, List.append_assoc] at same
          exact absurd same (none part List.mem_cons_self _)
      | cons other others =>
          rw [intercalate_cons, intercalate_cons, List.append_assoc, List.append_assoc] at same
          obtain ⟨rfl, remains⟩ := sole part List.mem_cons_self
            (legible other List.mem_cons_self) (stops_behind delimiter parts stops)
            (stops_behind delimiter others stops') same
          obtain ⟨rfl, left⟩ := behind_eq delimiter
            (fun p listed => sole p (List.mem_cons_of_mem _ listed))
            (fun p listed => legible p (List.mem_cons_of_mem _ listed)) stops stops' ends ends'
            remains
          exact ⟨rfl, left⟩

/-- No form begins with the end of a list. -/
theorem Legible.chars_ne_close {form : Form} (legible : form.Legible) (more rest : List Char) :
    form.chars ++ more ≠ ')' :: rest := by
  cases legible with
  | word isWord => exact isWord.append_ne_cons rfl more rest
  | list _ =>
      intro same
      rw [chars, List.cons_append] at same
      cases same

/-- No form is empty. -/
theorem Legible.chars_ne_nil {form : Form} (legible : form.Legible) (more : List Char) :
    form.chars ++ more ≠ [] := by
  intro same
  cases legible with
  | word isWord => exact isWord.ne_empty (List.append_eq_nil_iff.mp same).1
  | list _ => cases (List.append_eq_nil_iff.mp same).1

/-- Where a legible form ends, and which one it is, is seen from the text. -/
theorem Legible.sole {form : Form} (legible : form.Legible) : form.Sole := by
  induction legible with
  | word isWord =>
      intro other rest rest' legible' stops stops' same
      cases legible' with
      | word isWord' =>
          obtain ⟨rfl, left⟩ := isWord.eq_of_append isWord' stops stops' same
          exact ⟨rfl, left⟩
      | list _ =>
          rw [chars, chars, List.cons_append] at same
          exact absurd same (isWord.append_ne_cons rfl rest _)
  | @list parts legible ih =>
      intro other rest rest' legible' stops stops' same
      cases legible' with
      | word isWord' =>
          rw [chars, chars, List.cons_append] at same
          exact absurd same.symm (isWord'.append_ne_cons rfl rest' _)
      | @list others legible' =>
          have close (rest : List Char) : Stops (')' :: rest) := stops_cons rfl rest
          rw [chars_list, chars_list, List.cons_append, List.cons_append, List.append_assoc,
            List.append_assoc] at same
          obtain ⟨rfl, left⟩ := intercalate_eq rfl ih legible' (close rest) (close rest')
            (by simp) (by simp) (fun p listed more => (legible p listed).chars_ne_close more rest')
            (fun p listed more => (legible' p listed).chars_ne_close more rest)
            (List.cons.inj same).2
          exact ⟨rfl, (List.cons.inj left).2⟩

/-- Lines of legible forms tell which forms they are. -/
theorem eq_of_lines_eq {parts others : List Form} (legible : ∀ part ∈ parts, part.Legible)
    (legible' : ∀ other ∈ others, other.Legible)
    (same : ['\n'].intercalate (parts.map chars) = ['\n'].intercalate (others.map chars)) :
    parts = others := by
  have nothing : Stops [] := fun _ first => absurd first (Option.not_mem_none _)
  have newline : isDelimiter '\n' = true := rfl
  rw [← List.append_nil (['\n'].intercalate (parts.map chars)),
    ← List.append_nil (['\n'].intercalate (others.map chars))] at same
  exact (intercalate_eq newline (fun p listed => (legible p listed).sole) legible' nothing nothing
    (Option.not_mem_none _) (Option.not_mem_none _)
    (fun p listed => (legible p listed).chars_ne_nil)
    (fun p listed => (legible' p listed).chars_ne_nil) same).1

end Form

end Rill
