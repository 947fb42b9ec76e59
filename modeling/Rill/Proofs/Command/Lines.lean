import Rill.Command.Response
import Rill.Proofs.Outline.Breaks

/-!
# The lines of listings and outlines

Tokens are listed one on a line, and so are the statements of a program, as long as no string of the
text goes over lines. A line feed in a string breaks the line of its token twice, and that of its
statement once (`lines_of_listings`).
-/

namespace Rill

/-- No string of a text goes over lines. -/
def Unbroken (source : String) : Prop := ∀ text ∈ textsOf source, '\n' ∉ text.toList

theorem unbroken_iff {source : String} : Unbroken source ↔ breaksIn (textsOf source) = 0 :=
  breaksIn_eq_zero_iff.symm

/-! ## Tokens -/

theorem Response.breaks_lines (texts : List String) :
    breaks (lines texts) = texts.length + breaksIn texts := by
  have lineFeed : breaks "\n" = 1 := by decide
  induction texts with
  | nil => rfl
  | cons text rest ih =>
      rw [lines] at ih
      rw [lines, List.map_cons, String.join_cons, breaks_append, breaks_append, ih, lineFeed,
        List.length_cons, breaksIn_cons]
      omega

/-- The tokens of a text are listed with the line feeds of its strings, each of them twice. -/
theorem breaksIn_listings (source : String) :
    breaksIn ((scannedTokens (scan source)).map Token.listing) = 2 * breaksIn (textsOf source) := by
  have listed (t : Token) (scanned : t ∈ scannedTokens (scan source)) :
      breaks t.listing = 2 * breaksIn t.kind.texts := Token.breaks_listing scanned
  rw [textsOf]
  generalize scannedTokens (scan source) = ts at listed
  induction ts with
  | nil => rfl
  | cons t rest ih =>
      obtain ⟨first, others⟩ := List.forall_mem_cons.mp listed
      rw [List.map_cons, breaksIn_cons, first, ih others, List.flatMap_cons, breaksIn_append,
        Nat.mul_add]

/-- Each token is listed on one line if and only if no string goes over lines. -/
theorem lineFeed_not_mem_listing_iff {source : String} :
    (∀ t ∈ scannedTokens (scan source), '\n' ∉ t.listing.toList) ↔ Unbroken source := by
  rw [unbroken_iff, ← List.forall_mem_map (P := fun text : String => '\n' ∉ text.toList),
    ← breaksIn_eq_zero_iff, breaksIn_listings]
  omega

/-! ## Statements -/

theorem Stmt.breaksIn_outlines (statements : List Stmt) :
    breaksIn (statements.map outline) = breaksOf (atomsAll statements) := by
  induction statements with
  | nil => rfl
  | cons s rest ih =>
      rw [List.map_cons, breaksIn_cons, ih, atomsAll, breaksOf_append, ← s.breaks_outline]
      rfl

section Programs

variable {source : String} {fresh last : Occurrence} {program : List Stmt}

/-- The statements of a program are shown with the line feeds of the strings in its text. -/
theorem breaksIn_outlines_of_parseSource (parsed : parseSource source fresh = (.ok program, last)) :
    breaksIn (program.map Stmt.outline) = breaksIn (textsOf source) := by
  rw [Stmt.breaksIn_outlines, breaksOf_eq (written_of_parseSource parsed),
    texts_of_parseSource parsed]

theorem breaks_outlineProgram (parsed : parseSource source fresh = (.ok program, last)) :
    breaks (outlineProgram program) = program.length - 1 + breaksIn (textsOf source) := by
  have lineFeed : breaks "\n" = 1 := by decide
  rw [outlineProgram, breaks_intercalate, lineFeed, Nat.mul_one, List.length_map,
    breaksIn_outlines_of_parseSource parsed]

/-- Each statement is shown on one line if and only if no string goes over lines. -/
theorem lineFeed_not_mem_outline_iff (parsed : parseSource source fresh = (.ok program, last)) :
    (∀ s ∈ program, '\n' ∉ s.outline.toList) ↔ Unbroken source := by
  rw [unbroken_iff, ← List.forall_mem_map (P := fun text : String => '\n' ∉ text.toList),
    ← breaksIn_eq_zero_iff, breaksIn_outlines_of_parseSource parsed]

end Programs

/-! ## Listings -/

/--
Every token of a text is listed on one line, and every statement of its program shown on one, if and
only if no string of the text goes over lines; each line feed in a string makes two lines more of
the listing, and one line more of the outline.
-/
theorem lines_of_listings (source : String) :
    (∃ text, (Command.tokenizeText false source).output = text.toUTF8 ∧
      breaks text = (scannedTokens (scan source)).length + 2 * breaksIn (textsOf source)) ∧
    ((∀ t ∈ scannedTokens (scan source), '\n' ∉ t.listing.toList) ↔ Unbroken source) ∧
    ∀ {fresh last : Occurrence} {program : List Stmt},
      parseSource source fresh = (.ok program, last) →
      breaks (outlineProgram program) = program.length - 1 + breaksIn (textsOf source) ∧
      ((∀ s ∈ program, '\n' ∉ s.outline.toList) ↔ Unbroken source) := by
  refine ⟨⟨_, rfl, ?_⟩, lineFeed_not_mem_listing_iff, fun parsed =>
    ⟨breaks_outlineProgram parsed, lineFeed_not_mem_outline_iff parsed⟩⟩
  have listed := Response.breaks_lines ((scannedTokens (scan source)).map Token.listing)
  rwa [List.length_map, breaksIn_listings] at listed

/-- A program with a string on one line. -/
theorem lines_of_listings_of_one_line :
    let program : List Stmt := [.print (.literal (.string "ab"))]
    parseSource "print \"ab\"" 0 = (.ok program, 0) ∧ Unbroken "print \"ab\"" ∧
      ∀ s ∈ program, '\n' ∉ s.outline.toList := by
  intro program
  have parsed : parseSource "print \"ab\"" 0 = (.ok program, 0) := by with_unfolding_all rfl
  have texts : textsOf "print \"ab\"" = ["ab"] := by decide +kernel
  have unbroken : Unbroken "print \"ab\"" := by
    rw [Unbroken, texts]
    decide
  exact ⟨parsed, unbroken, ((lines_of_listings _).2.2 parsed).2.mpr unbroken⟩

/-- A string over two lines is listed over three, and its statement is shown over two. -/
theorem lines_broken_by_string :
    let t : Token := ⟨.string "a\nb", "\"a\nb\"", 2⟩
    let s : Stmt := .expression (.literal (.string "a\nb"))
    t ∈ scannedTokens (scan "\"a\nb\"") ∧ '\n' ∈ t.listing.toList ∧
      parseSource "\"a\nb\"" 0 = (.ok [s], 0) ∧ '\n' ∈ s.outline.toList := by
  intro t s
  have parsed : parseSource "\"a\nb\"" 0 = (.ok [s], 0) := by with_unfolding_all rfl
  exact ⟨by decide +kernel, by decide +kernel, parsed, by decide +kernel⟩

end Rill
