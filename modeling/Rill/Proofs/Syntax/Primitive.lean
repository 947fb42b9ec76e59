import Rill.Proofs.Syntax.Grammar

/-!
# What the smallest parsers read

For every parser that is not made of others: when it succeeds, what it answers, and where it stops.
A token of a kind is either read or lacking (`Cursor.reads_or_lacks`), which decides all of them.
-/

namespace Rill

variable {α β : Type}

namespace Cursor

/-- The next token is not of a kind. -/
def Lacks (kind : Kind) (c : Cursor) : Prop := ∀ t ∈ c.upcoming.head?, t.kind ≠ kind

/-- The input ends here. -/
def IsAtEnd (c : Cursor) : Prop := c.upcoming = []

/-- A body ends here, with its closing brace or with the input. -/
def EndsBody (c : Cursor) : Prop := c.IsAtEnd ∨ ∃ t c₁, c.Reads (.mark .rightBrace) t c₁

variable {c c₁ c₂ : Cursor} {t u : Token} {kind other : Kind}

theorem Reads.kind_eq (reads : c.Reads kind t c₁) : t.kind = kind := by
  cases reads
  assumption

theorem Reads.upcoming_eq (reads : c.Reads kind t c₁) : c.upcoming = t :: c₁.upcoming := by
  cases reads
  rfl

theorem Reads.endLine_eq (reads : c.Reads kind t c₁) : c₁.endLine = c.endLine := by
  cases reads
  rfl

theorem Reads.fresh_eq (reads : c.Reads kind t c₁) : c₁.fresh = c.fresh := by
  cases reads
  rfl

theorem Reads.length_eq (reads : c.Reads kind t c₁) :
    c.upcoming.length = c₁.upcoming.length + 1 := by
  rw [reads.upcoming_eq, List.length_cons]

/-- A token stands at a place whatever kind it is called by. -/
theorem Reads.self (reads : c.Reads kind t c₁) : c.Reads t.kind t c₁ := by
  rw [reads.kind_eq]
  exact reads

/-- One token stands at a place, and one place is right behind it. -/
theorem Reads.unique (first : c.Reads kind t c₁) (second : c.Reads other u c₂) :
    t = u ∧ c₁ = c₂ := by
  cases first
  cases second
  exact ⟨rfl, rfl⟩

/-- A place where a token is read lacks every other kind. -/
theorem Reads.lacks (reads : c.Reads kind t c₁) (different : kind ≠ other) : c.Lacks other := by
  intro next present
  rw [reads.upcoming_eq, List.head?_cons, Option.mem_some_iff] at present
  rw [← present, reads.kind_eq]
  exact different

theorem Reads.not_lacks (reads : c.Reads kind t c₁) : ¬ c.Lacks kind := by
  intro lacks
  exact lacks t (by simp [reads.upcoming_eq]) reads.kind_eq

theorem Reads.not_isAtEnd (reads : c.Reads kind t c₁) : ¬ c.IsAtEnd := by
  intro ended
  have present := reads.upcoming_eq
  rw [ended] at present
  exact List.cons_ne_nil _ _ present.symm

theorem IsAtEnd.lacks (ended : c.IsAtEnd) : c.Lacks kind := by
  intro next present
  rw [ended, List.head?_nil] at present
  exact absurd present (Option.not_mem_none next)

theorem Reads.endsBody_iff (reads : c.Reads kind t c₁) :
    c.EndsBody ↔ t.kind = .mark .rightBrace := by
  constructor
  · rintro (ended | ⟨u, c₂, other⟩)
    · exact absurd ended reads.not_isAtEnd
    · rw [(reads.unique other).1, other.kind_eq]
  · intro same
    exact .inr ⟨t, c₁, same ▸ reads.self⟩

theorem EndsBody.lacks (ends : c.EndsBody) (different : .mark .rightBrace ≠ kind) :
    c.Lacks kind := by
  rcases ends with ended | ⟨t, c₁, reads⟩
  · exact ended.lacks
  · exact reads.lacks different

/-- Either the input ends, or some token stands at a place. -/
theorem isAtEnd_or_reads (c : Cursor) : c.IsAtEnd ∨ ∃ t c₁, c.Reads t.kind t c₁ := by
  obtain ⟨upcoming, endLine, fresh⟩ := c
  cases upcoming with
  | nil => exact .inl rfl
  | cons t rest => exact .inr ⟨t, _, .next rfl⟩

/-- Either a token of a kind stands at a place, or the place lacks it. -/
theorem reads_or_lacks (kind : Kind) (c : Cursor) : (∃ t c₁, c.Reads kind t c₁) ∨ c.Lacks kind := by
  rcases c.isAtEnd_or_reads with ended | ⟨t, c₁, reads⟩
  · exact .inr ended.lacks
  · by_cases same : t.kind = kind
    · exact .inl ⟨t, c₁, same ▸ reads⟩
    · exact .inr (reads.lacks same)

@[simp] theorem numbered_upcoming (c : Cursor) : c.numbered.upcoming = c.upcoming := rfl

@[simp] theorem numbered_endLine (c : Cursor) : c.numbered.endLine = c.endLine := rfl

@[simp] theorem numbered_fresh (c : Cursor) : c.numbered.fresh = c.fresh + 1 := rfl

@[simp] theorem lacks_numbered : c.numbered.Lacks kind ↔ c.Lacks kind := Iff.rfl

theorem skipNewlines_of_lacks (lacks : c.Lacks .newline) : c.skipNewlines = c := by
  obtain ⟨upcoming, endLine, fresh⟩ := c
  cases upcoming with
  | nil => rfl
  | cons t rest => simp [skipNewlines, lacks t (by simp)]

theorem skipNewlines_of_reads (reads : c.Reads .newline t c₁) :
    c.skipNewlines = c₁.skipNewlines := by
  cases reads with
  | next newline => simp [skipNewlines, newline]

end Cursor

namespace Grammar

variable {c c₁ c₂ : Cursor}

/-- The line breaks up to where they are skipped to. -/
theorem Newlines.skip (c : Cursor) : Newlines c c.skipNewlines := by
  obtain ⟨upcoming, endLine, fresh⟩ := c
  induction upcoming with
  | nil => exact .none
  | cons t rest ih =>
      by_cases newline : t.kind = .newline
      · have reads : Cursor.Reads .newline ⟨t :: rest, endLine, fresh⟩ t ⟨rest, endLine, fresh⟩ :=
          .next newline
        rw [Cursor.skipNewlines_of_reads reads]
        exact .more reads ih
      · rw [Cursor.skipNewlines_of_lacks (by
          intro next present
          rw [List.head?_cons, Option.mem_some_iff] at present
          exact present ▸ newline)]
        exact .none

/-- Line breaks that stop before something else are all that is skipped. -/
theorem Newlines.skipNewlines_eq (breaks : Newlines c c₁) (lacks : c₁.Lacks .newline) :
    c.skipNewlines = c₁ := by
  induction breaks with
  | none => exact Cursor.skipNewlines_of_lacks lacks
  | more reads _ ih => rw [Cursor.skipNewlines_of_reads reads, ih lacks]

end Grammar

/-! ## Parsers made of others -/

namespace Parser

variable {p : Parser α} {f : α → Parser β} {a : α} {b : β} {c c₁ c₂ : Cursor} {t : Token}
  {kind : Kind}

/-- A sequence succeeds if and only if its parts do, each from where the former one stopped. -/
theorem bind_eq_ok : (p >>= f) c = .ok b c₂ ↔ ∃ a c₁, p c = .ok a c₁ ∧ f a c₁ = .ok b c₂ := by
  change EStateM.bind p f c = _ ↔ _
  delta EStateM.bind
  cases p c with
  | ok a c₁ =>
      constructor
      · intro ran
        exact ⟨a, c₁, rfl, ran⟩
      · rintro ⟨a, c₁, first, second⟩
        cases first
        exact second
  | error fault c₁ =>
      constructor
      · intro ran
        cases ran
      · rintro ⟨a, c₁, first, _⟩
        cases first

/-- Behind a part that succeeds, a sequence is what follows the part. -/
theorem bind_of_eq_ok (ran : p c = .ok a c₁) : (p >>= f) c = f a c₁ := by
  change EStateM.bind p f c = _
  delta EStateM.bind
  rw [ran]

@[simp] theorem pure_apply (a : α) (c : Cursor) : (pure a : Parser α) c = .ok a c := rfl

/-- A parser whose answer is changed succeeds where it succeeds itself. -/
theorem map_eq_ok {g : α → β} : (g <$> p) c = .ok b c₁ ↔ ∃ a, p c = .ok a c₁ ∧ g a = b := by
  change EStateM.map g p c = _ ↔ _
  unfold EStateM.map
  cases p c with
  | ok a c₂ =>
      constructor
      · intro ran
        cases ran
        exact ⟨a, rfl, rfl⟩
      · rintro ⟨a, ran, rfl⟩
        cases ran
        rfl
  | error fault c₂ => simp

@[simp] theorem refuse_apply (line : Nat) (fault : SyntaxFault) (c : Cursor) :
    (refuse line fault : Parser α) c = .error ⟨line, .grammar fault⟩ c := rfl

@[simp] theorem want_apply (wanted : Wanted) (c : Cursor) :
    (want wanted : Parser α) c = .error ⟨c.line, .grammar (.expected wanted c.found)⟩ c := rfl

@[simp] theorem overfull_apply (listed : Listed) (c : Cursor) :
    (overfull listed : Parser α) c = .error ⟨c.line, .grammar (.tooMany listed c.found)⟩ c := rfl

@[simp] theorem get_apply (c : Cursor) : (get : Parser Cursor) c = .ok c c := rfl

theorem peek?_of_reads (reads : c.Reads kind t c₁) : peek? c = .ok (some t) c := by
  cases reads
  rfl

theorem peek?_of_isAtEnd (ended : c.IsAtEnd) : peek? c = .ok none c := by
  change EStateM.Result.ok c.upcoming.head? c = _
  rw [ended, List.head?_nil]

theorem skip_of_reads (reads : c.Reads kind t c₁) : skip c = .ok () c₁ := by
  cases reads
  rfl

theorem accept?_of_reads (reads : c.Reads kind t c₁) : accept? kind c = .ok (some t) c₁ := by
  have same := reads.kind_eq
  refine bind_eq_ok.mpr ⟨some t, c, peek?_of_reads reads, ?_⟩
  simp only [same, ↓reduceIte]
  exact bind_eq_ok.mpr ⟨(), c₁, skip_of_reads reads, rfl⟩

theorem accept?_of_lacks (lacks : c.Lacks kind) : accept? kind c = .ok none c := by
  rcases c.isAtEnd_or_reads with ended | ⟨t, c₁, reads⟩
  · exact bind_eq_ok.mpr ⟨none, c, peek?_of_isAtEnd ended, rfl⟩
  · have different : t.kind ≠ kind := lacks t (by simp [reads.upcoming_eq])
    refine bind_eq_ok.mpr ⟨some t, c, peek?_of_reads reads, ?_⟩
    simp only [different, ↓reduceIte, pure_apply]

/-- A token is read if it is of the kind, and nothing is read if it is not. -/
theorem accept?_eq_ok {answer : Option Token} :
    accept? kind c = .ok answer c₁ ↔
      (∃ t, answer = some t ∧ c.Reads kind t c₁) ∨ answer = none ∧ c.Lacks kind ∧ c = c₁ := by
  rcases c.reads_or_lacks kind with ⟨t, c₂, reads⟩ | lacks
  · rw [accept?_of_reads reads]
    constructor
    · intro same
      cases same
      exact .inl ⟨t, rfl, reads⟩
    · rintro (⟨u, rfl, other⟩ | ⟨_, lacks, _⟩)
      · obtain ⟨rfl, rfl⟩ := reads.unique other
        rfl
      · exact absurd lacks reads.not_lacks
  · rw [accept?_of_lacks lacks]
    constructor
    · intro same
      cases same
      exact .inr ⟨rfl, lacks, rfl⟩
    · rintro (⟨u, _, reads⟩ | ⟨rfl, _, rfl⟩)
      · exact absurd lacks reads.not_lacks
      · rfl

theorem accept_eq_ok {answer : Bool} :
    accept kind c = .ok answer c₁ ↔
      (answer = true ∧ ∃ t, c.Reads kind t c₁) ∨ answer = false ∧ c.Lacks kind ∧ c = c₁ := by
  rw [show accept kind = accept? kind >>= fun answer => pure answer.isSome from rfl, bind_eq_ok]
  constructor
  · rintro ⟨found, c₂, ran, ended⟩
    cases ended
    rcases accept?_eq_ok.mp ran with ⟨t, rfl, reads⟩ | ⟨rfl, lacks, rfl⟩
    · exact .inl ⟨rfl, t, reads⟩
    · exact .inr ⟨rfl, lacks, rfl⟩
  · rintro (⟨rfl, t, reads⟩ | ⟨rfl, lacks, rfl⟩)
    · exact ⟨some t, c₁, accept?_of_reads reads, rfl⟩
    · exact ⟨none, c, accept?_of_lacks lacks, rfl⟩

/-- A token that is asked for is read, and nothing else succeeds. -/
theorem expect_eq_ok {wanted : Wanted} : expect kind wanted c = .ok t c₁ ↔ c.Reads kind t c₁ := by
  constructor
  · intro ran
    obtain ⟨found, c₂, ran, ended⟩ := bind_eq_ok.mp ran
    rcases accept?_eq_ok.mp ran with ⟨u, rfl, reads⟩ | ⟨rfl, _, rfl⟩
    · cases ended
      exact reads
    · simp at ended
  · intro reads
    exact bind_eq_ok.mpr ⟨some t, c₁, accept?_of_reads reads, rfl⟩

theorem identifier_eq_ok {wanted : Wanted} {name : Ident} :
    identifier wanted c = .ok name c₁ ↔ ∃ t, c.Reads .identifier t c₁ ∧ name = t.ident := by
  rw [show identifier wanted = expect .identifier wanted >>= fun t => pure t.ident from rfl,
    bind_eq_ok]
  constructor
  · rintro ⟨t, c₂, ran, ended⟩
    cases ended
    exact ⟨t, expect_eq_ok.mp ran, rfl⟩
  · rintro ⟨t, reads, rfl⟩
    exact ⟨t, c₁, expect_eq_ok.mpr reads, rfl⟩

@[simp] theorem skipNewlines_apply (c : Cursor) : skipNewlines c = .ok () c.skipNewlines := rfl

@[simp] theorem freshOccurrence_apply (c : Cursor) :
    freshOccurrence c = .ok c.fresh c.numbered := rfl

theorem sees_of_reads (reads : c.Reads kind t c₁) : sees kind c = .ok true c := by
  refine bind_eq_ok.mpr ⟨some t, c, peek?_of_reads reads, ?_⟩
  simp only [reads.kind_eq, decide_true, pure_apply]

theorem sees_of_lacks (lacks : c.Lacks kind) : sees kind c = .ok false c := by
  rcases c.isAtEnd_or_reads with ended | ⟨t, c₁, reads⟩
  · exact bind_eq_ok.mpr ⟨none, c, peek?_of_isAtEnd ended, rfl⟩
  · have different : t.kind ≠ kind := lacks t (by simp [reads.upcoming_eq])
    refine bind_eq_ok.mpr ⟨some t, c, peek?_of_reads reads, ?_⟩
    simp only [different, decide_false, pure_apply]

/-- Looking for a kind reads nothing. -/
theorem sees_eq_ok {answer : Bool} :
    sees kind c = .ok answer c₁ ↔ c = c₁ ∧ (answer = false ↔ c.Lacks kind) := by
  rcases c.reads_or_lacks kind with ⟨t, c₂, reads⟩ | lacks
  · simp [sees_of_reads reads, reads.not_lacks, eq_comm, and_comm]
  · simp [sees_of_lacks lacks, lacks, eq_comm, and_comm]

/-! ## Ends -/

theorem atBodyEnd_of_isAtEnd (ended : c.IsAtEnd) : atBodyEnd c = .ok true c :=
  bind_eq_ok.mpr ⟨none, c, peek?_of_isAtEnd ended, rfl⟩

theorem atBodyEnd_of_reads (reads : c.Reads kind t c₁) :
    atBodyEnd c = .ok (decide (kind = .mark .rightBrace)) c := by
  refine bind_eq_ok.mpr ⟨some t, c, peek?_of_reads reads, ?_⟩
  simp only [reads.kind_eq, pure_apply]

/-- A body ends before a closing brace and at the end of the input. -/
theorem atBodyEnd_eq_ok {answer : Bool} :
    atBodyEnd c = .ok answer c₁ ↔ c = c₁ ∧ (answer = true ↔ c.EndsBody) := by
  rcases c.isAtEnd_or_reads with ended | ⟨t, c₂, reads⟩
  · have ends : c.EndsBody := .inl ended
    simp [atBodyEnd_of_isAtEnd ended, ends, eq_comm, and_comm]
  · have ends : c.EndsBody ↔ t.kind = .mark .rightBrace := reads.endsBody_iff
    rw [atBodyEnd_of_reads reads, EStateM.Result.ok.injEq, ends, and_comm]
    cases answer <;> simp

theorem atStatementEnd_of_isAtEnd (ended : c.IsAtEnd) : atStatementEnd c = .ok true c :=
  bind_eq_ok.mpr ⟨none, c, peek?_of_isAtEnd ended, rfl⟩

theorem atStatementEnd_of_reads (reads : c.Reads kind t c₁) :
    atStatementEnd c = .ok
      (decide (kind = .newline ∨ kind = .mark .semicolon ∨ kind = .mark .rightBrace)) c := by
  refine bind_eq_ok.mpr ⟨some t, c, peek?_of_reads reads, ?_⟩
  simp only [reads.kind_eq, pure_apply]

/-- Looking for the end of a statement reads nothing. -/
theorem atStatementEnd_eq_ok {answer : Bool} (ran : atStatementEnd c = .ok answer c₁) :
    c = c₁ := by
  rcases c.isAtEnd_or_reads with ended | ⟨t, c₂, reads⟩
  · rw [atStatementEnd_of_isAtEnd ended] at ran
    cases ran
    rfl
  · rw [atStatementEnd_of_reads reads] at ran
    cases ran
    rfl

/-- Before the end of a body nothing is read to end a statement. -/
theorem endStatement_of_endsBody {what : LineEnd} (ends : c.EndsBody) :
    endStatement what c = .ok () c := by
  have noBreak : c.Lacks .newline := ends.lacks (by decide)
  have noSemicolon : c.Lacks (.mark .semicolon) := ends.lacks (by decide)
  refine bind_eq_ok.mpr ⟨false, c, accept_eq_ok.mpr (.inr ⟨rfl, noBreak, rfl⟩), ?_⟩
  refine bind_eq_ok.mpr ⟨false, c, accept_eq_ok.mpr (.inr ⟨rfl, noSemicolon, rfl⟩), ?_⟩
  exact bind_eq_ok.mpr ⟨true, c, atBodyEnd_eq_ok.mpr ⟨rfl, by simp [ends]⟩, rfl⟩

/-- What ends a statement is read, unless it ends what is around the statement as well. -/
theorem endStatement_eq_ok {what : LineEnd} {answer : Unit} :
    endStatement what c = .ok answer c₁ ↔ Grammar.Ending c c₁ := by
  constructor
  · intro ran
    simp only [endStatement, bind_eq_ok, accept_eq_ok] at ran
    rcases ran with ⟨_, c₂, ⟨rfl, t, reads⟩ | ⟨rfl, _, rfl⟩, ran⟩
    · cases ran
      exact .newline reads
    · simp only [Bool.false_eq_true, ↓reduceIte, bind_eq_ok, accept_eq_ok] at ran
      rcases ran with ⟨_, c₂, ⟨rfl, t, reads⟩ | ⟨rfl, _, rfl⟩, ran⟩
      · cases ran
        exact .semicolon reads
      · simp only [Bool.false_eq_true, ↓reduceIte, bind_eq_ok, atBodyEnd_eq_ok] at ran
        obtain ⟨answer, c₂, ⟨rfl, ends⟩, ran⟩ := ran
        cases answer with
        | false => simp at ran
        | true =>
            cases ran
            rcases ends.mp rfl with ended | ⟨t, c₁, reads⟩
            · exact .beforeEnd ended
            · exact .beforeBrace reads
  · intro ending
    cases ending with
    | newline reads => exact bind_eq_ok.mpr ⟨true, c₁, accept_eq_ok.mpr (.inl ⟨rfl, _, reads⟩), rfl⟩
    | semicolon reads =>
        have noBreak : c.Lacks .newline := reads.lacks (by decide)
        refine bind_eq_ok.mpr ⟨false, c, accept_eq_ok.mpr (.inr ⟨rfl, noBreak, rfl⟩), ?_⟩
        exact bind_eq_ok.mpr ⟨true, c₁, accept_eq_ok.mpr (.inl ⟨rfl, _, reads⟩), rfl⟩
    | beforeBrace reads => exact endStatement_of_endsBody (.inr ⟨_, _, reads⟩)
    | beforeEnd ended => exact endStatement_of_endsBody (.inl ended)

end Parser

end Rill
