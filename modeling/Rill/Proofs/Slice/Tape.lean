import Rill.Proofs.Slice.Reader
import Rill.Proofs.Syntax.Connectives

/-!
# A slice that the end of the input closes

A reader of a slice and a parser of the tokens that are left agree at a spot if they answer the
same and stop at the same token, or report the same fault there. That the reader answers at all says
that it has looked at no index outside of the slice, and that it has met no bound. Agreement is
closed under sequences, in which a bound may fall by one for each token that is read.
-/

namespace Rill.Slice

open EStateM (Result)

variable {α β : Type}

/-- The spot behind the next token. -/
def Spot.next (s : Spot) : Spot := { s with current := s.current + 1 }

@[simp] theorem Spot.next_current (s : Spot) : s.next.current = s.current + 1 := rfl

/-- Tokens, none of which is the end of the input, and the end of the input behind them. -/
structure Tape where
  body : List Token
  ending : Token
  inner : ∀ t ∈ body, t.kind ≠ .endOfInput
  closed : ending.kind = .endOfInput

namespace Tape

variable (T : Tape)

/-- The slice of all tokens of a tape. -/
def tokens : List Token := T.body ++ [T.ending]

/-- What is left to read from a spot on. -/
def cursor (s : Spot) : Cursor := ⟨T.body.drop s.current, T.ending.line, s.fresh⟩

/-- A spot is within the slice. -/
def Inside (s : Spot) : Prop := s.current ≤ T.body.length

variable {T} {s s' : Spot} {t : Token} {kind : Kind}

theorem length_tokens : T.tokens.length = T.body.length + 1 := by
  simp [tokens]

theorem Inside.exists_token (inside : T.Inside s) : ∃ t, T.tokens[s.current]? = some t := by
  refine ⟨_, List.getElem?_eq_getElem ?_⟩
  rw [length_tokens]
  exact Nat.lt_succ_of_le inside

theorem inside_of_token (here : T.tokens[s.current]? = some t) : T.Inside s := by
  have within := (List.getElem?_eq_some_iff.mp here).1
  rw [length_tokens] at within
  exact Nat.le_of_lt_succ within

/-- The end of the input stands last, and any other token is the next one that is left to read. -/
theorem token_cases (here : T.tokens[s.current]? = some t) :
    (t = T.ending ∧ s.current = T.body.length ∧ (T.cursor s).IsAtEnd) ∨
      t.kind ≠ .endOfInput ∧ T.Inside s.next ∧ (T.cursor s).Reads t.kind t (T.cursor s.next) := by
  rcases Nat.lt_or_eq_of_le (inside_of_token here) with within | last
  · rw [tokens, List.getElem?_append_left within] at here
    refine .inr ⟨T.inner t (List.mem_of_getElem? here), within, ?_⟩
    have left : T.body.drop s.current = t :: T.body.drop (s.current + 1) := by
      rw [List.drop_eq_getElem_cons within, (List.getElem?_eq_some_iff.mp here).2]
    rw [cursor, left]
    exact .next rfl
  · rw [tokens, last, List.getElem?_concat_length, Option.some.injEq] at here
    refine .inl ⟨here.symm, last, ?_⟩
    rw [Cursor.IsAtEnd, cursor, last, List.drop_length]

theorem reads_of_token (here : T.tokens[s.current]? = some t) (other : t.kind ≠ .endOfInput) :
    T.Inside s.next ∧ (T.cursor s).Reads t.kind t (T.cursor s.next) := by
  rcases token_cases here with ⟨rfl, _⟩ | ⟨_, reads⟩
  · exact absurd T.closed other
  · exact reads

/-- What lacks a kind is what no token of the kind stands at. -/
theorem lacks_of_token (here : T.tokens[s.current]? = some t) (other : t.kind ≠ kind) :
    (T.cursor s).Lacks kind := by
  rcases token_cases here with ⟨_, _, ended⟩ | ⟨_, _, reads⟩
  · exact ended.lacks
  · exact reads.lacks other

theorem cursor_line (here : T.tokens[s.current]? = some t) : (T.cursor s).line = t.line := by
  rcases token_cases here with ⟨rfl, _, ended⟩ | ⟨_, _, reads⟩
  · rw [Cursor.line, ended]
    rfl
  · rw [Cursor.line, reads.upcoming_eq]

theorem cursor_found (here : T.tokens[s.current]? = some t) : (T.cursor s).found = found t := by
  rcases token_cases here with ⟨rfl, _, ended⟩ | ⟨other, _, reads⟩
  · rw [Cursor.found, ended, found, T.closed]
  · rw [Cursor.found, reads.upcoming_eq, found]
    cases kind : t.kind with
    | endOfInput => exact absurd kind other
    | _ => simp [kind]

end Tape

/-! ## Sequences -/

theorem bind_of_ok {ε σ : Type} {p : EStateM ε σ α} {f : α → EStateM ε σ β} {s s' : σ} {a : α}
    (ran : p s = .ok a s') : (p >>= f) s = f a s' := by
  change EStateM.bind p f s = _
  delta EStateM.bind
  rw [ran]

theorem bind_of_error {ε σ : Type} {p : EStateM ε σ α} {f : α → EStateM ε σ β} {s s' : σ} {e : ε}
    (ran : p s = .error e s') : (p >>= f) s = .error e s' := by
  change EStateM.bind p f s = _
  delta EStateM.bind
  rw [ran]

/-! ## The smallest readers -/

section Primitives

variable {T : Tape} {s : Spot} {t : Token} {kind : Kind}

theorem current_apply (s : Spot) : current s = .ok s.current s := rfl

theorem tokenAt_of_token {index : Nat} (there : T.tokens[index]? = some t) :
    tokenAt T.tokens index s = .ok t s := by
  rw [tokenAt, there]
  rfl

theorem peek_of_token (here : T.tokens[s.current]? = some t) : peek T.tokens s = .ok t s :=
  (bind_of_ok (current_apply s)).trans (tokenAt_of_token here)

theorem previous_next (here : T.tokens[s.current]? = some t) :
    previous T.tokens s.next = .ok t s.next :=
  (bind_of_ok (current_apply s.next)).trans (tokenAt_of_token here)

theorem isAtEnd_of_token (here : T.tokens[s.current]? = some t) :
    isAtEnd T.tokens s = .ok (decide (t.kind = .endOfInput)) s :=
  bind_of_ok (peek_of_token here)

theorem advance_of_token (here : T.tokens[s.current]? = some t) (other : t.kind ≠ .endOfInput) :
    advance T.tokens s = .ok t s.next := by
  obtain ⟨inside, _⟩ := Tape.reads_of_token here other
  have moved : moveTo T.tokens (s.current + 1) s = .ok () s.next := by
    rw [moveTo, if_pos]
    · rfl
    · rw [Tape.length_tokens]
      exact Nat.lt_succ_of_le inside
  rw [advance, bind_of_ok (isAtEnd_of_token here)]
  simp only [other, decide_false, Bool.false_eq_true, ↓reduceIte]
  rw [bind_of_ok (current_apply s), bind_of_ok moved]
  exact previous_next here

theorem sees_of_ne (here : T.tokens[s.current]? = some t) (other : t.kind ≠ kind) :
    sees T.tokens kind s = .ok false s := by
  rw [sees, bind_of_ok (isAtEnd_of_token here)]
  split
  · rfl
  · rw [bind_of_ok (peek_of_token here), decide_eq_false other]
    rfl

theorem sees_of_eq (here : T.tokens[s.current]? = some t) (same : t.kind = kind)
    (inner : t.kind ≠ .endOfInput) : sees T.tokens kind s = .ok true s := by
  rw [sees, bind_of_ok (isAtEnd_of_token here), decide_eq_false inner]
  simp only [Bool.false_eq_true, ↓reduceIte]
  rw [bind_of_ok (peek_of_token here), decide_eq_true same]
  rfl

theorem sees_of_inner (here : T.tokens[s.current]? = some t) (inner : t.kind ≠ .endOfInput) :
    sees T.tokens kind s = .ok (decide (t.kind = kind)) s := by
  by_cases same : t.kind = kind
  · rw [sees_of_eq here same inner, decide_eq_true same]
  · rw [sees_of_ne here same, decide_eq_false same]

theorem accept_of_ne (here : T.tokens[s.current]? = some t) (other : t.kind ≠ kind) :
    accept T.tokens kind s = .ok false s :=
  bind_of_ok (sees_of_ne here other)

theorem accept_of_eq (here : T.tokens[s.current]? = some t) (same : t.kind = kind)
    (inner : t.kind ≠ .endOfInput) : accept T.tokens kind s = .ok true s.next := by
  rw [accept, bind_of_ok (sees_of_eq here same inner)]
  simp only [↓reduceIte]
  rw [bind_of_ok (advance_of_token here inner)]
  rfl

theorem refuseHere_of_token {fault : Found → SyntaxFault}
    (here : T.tokens[s.current]? = some t) :
    (refuseHere T.tokens fault : Reader α) s =
      .error (.refused s.current ⟨t.line, .grammar (fault (found t))⟩) s := by
  rw [refuseHere, bind_of_ok (peek_of_token here)]
  exact bind_of_ok (current_apply s)

end Primitives

/-! ## Agreement -/

/--
What a reader answers from an index on and what a parser answers are the same, and so is where they
stop, which is within the slice and not in front of the index. A fault is reported at a token that
has been looked at, and has its line.
-/
inductive Tape.Answers (T : Tape) (start : Nat) :
    Result Stop Spot α → Result Diagnostic Cursor α → Prop
  | ok {a : α} {s : Spot} (onward : start ≤ s.current) (inside : T.Inside s) :
      T.Answers start (.ok a s) (.ok a (T.cursor s))
  | refused {index : Nat} {fault : Diagnostic} {s : Spot} {t : Token} (onward : start ≤ index)
      (seen : index ≤ s.current) (inside : T.Inside s) (there : T.tokens[index]? = some t)
      (line : fault.line = t.line) :
      T.Answers start (.error (.refused index fault) s) (.error fault (T.cursor s))

/-- A reader and a parser agree where fewer tokens are left than the bound. -/
def Tape.Agrees (T : Tape) (n : Nat) (reader : Reader α) (parser : Parser α) : Prop :=
  ∀ ⦃s : Spot⦄, T.Inside s → T.body.length < n + s.current →
    T.Answers s.current (reader s) (parser (T.cursor s))

/-- A parser reads a token whenever it gives an answer. -/
def Consumes (parser : Parser α) (a : α) : Prop :=
  ∀ ⦃c c₁ : Cursor⦄, parser c = .ok a c₁ → c₁.upcoming.length < c.upcoming.length

variable {T : Tape} {n m start : Nat} {s : Spot} {t : Token} {kind : Kind}

theorem Tape.Answers.of_le {earlier : Nat} {result : Result Stop Spot α}
    {parsed : Result Diagnostic Cursor α} (answers : T.Answers start result parsed)
    (le : earlier ≤ start) : T.Answers earlier result parsed := by
  cases answers with
  | ok onward inside => exact .ok (Nat.le_trans le onward) inside
  | refused onward seen inside there line =>
      exact .refused (Nat.le_trans le onward) seen inside there line

/-- Either both give the answer, or both report the fault. -/
theorem Tape.Answers.cases {result : Result Stop Spot α} {parsed : Result Diagnostic Cursor α}
    (answers : T.Answers start result parsed) :
    (∃ a s, result = .ok a s ∧ parsed = .ok a (T.cursor s) ∧ start ≤ s.current ∧ T.Inside s) ∨
      ∃ index fault s, result = .error (.refused index fault) s ∧
        parsed = .error fault (T.cursor s) ∧ start ≤ index ∧ index ≤ s.current ∧ T.Inside s ∧
        ∃ t, T.tokens[index]? = some t ∧ fault.line = t.line := by
  cases answers with
  | ok onward inside => exact .inl ⟨_, _, rfl, rfl, onward, inside⟩
  | refused onward seen inside there line =>
      exact .inr ⟨_, _, _, rfl, rfl, onward, seen, inside, _, there, line⟩

/-- What a reader answers fixes what a parser answers that agrees with it. -/
theorem Tape.Answers.unique {result : Result Stop Spot α}
    {parsed parsed' : Result Diagnostic Cursor α} (answers : T.Answers start result parsed)
    (answers' : T.Answers start result parsed') : parsed = parsed' := by
  cases answers with
  | ok => cases answers'; rfl
  | refused => cases answers'; rfl

/-- A sequence answers like its parts, the second from where the first has stopped. -/
theorem Tape.Answers.bind {reader : Reader α} {parser : Parser α} {f : α → Reader β}
    {g : α → Parser β} {c : Cursor} (first : T.Answers start (reader s) (parser c))
    (rest : ∀ ⦃a : α⦄ ⦃s' : Spot⦄, start ≤ s'.current → T.Inside s' →
      parser c = .ok a (T.cursor s') → T.Answers start (f a s') (g a (T.cursor s'))) :
    T.Answers start ((reader >>= f) s) ((parser >>= g) c) := by
  rcases first.cases with ⟨a, s', ran, parsed, onward, inside⟩ |
    ⟨index, fault, s', ran, parsed, onward, seen, inside, t, there, line⟩
  · rw [bind_of_ok ran, bind_of_ok parsed]
    exact rest onward inside parsed
  · rw [bind_of_error ran, bind_of_error parsed]
    exact .refused onward seen inside there line

namespace Tape.Agrees

variable {reader : Reader α} {parser : Parser α} {f : α → Reader β} {g : α → Parser β}

/-- Nowhere are fewer tokens left than none. -/
theorem zero : T.Agrees 0 reader parser := by
  intro s inside left
  unfold Tape.Inside at inside
  omega

theorem mono (agrees : T.Agrees n reader parser) (le : m ≤ n) : T.Agrees m reader parser :=
  fun _ inside left => agrees inside (by omega)

theorem pure (a : α) : T.Agrees n (pure a) (pure a) := fun _ inside _ => .ok (Nat.le_refl _) inside

theorem bind (first : T.Agrees n reader parser) (rest : ∀ a, T.Agrees n (f a) (g a)) :
    T.Agrees n (reader >>= f) (parser >>= g) := by
  intro s inside left
  refine (first inside left).bind fun a s' onward inside' _ => ?_
  exact (rest a inside' (by omega)).of_le onward

theorem map (agrees : T.Agrees n reader parser) (f : α → β) :
    T.Agrees n (f <$> reader) (f <$> parser) := by
  rw [map_eq_pure_bind, map_eq_pure_bind]
  exact agrees.bind fun a => .pure (f a)

theorem ite {b : Bool} {reader' : Reader α} {parser' : Parser α}
    (yes : T.Agrees n reader parser) (no : T.Agrees n reader' parser') :
    T.Agrees n (if b then reader else reader') (if b then parser else parser') := by
  cases b with
  | true => exact yes
  | false => exact no

/-- Behind an answer for which a token has been read, agreement up to a smaller bound will do. -/
theorem bindPast (first : T.Agrees (n + 1) reader parser)
    (rest : ∀ a, T.Agrees (n + 1) (f a) (g a) ∨ Consumes parser a ∧ T.Agrees n (f a) (g a)) :
    T.Agrees (n + 1) (reader >>= f) (parser >>= g) := by
  intro s inside left
  refine (first inside left).bind fun a s' onward inside' parsed => ?_
  rcases rest a with whole | ⟨consumes, less⟩
  · exact (whole inside' (by omega)).of_le onward
  · have fewer := consumes parsed
    simp only [Tape.cursor, List.length_drop] at fewer
    exact (less inside' (by omega)).of_le onward

/--
Loops and nesting agree within any two bounds above the number of tokens left, if one more round
does behind rounds that agree where less is left. What goes from round to round is an argument.
-/
theorem rounds {ι : Type} {p : Nat → ι → Reader α} {q : Nat → ι → Parser α} {bound bound' : Nat}
    (fits : n ≤ bound) (fits' : n ≤ bound') (i : ι)
    (round : ∀ {m b b' : Nat}, m < n → m ≤ b → m ≤ b' → (∀ i, T.Agrees m (p b i) (q b' i)) →
      ∀ i, T.Agrees (m + 1) (p (b + 1) i) (q (b' + 1) i)) :
    T.Agrees n (p bound i) (q bound' i) := by
  induction n generalizing bound bound' i with
  | zero => exact .zero
  | succ n ih =>
      obtain ⟨bound, rfl⟩ := Nat.exists_eq_succ_of_ne_zero (Nat.ne_zero_of_lt fits)
      obtain ⟨bound', rfl⟩ := Nat.exists_eq_succ_of_ne_zero (Nat.ne_zero_of_lt fits')
      have within := Nat.le_of_succ_le_succ fits
      have within' := Nat.le_of_succ_le_succ fits'
      refine round (Nat.lt_succ_self n) within within' (fun j => ?_) i
      exact ih within within' j fun less => round (Nat.lt_succ_of_lt less)

end Tape.Agrees

/-- A reader and a parser agree if they do for each token that may stand at a spot. -/
theorem agrees_of_token {reader : Reader α} {parser : Parser α}
    (answers : ∀ ⦃s : Spot⦄ ⦃t : Token⦄, T.Inside s → T.tokens[s.current]? = some t →
      T.body.length < n + s.current → T.Answers s.current (reader s) (parser (T.cursor s))) :
    T.Agrees n reader parser := by
  intro s inside left
  obtain ⟨t, here⟩ := inside.exists_token
  exact answers inside here left

end Rill.Slice
