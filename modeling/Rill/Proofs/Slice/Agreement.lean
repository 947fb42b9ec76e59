import Rill.Proofs.Slice.Tape
import Rill.Proofs.Syntax.Soundness

/-!
# Reading by index agrees with parsing

Every rule for readers of a slice agrees with the parser of the same name, whatever bounds the two
are given above the number of tokens left. So no such bound is ever met: each round of a loop and
each nesting stands behind a token of its own.
-/

namespace Rill.Slice

variable {α : Type} {T : Tape} {n : Nat} {s : Spot} {t : Token} {kind : Kind}

/-! ## Tokens -/

/-- A kind either lacks at a spot, or is that of the next token, which can be moved past. -/
theorem seen_cases (here : T.tokens[s.current]? = some t) (kind : Kind) :
    ((T.cursor s).Lacks kind ∧ sees T.tokens kind s = .ok false s) ∨
      (t.kind ≠ .endOfInput ∧ (T.cursor s).Reads kind t (T.cursor s.next) ∧ T.Inside s.next ∧
        sees T.tokens kind s = .ok true s ∧ advance T.tokens s = .ok t s.next) := by
  rcases Tape.token_cases here with ⟨rfl, _, ended⟩ | ⟨inner, next, reads⟩
  · refine .inl ⟨ended.lacks, ?_⟩
    rw [sees, bind_of_ok (isAtEnd_of_token here), decide_eq_true T.closed]
    rfl
  · by_cases same : t.kind = kind
    · exact .inr ⟨inner, same ▸ reads, next, sees_of_eq here same inner,
        advance_of_token here inner⟩
    · exact .inl ⟨reads.lacks same, sees_of_ne here same⟩

theorem agrees_sees : T.Agrees n (sees T.tokens kind) (Parser.sees kind) := by
  refine agrees_of_token fun s t inside here _ => ?_
  rcases seen_cases here kind with ⟨lacks, sees⟩ | ⟨_, reads, _, sees, _⟩
  · rw [sees, Parser.sees_of_lacks lacks]
    exact .ok (Nat.le_refl _) inside
  · rw [sees, Parser.sees_of_reads reads]
    exact .ok (Nat.le_refl _) inside

theorem agrees_accept : T.Agrees n (accept T.tokens kind) (Parser.accept kind) := by
  refine agrees_of_token fun s t inside here _ => ?_
  rcases seen_cases here kind with ⟨lacks, sees⟩ | ⟨_, reads, next, sees, moves⟩
  · rw [accept, bind_of_ok sees, Parser.accept_eq_ok.mpr (.inr ⟨rfl, lacks, rfl⟩)]
    exact .ok (Nat.le_refl _) inside
  · rw [accept, bind_of_ok sees, Parser.accept_eq_ok.mpr (.inl ⟨rfl, t, reads⟩)]
    simp only [↓reduceIte]
    rw [bind_of_ok moves]
    exact .ok (Nat.le_succ _) next

theorem agrees_want {wanted : Wanted} :
    T.Agrees n (want T.tokens wanted : Reader α) (Parser.want wanted) := by
  refine agrees_of_token fun s t inside here _ => ?_
  rw [want, refuseHere_of_token here, Parser.want_apply, Tape.cursor_line here,
    Tape.cursor_found here]
  exact .refused (Nat.le_refl _) (Nat.le_refl _) inside here rfl

theorem agrees_overfull {listed : Listed} :
    T.Agrees n (refuseHere T.tokens (.tooMany listed) : Reader α) (Parser.overfull listed) := by
  refine agrees_of_token fun s t inside here _ => ?_
  rw [refuseHere_of_token here, Parser.overfull_apply, Tape.cursor_line here,
    Tape.cursor_found here]
  exact .refused (Nat.le_refl _) (Nat.le_refl _) inside here rfl

theorem agrees_expect {wanted : Wanted} :
    T.Agrees n (expect T.tokens kind wanted) (Parser.expect kind wanted) := by
  refine agrees_of_token fun s t inside here left => ?_
  rcases seen_cases here kind with ⟨lacks, sees⟩ | ⟨_, reads, next, sees, moves⟩
  · rw [expect, bind_of_ok sees, Parser.expect, bind_of_ok (Parser.accept?_of_lacks lacks)]
    exact agrees_want inside left
  · rw [expect, bind_of_ok sees, Parser.expect_eq_ok.mpr reads]
    simp only [↓reduceIte]
    rw [moves]
    exact .ok (Nat.le_succ _) next

theorem consumes_accept : Consumes (Parser.accept kind) true := by
  intro c c₁ ran
  rcases Parser.accept_eq_ok.mp ran with ⟨_, t, reads⟩ | ⟨absent, _⟩
  · exact reads.passes.length_lt
  · cases absent

theorem consumes_expect {wanted : Wanted} : Consumes (Parser.expect kind wanted) t :=
  fun _ _ ran => (Parser.expect_eq_ok.mp ran).passes.length_lt

theorem agrees_identifier {wanted : Wanted} :
    T.Agrees n (identifier T.tokens wanted) (Parser.identifier wanted) :=
  agrees_expect.bind fun _ => .pure _

/-- Behind a token that is read, agreement up to a smaller bound will do. -/
theorem Tape.Agrees.accept {reader reader' : Reader α} {parser parser' : Parser α}
    (yes : T.Agrees n reader parser) (no : T.Agrees (n + 1) reader' parser') :
    T.Agrees (n + 1) (Slice.accept T.tokens kind >>= fun found => if found then reader else reader')
      (Parser.accept kind >>= fun found => if found then parser else parser') := by
  refine agrees_accept.bindPast fun found => ?_
  cases found with
  | true => exact .inr ⟨consumes_accept, yes⟩
  | false => exact .inl no

theorem Tape.Agrees.expect {β : Type} {wanted : Wanted} {f : Token → Reader β}
    {g : Token → Parser β} (rest : ∀ t, T.Agrees n (f t) (g t)) :
    T.Agrees (n + 1) (Slice.expect T.tokens kind wanted >>= f)
      (Parser.expect kind wanted >>= g) :=
  agrees_expect.bindPast fun t => .inr ⟨consumes_expect, rest t⟩

/-- What a reader does behind a token of a kind, and what it does otherwise. -/
theorem accept_bind {f : Bool → Reader α} (here : T.tokens[s.current]? = some t) :
    (accept T.tokens kind >>= f) s =
      if t.kind = kind ∧ t.kind ≠ .endOfInput then f true s.next else f false s := by
  rcases seen_cases here kind with ⟨lacks, sees⟩ | ⟨inner, reads, _, sees, moves⟩
  · rw [if_neg]
    · exact bind_of_ok (bind_of_ok sees)
    · intro stands
      exact (Tape.reads_of_token here stands.2).2.not_lacks (stands.1 ▸ lacks)
  · rw [if_pos ⟨reads.kind_eq, inner⟩]
    exact bind_of_ok (accept_of_eq here reads.kind_eq inner)

/-! ## Line breaks -/

/-- The index of the first token from an index on that is no line break. -/
def Tape.behind (T : Tape) (index : Nat) : Nat :=
  index + ((T.body.drop index).takeWhile (·.kind = .newline)).length

theorem behind_of_newline (here : T.tokens[s.current]? = some t) (newline : t.kind = .newline) :
    T.behind s.current = T.behind s.next.current := by
  have inner : t.kind ≠ .endOfInput := by simp [newline]
  have left := (Tape.reads_of_token here inner).2.upcoming_eq
  simp only [Tape.cursor] at left
  rw [Tape.behind, left, List.takeWhile_cons_of_pos (by simp [newline]), List.length_cons,
    Tape.behind, Spot.next_current]
  omega

theorem behind_of_ne (here : T.tokens[s.current]? = some t) (other : t.kind ≠ .newline) :
    T.behind s.current = s.current := by
  have lacks := Tape.lacks_of_token here other
  rw [Tape.behind]
  cases left : T.body.drop s.current with
  | nil => rfl
  | cons u rest =>
      have : u.kind ≠ .newline := lacks u (by simp [Tape.cursor, left])
      rw [List.takeWhile_cons_of_neg (by simpa using this)]
      rfl

/-- The spot behind all line breaks. -/
def Tape.settled (T : Tape) (s : Spot) : Spot := { s with current := T.behind s.current }

theorem inside_settled (inside : T.Inside s) : T.Inside (T.settled s) := by
  have short : ((T.body.drop s.current).takeWhile (·.kind = .newline)).length ≤
      (T.body.drop s.current).length := (List.takeWhile_sublist _).length_le
  rw [List.length_drop] at short
  unfold Tape.Inside Tape.settled Tape.behind at *
  dsimp only at *
  omega

theorem le_settled : s.current ≤ (T.settled s).current := Nat.le_add_right ..

/-- What is dropped is as much as is taken. -/
theorem drop_length_takeWhile (p : Token → Bool) (ts : List Token) :
    ts.drop (ts.takeWhile p).length = ts.dropWhile p :=
  calc
    ts.drop (ts.takeWhile p).length =
        (ts.takeWhile p ++ ts.dropWhile p).drop (ts.takeWhile p).length := by
      rw [List.takeWhile_append_dropWhile]
    _ = ts.dropWhile p := List.drop_left

theorem cursor_settled : T.cursor (T.settled s) = (T.cursor s).skipNewlines := by
  rw [Tape.cursor, Tape.settled, Tape.behind, ← List.drop_drop, drop_length_takeWhile]
  rfl

theorem skipNewlines_eq (inside : T.Inside s) {bound : Nat}
    (left : T.body.length < bound + s.current) :
    skipNewlines T.tokens bound s = .ok () (T.settled s) := by
  induction bound generalizing s with
  | zero => exact absurd left (by unfold Tape.Inside at inside; omega)
  | succ bound ih =>
      obtain ⟨t, here⟩ := inside.exists_token
      rw [skipNewlines]
      by_cases newline : t.kind = .newline
      · have inner : t.kind ≠ .endOfInput := by simp [newline]
        rw [bind_of_ok (accept_of_eq here newline inner)]
        have rest := ih (Tape.reads_of_token here inner).1 (by simp; omega)
        rw [Tape.settled, ← behind_of_newline here newline] at rest
        exact rest
      · rw [bind_of_ok (accept_of_ne here newline), Tape.settled, behind_of_ne here newline]
        rfl

theorem agrees_skipNewlines {limit : Nat} (below : n ≤ limit) :
    T.Agrees n (skipNewlines T.tokens limit) Parser.skipNewlines := by
  intro s inside left
  rw [skipNewlines_eq inside (by omega), Parser.skipNewlines_apply, ← cursor_settled]
  exact .ok le_settled (inside_settled inside)

theorem behindNewlines_eq {index bound : Nat} (inside : index ≤ T.body.length)
    (left : T.body.length < bound + index) :
    behindNewlines T.tokens bound index s = .ok (T.behind index) s := by
  induction bound generalizing index with
  | zero => exact absurd left (by omega)
  | succ bound ih =>
      obtain ⟨t, there⟩ := Tape.Inside.exists_token (s := ⟨index, 0⟩) inside
      rw [behindNewlines, bind_of_ok (tokenAt_of_token there)]
      by_cases newline : t.kind = .newline
      · have inner : t.kind ≠ .endOfInput := by simp [newline]
        have next := (Tape.reads_of_token there inner).1
        rw [if_pos newline, behind_of_newline there newline]
        exact ih next (by omega)
      · rw [if_neg newline, behind_of_ne there newline]
        rfl

theorem agrees_acceptElse {limit : Nat} (below : n ≤ limit) :
    T.Agrees n (acceptBehindNewlines T.tokens limit (.keyword .elseWord)) Parser.acceptElse := by
  intro s inside left
  obtain ⟨t, there⟩ := (inside_settled inside).exists_token
  have found : tokenAt T.tokens (T.behind s.current) s = .ok t s := tokenAt_of_token there
  rw [acceptBehindNewlines, bind_of_ok (current_apply s),
    bind_of_ok (behindNewlines_eq inside (by omega)), bind_of_ok found]
  by_cases same : t.kind = .keyword .elseWord
  · have inner : t.kind ≠ .endOfInput := by simp [same]
    obtain ⟨next, reads⟩ := Tape.reads_of_token there inner
    rw [same, cursor_settled] at reads
    have moved : moveTo T.tokens (T.behind s.current + 1) s = .ok () (T.settled s).next := by
      rw [moveTo, if_pos]
      · rfl
      · rw [Tape.length_tokens]
        exact Nat.lt_succ_of_le next
    rw [if_pos same, bind_of_ok moved, Parser.acceptElse_of_reads reads]
    exact .ok (Nat.le_succ_of_le le_settled) next
  · have lacks := Tape.lacks_of_token there same
    rw [cursor_settled] at lacks
    rw [if_neg same, Parser.acceptElse_of_lacks lacks]
    exact .ok (Nat.le_refl _) inside

/-! ## Ends of bodies and statements -/

theorem agrees_atBodyEnd : T.Agrees n (atBodyEnd T.tokens) Parser.atBodyEnd := by
  refine agrees_of_token fun s t inside here _ => ?_
  rw [atBodyEnd]
  rcases Tape.token_cases here with ⟨rfl, _, ended⟩ | ⟨inner, next, reads⟩
  · rw [bind_of_ok (sees_of_ne here (by simp [T.closed])), if_neg Bool.false_ne_true,
      isAtEnd_of_token here, decide_eq_true T.closed, Parser.atBodyEnd_of_isAtEnd ended]
    exact .ok (Nat.le_refl _) inside
  · rw [Parser.atBodyEnd_of_reads reads, bind_of_ok (sees_of_inner here inner)]
    by_cases brace : t.kind = .mark .rightBrace
    · simp only [brace, decide_true, ↓reduceIte]
      exact .ok (Nat.le_refl _) inside
    · simp only [brace, decide_false, Bool.false_eq_true, ↓reduceIte]
      rw [isAtEnd_of_token here, decide_eq_false inner]
      exact .ok (Nat.le_refl _) inside

theorem agrees_atStatementEnd : T.Agrees n (atStatementEnd T.tokens) Parser.atStatementEnd := by
  refine agrees_of_token fun s t inside here _ => ?_
  rw [atStatementEnd, bind_of_ok (isAtEnd_of_token here)]
  rcases Tape.token_cases here with ⟨rfl, _, ended⟩ | ⟨inner, next, reads⟩
  · rw [Parser.atStatementEnd_of_isAtEnd ended, decide_eq_true T.closed]
    exact .ok (Nat.le_refl _) inside
  · rw [Parser.atStatementEnd_of_reads reads, decide_eq_false inner, if_neg Bool.false_ne_true,
      bind_of_ok (sees_of_inner here inner)]
    by_cases newline : t.kind = .newline
    · simp only [newline, decide_true, ↓reduceIte, true_or]
      exact .ok (Nat.le_refl _) inside
    · simp only [newline, decide_false, Bool.false_eq_true, ↓reduceIte, false_or]
      rw [bind_of_ok (sees_of_inner here inner)]
      by_cases semicolon : t.kind = .mark .semicolon
      · simp only [semicolon, decide_true, ↓reduceIte, true_or]
        exact .ok (Nat.le_refl _) inside
      · simp only [semicolon, decide_false, Bool.false_eq_true, ↓reduceIte, false_or]
        rw [sees_of_inner here inner]
        exact .ok (Nat.le_refl _) inside

theorem agrees_endStatement {what : LineEnd} :
    T.Agrees n (endStatement T.tokens what) (Parser.endStatement what) :=
  agrees_accept.bind fun _ => .ite (.pure ()) <|
    agrees_accept.bind fun _ => .ite (.pure ()) <|
      agrees_atBodyEnd.bind fun _ => .ite (.pure ()) agrees_want

/-! ## Bodies and lists -/

/-- Each item of a body is behind a token that the one in front of it has read. -/
theorem agrees_bodyItems {limit : Nat} {item : Reader α} {item' : Parser α}
    (items : T.Agrees n item item') (consumes : ∀ a, Consumes item' a) (below : n ≤ limit)
    {bound bound' : Nat} (fits : n ≤ bound) (fits' : n ≤ bound') :
    T.Agrees n (bodyItems T.tokens limit item bound) (Parser.bodyItems item' bound') := by
  refine .rounds (p := fun b (_ : Unit) => bodyItems T.tokens limit item b)
    (q := fun b _ => Parser.bodyItems item' b) fits fits' () fun less _ _ rest _ => ?_
  refine (agrees_skipNewlines (Nat.le_trans less below)).bind fun _ => ?_
  refine agrees_atBodyEnd.bind fun _ => .ite (.pure _) ?_
  refine (items.mono less).bindPast fun first => .inr ⟨consumes first, ?_⟩
  exact (rest ()).bind fun _ => .pure _

theorem agrees_separated (listed : Listed) {item : Reader α} {item' : Parser α}
    {separator : Reader Bool} {separator' : Parser Bool} (items : T.Agrees n item item')
    (separators : T.Agrees n separator separator') (room : Nat) :
    T.Agrees n (separated T.tokens listed item separator room)
      (Parser.separated listed item' separator' room) := by
  induction room with
  | zero => exact agrees_overfull
  | succ room ih =>
      refine items.bind fun _ => separators.bind fun _ => ?_
      exact .ite (ih.bind fun _ => .pure _) (.pure _)

end Rill.Slice
