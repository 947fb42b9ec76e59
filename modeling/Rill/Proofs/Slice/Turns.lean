import Rill.Proofs.Slice.Rules
import Rill.Proofs.Syntax.Recognition
import Rill.Proofs.Token.Lines

/-!
# Reading programs in turns

A program is read in turns, each of which moves past a token at least: it reads a declaration, or it
reports one fault and recovers. Faults are reported where their turns have got to, so they come in
the order of the tokens that they are reported at.
-/

namespace Rill.Slice

variable {T : Tape} {n : Nat} {s : Spot} {t : Token}

/-! ## Recovery -/

/-- By index, the same tokens are given up as without. -/
theorem resume_eq {previous : Token} {bound : Nat} (behind : T.tokens[s.current]? = some previous)
    (inside : T.Inside s.next) (left : T.body.length < bound + s.next.current) :
    ∃ s' : Spot, resume T.tokens bound s.next = .ok () s' ∧ T.Inside s' ∧
      s.next.current ≤ s'.current ∧ s'.fresh = s.fresh ∧
      (T.cursor s').upcoming = Rill.resume previous (T.cursor s.next).upcoming := by
  induction bound generalizing s previous with
  | zero => exact absurd left (by unfold Tape.Inside at inside; omega)
  | succ bound ih =>
      obtain ⟨t, here⟩ := inside.exists_token
      rw [resume, bind_of_ok (isAtEnd_of_token here)]
      rcases Tape.token_cases here with ⟨rfl, _, ended⟩ | ⟨inner, next, reads⟩
      · have nothing : (T.cursor s.next).upcoming = [] := ended
        rw [decide_eq_true T.closed, nothing, Rill.resume]
        exact ⟨s.next, rfl, inside, Nat.le_refl _, rfl, nothing⟩
      · rw [decide_eq_false inner, if_neg Bool.false_ne_true, bind_of_ok (previous_next behind),
          reads.upcoming_eq, Rill.resume]
        by_cases ends : previous.endsStatement
        · rw [if_pos ends, if_pos (by simp [ends])]
          exact ⟨s.next, rfl, inside, Nat.le_refl _, rfl, reads.upcoming_eq⟩
        · rw [if_neg ends, bind_of_ok (peek_of_token here)]
          by_cases starts : t.startsStatement
          · rw [if_pos starts, if_pos (by simp [starts])]
            exact ⟨s.next, rfl, inside, Nat.le_refl _, rfl, reads.upcoming_eq⟩
          · rw [if_neg starts, if_neg (by simp [ends, starts]),
              bind_of_ok (advance_of_token here inner)]
            have fewer : T.body.length < bound + s.next.next.current := by
              simp only [Spot.next_current] at left ⊢
              omega
            obtain ⟨s', resumed, inside', onward, rest⟩ := ih here next fewer
            exact ⟨s', resumed, inside', Nat.le_trans (Nat.le_succ _) onward, rest⟩

/-- At the end of the input nothing is given up, but the token in front of it is looked at. -/
theorem recover_at_ending {limit : Nat} (here : T.tokens[s.current]? = some T.ending)
    (last : s.current = T.body.length) (filled : 0 < T.body.length) (room : limit ≠ 0) :
    recover T.tokens limit s = .ok () s := by
  obtain ⟨index, earlier⟩ := Nat.exists_eq_succ_of_ne_zero (Nat.ne_of_gt (last ▸ filled))
  have before : index ≤ T.body.length := by omega
  obtain ⟨t, there⟩ := Tape.Inside.exists_token (T := T) (s := ⟨index, s.fresh⟩) before
  have looked : previous T.tokens s = .ok t s := by
    rw [previous, bind_of_ok (current_apply s)]
    simp only [earlier]
    exact tokenAt_of_token there
  have stays : advance T.tokens s = .ok t s := by
    rw [advance, bind_of_ok (isAtEnd_of_token here), decide_eq_true T.closed, if_pos rfl]
    exact looked
  obtain ⟨limit, rfl⟩ := Nat.exists_eq_succ_of_ne_zero room
  rw [recover, bind_of_ok stays, resume, bind_of_ok (isAtEnd_of_token here),
    decide_eq_true T.closed]
  rfl

/-- The token at fault is given up, if there is one. -/
theorem recover_eq {limit : Nat} (inside : T.Inside s) (filled : 0 < T.body.length)
    (left : T.body.length < limit + s.current) :
    ∃ s' : Spot, recover T.tokens limit s = .ok () s' ∧ T.Inside s' ∧
      (s.current < s'.current ∨ s.current = T.body.length ∧ s' = s) ∧
      T.cursor s' = { T.cursor s with upcoming := Rill.recover (T.cursor s).upcoming } := by
  obtain ⟨t, here⟩ := inside.exists_token
  rcases Tape.token_cases here with ⟨rfl, last, ended⟩ | ⟨inner, next, reads⟩
  · have nothing : (T.cursor s).upcoming = [] := ended
    refine ⟨s, recover_at_ending here last filled (by omega), inside, .inr ⟨last, rfl⟩, ?_⟩
    rw [nothing, Rill.recover, ← nothing]
  · obtain ⟨s', resumed, inside', onward, fresh, rest⟩ :=
      resume_eq here next (show T.body.length < limit + s.next.current by
        simp only [Spot.next_current]; omega)
    refine ⟨s', ?_, inside', .inl onward, ?_⟩
    · rw [recover, bind_of_ok (advance_of_token here inner)]
      exact resumed
    · rw [reads.upcoming_eq, Rill.recover, ← rest, Tape.cursor, Tape.cursor, fresh]

/-! ## Turns -/

/--
What a turn does in a slice: it moves past a token, but not past the end of the input. A fault is
reported at a token of the turn, or at the end of the input if the turn has come there, and has the
line of that token.
-/
structure Turn.Within (ts : List Token) (turn : Turn) : Prop where
  forward : turn.start < turn.finish
  inside : turn.finish < ts.length
  reported : ∀ report, turn.outcome = .error report →
    (turn.start ≤ report.index ∧ report.index ≤ turn.finish) ∧
      (report.index = turn.finish → turn.finish + 1 = ts.length) ∧
      ∃ t, ts[report.index]? = some t ∧ report.fault.line = t.line

/-- Turns that follow each other from an index on. -/
inductive Follow (ts : List Token) : Nat → List Turn → Prop
  | done {index : Nat} : Follow ts index []
  | turn {index : Nat} {turn : Turn} {rest : List Turn} (later : index ≤ turn.start)
      (within : turn.Within ts) (others : Follow ts turn.finish rest) :
      Follow ts index (turn :: rest)

/-- A turn does what a parser does where the turn starts. -/
def Turn.Parses (T : Tape) (bound : Nat) (c : Cursor) (turn : Turn) (s' : Spot) : Prop :=
  match turn.outcome with
  | .ok stmt => Parser.declaration bound c = .ok stmt (T.cursor s')
  | .error report => ∃ stopped, Parser.declaration bound c = .error report.fault stopped ∧
      T.cursor s' = { stopped with upcoming := Rill.recover stopped.upcoming }

theorem readTurn_eq {limit bound : Nat} (here : T.tokens[s.current]? = some t)
    (inner : t.kind ≠ .endOfInput) (deep : T.body.length < limit + s.current)
    (fits : T.body.length < bound + s.current) :
    ∃ turn s', readTurn T.tokens limit s = .ok turn s' ∧ T.Inside s' ∧
      turn.start = s.current ∧ turn.finish = s'.current ∧ turn.Within T.tokens ∧
      turn.Parses T bound (T.cursor s) s' := by
  have inside := Tape.inside_of_token here
  have within := (Tape.reads_of_token here inner).1
  have answers := agrees_declaration (T := T) (Nat.min_le_left limit bound)
    (Nat.min_le_right limit bound) inside (by omega)
  unfold Tape.Inside at inside within
  simp only [Spot.next_current] at within
  rcases answers.cases with ⟨stmt, s₁, ran, parsed, onward, inside₁⟩ |
    ⟨index, fault, s₁, ran, parsed, onward, seen, inside₁, u, there, line⟩
  · have attempted : attempt (declaration T.tokens limit) s = .ok (.ok stmt) s₁ := by
      rw [attempt, ran]
    have fewer := (Parser.declaration_sound bound parsed).passes.length_lt
    simp only [Tape.cursor, List.length_drop] at fewer
    refine ⟨⟨s.current, s₁.current, .ok stmt⟩, s₁, ?_, inside₁, rfl, rfl, ?_, parsed⟩
    · rw [readTurn, bind_of_ok (current_apply s), bind_of_ok attempted]
      exact bind_of_ok (current_apply s₁)
    · refine ⟨by simp only; omega, ?_, fun report failed => by cases failed⟩
      rw [Tape.length_tokens]
      exact Nat.lt_succ_of_le inside₁
  · have attempted : attempt (declaration T.tokens limit) s = .ok (.error ⟨index, fault⟩) s₁ := by
      rw [attempt, ran]
    have left : T.body.length < limit + s₁.current := by omega
    obtain ⟨s', recovered, inside', moved, cursor⟩ := recover_eq inside₁ (by omega) left
    refine ⟨⟨s.current, s'.current, .error ⟨index, fault⟩⟩, s', ?_, inside', rfl, rfl, ?_, _,
      parsed, cursor⟩
    · rw [readTurn, bind_of_ok (current_apply s), bind_of_ok attempted]
      simp only
      rw [bind_of_ok recovered]
      exact bind_of_ok (current_apply s')
    · have further : s₁.current ≤ s'.current ∧
          (s₁.current = s'.current → s'.current = T.body.length) := by
        rcases moved with less | ⟨last, rfl⟩
        · exact ⟨Nat.le_of_lt less, fun same => absurd same (Nat.ne_of_lt less)⟩
        · exact ⟨Nat.le_refl _, fun _ => last⟩
      have length := Tape.length_tokens (T := T)
      unfold Tape.Inside at inside'
      refine ⟨by simp only; omega, by simp only; omega, fun report failed => ?_⟩
      cases failed
      exact ⟨⟨onward, by simp only; omega⟩, by simp only; omega, u, there, line⟩

/-- The statements and faults of turns, with the least occurrence left over. -/
def reading (turns : List Turn) (fresh : Occurrence) : Reading :=
  ⟨statementsOf turns, (reportsOf turns).map Report.fault, fresh⟩

theorem reading_cons (turn : Turn) (rest : List Turn) (fresh : Occurrence) :
    reading (turn :: rest) fresh =
      match turn.outcome with
      | .ok stmt => (reading rest fresh).addStatement stmt
      | .error report => (reading rest fresh).addFault report.fault := by
  obtain ⟨start, finish, outcome⟩ := turn
  cases outcome <;> rfl

/-- By index, a program is read up to the end of the input, in turns. -/
theorem readTurns_eq {limit turnsBound bound : Nat} (inside : T.Inside s)
    (deep : T.body.length < limit + s.current) (long : T.body.length < turnsBound + s.current)
    (fits : T.body.length < bound + s.current) :
    ∃ turns s', readTurns T.tokens limit turnsBound s = .ok turns s' ∧
      s'.current = T.body.length ∧ Follow T.tokens s.current turns ∧
      readProgram bound (T.cursor s) = reading turns s'.fresh := by
  induction turnsBound generalizing s bound with
  | zero => exact absurd long (by unfold Tape.Inside at inside; omega)
  | succ turnsBound ih =>
      obtain ⟨bound, rfl⟩ := Nat.exists_eq_succ_of_ne_zero
        (show bound ≠ 0 by unfold Tape.Inside at inside; omega)
      have settled := inside_settled inside
      have onward := le_settled (T := T) (s := s)
      obtain ⟨t, here⟩ := settled.exists_token
      rw [readTurns, bind_of_ok (skipNewlines_eq inside deep), bind_of_ok (isAtEnd_of_token here),
        readProgram, ← cursor_settled]
      rcases Tape.token_cases here with ⟨rfl, last, ended⟩ | ⟨inner, next, reads⟩
      · have nothing : (T.cursor (T.settled s)).upcoming = [] := ended
        rw [decide_eq_true T.closed, nothing]
        exact ⟨[], T.settled s, rfl, last, .done, rfl⟩
      · rw [decide_eq_false inner, if_neg Bool.false_ne_true, reads.upcoming_eq]
        have deeper : T.body.length < limit + (T.settled s).current := by omega
        have room : T.body.length < bound + 1 + (T.settled s).current := by omega
        obtain ⟨turn, s₁, took, inside₁, start, finish, within, parses⟩ :=
          readTurn_eq here inner deeper room
        have forward := within.forward
        obtain ⟨rest, s', others, last, follow, program⟩ :=
          ih (s := s₁) inside₁ (by omega) (by omega)
            (show T.body.length < bound + s₁.current by omega)
        refine ⟨turn :: rest, s', ?_, last, ?_, ?_⟩
        · rw [bind_of_ok took, bind_of_ok others]
          rfl
        · exact .turn (by omega) within (finish ▸ follow)
        · rw [if_neg (by simp), reading_cons, ← program]
          unfold Turn.Parses at parses
          cases outcome : turn.outcome with
          | ok stmt =>
              rw [outcome] at parses
              rw [parses]
          | error report =>
              rw [outcome] at parses
              obtain ⟨stopped, failed, cursor⟩ := parses
              rw [failed, cursor]

/-- All of a tape is read, in turns that follow each other from its first token on. -/
theorem readTurns_tokens (T : Tape) (first : Occurrence) {limit bound : Nat}
    (deep : T.tokens.length ≤ limit) (long : T.tokens.length ≤ bound) :
    ∃ turns last, readTurns T.tokens limit bound ⟨0, first⟩ =
        .ok turns ⟨T.tokens.length - 1, last⟩ ∧
      Follow T.tokens 0 turns ∧ readTokens T.tokens first = reading turns last := by
  rw [Tape.length_tokens] at deep long ⊢
  have inside : T.Inside ⟨0, first⟩ := Nat.zero_le _
  obtain ⟨turns, s', ran, last, follow, program⟩ := readTurns_eq inside deep long
    (show T.body.length < T.body.length + 1 + 0 from Nat.lt_succ_self _)
  refine ⟨turns, s'.fresh, ?_, follow, ?_⟩
  · rw [ran, ← last]
    rfl
  · rw [readTokens, Tape.tokens, Cursor.start_append first T.inner T.closed]
    exact program

/-- The tokens of a scan make up a tape. -/
theorem exists_tape {source : String} {ts : List Token} (scanned : tokens source = .ok ts) :
    ∃ T : Tape, ts = T.tokens := by
  obtain ⟨body, ending, rfl, isEnd, lawful⟩ := exists_of_tokens_eq_ok scanned
  exact ⟨⟨body, ending, fun t present => (lawful t present).not_endOfInput, isEnd⟩, rfl⟩

/-! ## What is reported -/

section Reports

variable {ts : List Token} {index : Nat} {turns : List Turn}

/-- Every turn moves past a token, so there are no more turns than tokens behind the first one. -/
theorem Follow.length_lt (follow : Follow ts index turns) (room : index < ts.length) :
    turns.length + index < ts.length := by
  induction follow with
  | done => simpa using room
  | turn later within others ih =>
      have forward := within.forward
      have rest := ih within.inside
      rw [List.length_cons]
      omega

theorem length_reportsOf_le : (reportsOf turns).length ≤ turns.length :=
  List.length_filterMap_le _ turns

theorem mem_reportsOf {report : Report} :
    report ∈ reportsOf turns ↔ ∃ turn ∈ turns, turn.outcome = .error report := by
  rw [reportsOf, List.mem_filterMap]
  refine exists_congr fun turn => and_congr_right fun _ => ?_
  cases turn.outcome <;> simp

theorem reportsOf_cons_of_ok {turn : Turn} {rest : List Turn} {stmt : Stmt}
    (read : turn.outcome = .ok stmt) : reportsOf (turn :: rest) = reportsOf rest := by
  rw [reportsOf, List.filterMap_cons_none (by rw [read])]
  rfl

theorem reportsOf_cons_of_error {turn : Turn} {rest : List Turn} {report : Report}
    (failed : turn.outcome = .error report) :
    reportsOf (turn :: rest) = report :: reportsOf rest := by
  rw [reportsOf, List.filterMap_cons_some (by rw [failed])]
  rfl

/-- What is reported is about a token, on whose line it is reported. -/
theorem Follow.exists_token (follow : Follow ts index turns) {report : Report}
    (listed : report ∈ reportsOf turns) :
    ∃ t, ts[report.index]? = some t ∧ report.fault.line = t.line := by
  obtain ⟨turn, present, failed⟩ := mem_reportsOf.mp listed
  induction follow with
  | done => cases present
  | turn later within others ih =>
      rcases List.mem_cons.mp present with rfl | behind
      · exact (within.reported report failed).2.2
      · exact ih (mem_reportsOf.mpr ⟨turn, behind, failed⟩) behind

/-- Turns report nothing in front of the index that they follow each other from. -/
theorem Follow.le_index (follow : Follow ts index turns) {report : Report}
    (listed : report ∈ reportsOf turns) : index ≤ report.index := by
  induction follow with
  | done => cases listed
  | @turn index turn rest later within others ih =>
      obtain ⟨other, present, failed⟩ := mem_reportsOf.mp listed
      rcases List.mem_cons.mp present with rfl | behind
      · exact Nat.le_trans later (within.reported report failed).1.1
      · have forward := within.forward
        have further := ih (mem_reportsOf.mpr ⟨other, behind, failed⟩)
        omega

/-- What is reported comes in the order of the tokens that it is reported at. -/
theorem Follow.pairwise_index (follow : Follow ts index turns) :
    (reportsOf turns).Pairwise fun first second => first.index < second.index := by
  induction follow with
  | done => exact .nil
  | @turn index turn rest later within others ih =>
      cases outcome : turn.outcome with
      | ok stmt => rwa [reportsOf_cons_of_ok outcome]
      | error report =>
          rw [reportsOf_cons_of_error outcome]
          refine .cons (fun second listed => ?_) ih
          obtain ⟨⟨_, upTo⟩, atEnd, _⟩ := within.reported report outcome
          have further := others.le_index listed
          have fewer : (reportsOf rest).length ≤ rest.length := length_reportsOf_le
          have filled : 0 < (reportsOf rest).length := List.length_pos_of_mem listed
          have short := others.length_lt within.inside
          -- A fault right behind its turn is at the end of the input, where no turn is left.
          omega

/-- Tokens of a scan stand on lines that never decrease. -/
theorem pairwise_line {source : String} (scanned : tokens source = .ok ts) :
    ts.Pairwise fun first second => first.line ≤ second.line := by
  rw [eq_scannedTokens_of_tokens_eq_ok scanned]
  refine (pairwise_itemLine 1 _).filterMap _ fun first second le t here u there => ?_
  cases first with
  | ok first =>
      cases here
      cases second with
      | ok second =>
          cases there
          exact le
      | error fault => cases there
  | error fault => cases here

end Reports

/--
The parser always ends, in bounds, with its faults in order. However the loops and the nesting of
its rules are bounded, if only by the number of tokens, the reading of the tokens of a scan comes to
no bound, looks at no index outside of them, and stops at the end of the input, which is the last of
them. It is made up of turns, each of which moves past a token at least, and `parse` answers with
the statements of these turns, or with a fault for each turn that failed if there is any. The faults
are reported at tokens whose indices strictly increase, on the lines of these tokens, which never
decrease, and there are no more of them than tokens.
-/
theorem parse_reads_in_turns {source : String} {ts : List Token} (scanned : tokens source = .ok ts)
    (first : Occurrence) {limit bound : Nat} (deep : ts.length ≤ limit)
    (long : ts.length ≤ bound) :
    ∃ turns last,
      readTurns ts limit bound ⟨0, first⟩ = .ok turns ⟨ts.length - 1, last⟩ ∧
      Follow ts 0 turns ∧
      parse ts first =
        (match reportsOf turns with
          | [] => .ok (statementsOf turns)
          | reports => .error (reports.map Report.fault), last) ∧
      (reportsOf turns).Pairwise (fun report later =>
        report.index < later.index ∧ report.fault.line ≤ later.fault.line) ∧
      (reportsOf turns).length ≤ ts.length := by
  have lines := pairwise_line scanned
  obtain ⟨T, rfl⟩ := exists_tape scanned
  obtain ⟨turns, last, ran, follow, read⟩ := readTurns_tokens T first deep long
  refine ⟨turns, last, ran, follow, ?_, ?_, ?_⟩
  · rw [parse, read, reading]
    cases reportsOf turns <;> rfl
  · refine follow.pairwise_index.imp_of_mem ?_
    intro report later listed listed' less
    obtain ⟨t, there, line⟩ := follow.exists_token listed
    obtain ⟨u, there', line'⟩ := follow.exists_token listed'
    obtain ⟨_, rfl⟩ := List.getElem?_eq_some_iff.mp there
    obtain ⟨_, rfl⟩ := List.getElem?_eq_some_iff.mp there'
    refine ⟨less, ?_⟩
    rw [line, line']
    exact List.pairwise_iff_getElem.mp lines _ _ _ _ less
  · have room : 0 < T.tokens.length := by simp [Tape.length_tokens]
    have short := follow.length_lt room
    have fewer : (reportsOf turns).length ≤ turns.length := length_reportsOf_le
    omega

/-- A fault on the first line, a statement that is read, and a fault at the end of the input. -/
theorem parse_reads_in_turns_of_open_paren :
    ∃ ts turns last, tokens "let = a\nprint b\nprint (c" = .ok ts ∧
      readTurns ts ts.length ts.length ⟨0, 0⟩ = .ok turns ⟨ts.length - 1, last⟩ ∧
      Follow ts 0 turns ∧ (reportsOf turns).length ≤ ts.length ∧
      (reportsOf turns).map (fun report => (report.index, report.fault.line)) =
        [(1, 1), (10, 3)] := by
  have scanned : tokens "let = a\nprint b\nprint (c" = .ok
      [⟨.keyword .letWord, "let", 1⟩, ⟨.mark .equal, "=", 1⟩, ⟨.identifier, "a", 1⟩,
       ⟨.newline, "\n", 1⟩, ⟨.keyword .printWord, "print", 2⟩, ⟨.identifier, "b", 2⟩,
       ⟨.newline, "\n", 2⟩, ⟨.keyword .printWord, "print", 3⟩, ⟨.mark .leftParen, "(", 3⟩,
       ⟨.identifier, "c", 3⟩, ⟨.endOfInput, "", 3⟩] := by
    with_unfolding_all rfl
  obtain ⟨turns, last, ran, follow, -, -, fewer⟩ :=
    parse_reads_in_turns scanned 0 (Nat.le_refl _) (Nat.le_refl _)
  refine ⟨_, turns, last, scanned, ran, follow, fewer, ?_⟩
  cases ran
  rfl

end Rill.Slice
