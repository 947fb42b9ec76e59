import Rill.Proofs.Recovery.Lines
import Rill.Proofs.Syntax.Renumbering
import Rill.Proofs.Syntax.Transport

/-!
# Recovery is local to a line

A fault on a line is recovered from by the end of the line, and nothing else than the line is given
up for it. What is reported of a line and what is reported of the text behind it can therefore be
told apart, and so can the statements.
-/

namespace Rill

/-! ## Bounds that are not met -/

section Bounds

variable {c next stopped : Cursor} {bound : Nat}

/-- The end of the input is not among the tokens that are left. -/
def Cursor.Inner (c : Cursor) : Prop := ∀ t ∈ c.upcoming, t.kind ≠ .endOfInput

theorem Cursor.Inner.of_suffix (inner : c.Inner) (left : next.upcoming <:+ c.upcoming) :
    next.Inner :=
  fun t present => inner t (left.subset present)

/-- The tape of what is left, which the end of the input closes. -/
def Cursor.Inner.tape (inner : c.Inner) : Slice.Tape where
  body := c.upcoming
  ending := inputEnd c.endLine
  inner := inner
  closed := rfl

/-- A bound above the number of tokens left is not met, so it does not matter which it is. -/
theorem Parser.declaration_eq_of_lt {bound' : Nat} (inner : c.Inner)
    (fits : c.upcoming.length < bound) (fits' : c.upcoming.length < bound') :
    declaration bound c = declaration bound' c := by
  have inside : inner.tape.Inside ⟨0, c.fresh⟩ := Nat.zero_le _
  have read {b : Nat} (fits : c.upcoming.length < b) := Slice.agrees_declaration
    (Nat.le_refl (c.upcoming.length + 1)) fits inside (Nat.lt_succ_self _)
  exact (read fits).unique (read fits')

/-- What is read of all that is left. -/
def readRest (c : Cursor) : Reading := readProgram (c.upcoming.length + 1) c

theorem readProgram_eq_readRest (inner : c.Inner) (fits : c.upcoming.length < bound) :
    readProgram bound c = readRest c := by
  have inside : inner.tape.Inside ⟨0, c.fresh⟩ := Nat.zero_le _
  have enough : c.upcoming.length < c.upcoming.length + 1 := Nat.lt_succ_self _
  obtain ⟨turns, s, ran, -, -, program⟩ := Slice.readTurns_eq inside enough enough fits
  obtain ⟨turns', s', ran', -, -, program'⟩ := Slice.readTurns_eq inside enough enough enough
  cases ran.symm.trans ran'
  exact program.trans program'.symm

theorem suffix_skipNewlines (c : Cursor) : c.skipNewlines.upcoming <:+ c.upcoming :=
  (Grammar.Newlines.skip c).reaches.isSuffix

theorem lacks_skipNewlines (c : Cursor) : c.skipNewlines.Lacks .newline := by
  intro t present
  have stops := List.head?_dropWhile_not (fun t : Token => decide (t.kind = .newline)) c.upcoming
  rw [show (c.upcoming.dropWhile fun t => decide (t.kind = .newline)).head? = some t from present]
    at stops
  exact of_decide_eq_false stops

/-- Line breaks in front do not matter. -/
theorem readRest_skipNewlines (inner : c.Inner) : readRest c.skipNewlines = readRest c := by
  have twice : c.skipNewlines.skipNewlines = c.skipNewlines :=
    Cursor.skipNewlines_of_lacks (lacks_skipNewlines c)
  have same : readProgram (c.upcoming.length + 1) c.skipNewlines = readRest c := by
    rw [readRest, readProgram, readProgram, twice]
  rw [← same, readProgram_eq_readRest (inner.of_suffix (suffix_skipNewlines c))]
  exact Nat.lt_succ_of_le (suffix_skipNewlines c).length_le

/-- Behind a declaration, the rest of the program is read. -/
theorem readRest_of_ok {s : Stmt} (inner : c.Inner) (goesOn : ¬ c.skipNewlines.IsAtEnd)
    (fits : c.upcoming.length < bound)
    (read : Parser.declaration bound c.skipNewlines = .ok s next) :
    readRest c = (readRest next).addStatement s := by
  have skipped := suffix_skipNewlines c
  have passes := (Parser.declaration_sound bound read).passes
  have fewer := Nat.lt_of_lt_of_le passes.length_lt skipped.length_le
  have short := Nat.lt_of_le_of_lt skipped.length_le fits
  rw [Parser.declaration_eq_of_lt (inner.of_suffix skipped) short
    (Nat.lt_succ_of_le skipped.length_le)] at read
  rw [readRest, readProgram_of_eq_ok goesOn read,
    readProgram_eq_readRest (inner.of_suffix (passes.reaches.isSuffix.trans skipped)) fewer]

theorem suffix_resume (previous : Token) (ts : List Token) : resume previous ts <:+ ts := by
  induction ts generalizing previous with
  | nil => exact List.suffix_rfl
  | cons t rest ih =>
      rw [resume]
      split
      · exact List.suffix_rfl
      · exact (ih t).trans (List.suffix_cons t rest)

/-- A token is given up wherever there is one. -/
theorem length_recover_lt {ts : List Token} (goesOn : ts ≠ []) :
    (recover ts).length < ts.length := by
  cases ts with
  | nil => exact absurd rfl goesOn
  | cons t rest => exact Nat.lt_succ_of_le (suffix_resume t rest).length_le

theorem suffix_recover (ts : List Token) : recover ts <:+ ts := by
  cases ts with
  | nil => exact List.suffix_rfl
  | cons t rest => exact (suffix_resume t rest).trans (List.suffix_cons t rest)

/-- Behind a fault, the program is read from where it has been recovered from. -/
theorem readRest_of_error {fault : Diagnostic} (inner : c.Inner)
    (goesOn : ¬ c.skipNewlines.IsAtEnd) (fits : c.upcoming.length < bound)
    (failed : Parser.declaration bound c.skipNewlines = .error fault stopped)
    (left : stopped.upcoming <:+ c.skipNewlines.upcoming) :
    readRest c =
      (readRest { stopped with upcoming := recover stopped.upcoming }).addFault fault := by
  have skipped := suffix_skipNewlines c
  have short := Nat.lt_of_le_of_lt skipped.length_le fits
  have rest := ((suffix_recover stopped.upcoming).trans left).trans skipped
  have fewer : (recover stopped.upcoming).length < c.upcoming.length := by
    by_cases ended : stopped.upcoming = []
    · rw [ended]
      exact Nat.lt_of_lt_of_le (List.length_pos_iff.mpr goesOn) skipped.length_le
    · exact Nat.lt_of_lt_of_le (length_recover_lt ended) (left.trans skipped).length_le
  rw [Parser.declaration_eq_of_lt (inner.of_suffix skipped) short
    (Nat.lt_succ_of_le skipped.length_le)] at failed
  rw [readRest, readProgram_of_eq_error goesOn failed,
    readProgram_eq_readRest (inner.of_suffix rest) fewer]

end Bounds

/-! ## Recovering on a line -/

namespace Fork

variable {F : Fork} {ts : List Token} {fresh : Occurrence}

/-- Nothing is given up behind a line break. -/
theorem resume_lineBreak (F : Fork) : resume F.lineBreak F.behind = F.behind := by
  have ends : F.lineBreak.endsStatement = true := by simp [Token.endsStatement, F.isBreak]
  cases F.behind with
  | nil => rfl
  | cons t rest => rw [resume, ends, Bool.true_or, if_pos rfl]

/--
Tokens of a line are given up to the same place of the line, whatever is behind the line, or up to
what is right behind it.
-/
theorem resume_cases (F : Fork) (previous : Token) (ts : List Token) :
    (∃ rest, rest <:+ ts ∧
      resume previous (ts ++ F.lineBreak :: F.behind) = rest ++ F.lineBreak :: F.behind ∧
      resume previous (ts ++ [F.lineBreak]) = rest ++ [F.lineBreak]) ∨
    resume previous (ts ++ F.lineBreak :: F.behind) = F.behind ∧
      resume previous (ts ++ [F.lineBreak]) = [] := by
  induction ts generalizing previous with
  | nil =>
      simp only [List.nil_append, resume]
      split
      · exact .inl ⟨[], List.suffix_rfl, rfl, rfl⟩
      · exact .inr ⟨F.resume_lineBreak, rfl⟩
  | cons t ts ih =>
      simp only [List.cons_append, resume]
      split
      · exact .inl ⟨t :: ts, List.suffix_rfl, rfl, rfl⟩
      · rcases ih t with ⟨rest, left, goesOn, ends⟩ | crossed
        · exact .inl ⟨rest, left.trans (List.suffix_cons t ts), goesOn, ends⟩
        · exact .inr crossed

/-- A fault on a line is recovered from on the rest of the line, or right behind it. -/
theorem recover_cases (F : Fork) (ts : List Token) :
    (∃ rest, rest <:+ ts ∧ rest.length < ts.length ∧
      recover (ts ++ F.lineBreak :: F.behind) = rest ++ F.lineBreak :: F.behind ∧
      recover (ts ++ [F.lineBreak]) = rest ++ [F.lineBreak]) ∨
    recover (ts ++ F.lineBreak :: F.behind) = F.behind ∧ recover (ts ++ [F.lineBreak]) = [] := by
  cases ts with
  | nil => exact .inr ⟨F.resume_lineBreak, rfl⟩
  | cons t ts =>
      rcases F.resume_cases t ts with ⟨rest, left, goesOn, ends⟩ | crossed
      · exact .inl ⟨rest, left.trans (List.suffix_cons t ts), Nat.lt_succ_of_le left.length_le,
          goesOn, ends⟩
      · exact .inr crossed

end Fork

/-! ## A line and what is behind it -/

/-- What is read of one part, and then of another from the number on that the first one leaves. -/
def Reading.andThen (first : Reading) (second : Occurrence → Reading) : Reading :=
  ⟨first.statements ++ (second first.fresh).statements,
    first.faults ++ (second first.fresh).faults, (second first.fresh).fresh⟩

/-- What has been read of a first part stays in front, whatever is read then. -/
def Reading.Prepends (turn : Reading → Reading) : Prop :=
  ∀ first second, turn (Reading.andThen first second) = (turn first).andThen second

theorem Reading.prepends_id : Prepends id := fun _ _ => rfl

theorem Reading.prepends_addStatement (s : Stmt) : Prepends (addStatement s) := fun _ _ => rfl

theorem Reading.prepends_addFault (fault : Diagnostic) : Prepends (addFault fault) :=
  fun _ _ => rfl

namespace Fork

variable {F : Fork} {ts : List Token} {fresh : Occurrence}

theorem inner_whole (F : Fork) (fresh : Occurrence) (inner : ∀ t ∈ ts, t.kind ≠ .endOfInput)
    (inner' : ∀ t ∈ F.behind, t.kind ≠ .endOfInput) : (F.whole ts fresh).Inner := by
  intro t present
  rcases List.mem_append.mp present with here | behind
  · exact inner t here
  · rcases List.mem_cons.mp behind with rfl | later
    · simp [F.isBreak]
    · exact inner' t later

theorem inner_alone (F : Fork) (fresh : Occurrence) (inner : ∀ t ∈ ts, t.kind ≠ .endOfInput) :
    (F.alone ts fresh).Inner := by
  intro t present
  rcases List.mem_append.mp present with here | behind
  · exact inner t here
  · rw [List.mem_singleton.mp behind, F.isBreak]
    simp

theorem suffix_whole {rest : List Token} {later : Occurrence} (left : rest <:+ ts) :
    (F.whole rest later).upcoming <:+ (F.whole ts fresh).upcoming := by
  obtain ⟨front, rfl⟩ := left
  exact ⟨front, (List.append_assoc ..).symm⟩

theorem suffix_alone {rest : List Token} {later : Occurrence} (left : rest <:+ ts) :
    (F.alone rest later).upcoming <:+ (F.alone ts fresh).upcoming := by
  obtain ⟨front, rfl⟩ := left
  exact ⟨front, (List.append_assoc ..).symm⟩

/-- Either the line breaks in front go on to what is behind the line, or they stop on the line. -/
theorem skipNewlines_cases (F : Fork) (ts : List Token) (fresh : Occurrence) :
    (F.whole ts fresh).skipNewlines = Cursor.skipNewlines ⟨F.behind, F.lastLine, fresh⟩ ∧
        (F.alone ts fresh).skipNewlines.IsAtEnd ∨
      ∃ t rest, t :: rest <:+ ts ∧ (F.whole ts fresh).skipNewlines = F.whole (t :: rest) fresh ∧
        (F.alone ts fresh).skipNewlines = F.alone (t :: rest) fresh := by
  simp only [Cursor.skipNewlines, Cursor.IsAtEnd, whole, alone, List.dropWhile_append]
  cases left : ts.dropWhile (·.kind = .newline) with
  | nil => exact .inl (by simp [F.isBreak])
  | cons t rest =>
      refine .inr ⟨t, rest, ?_, by simp, by simp⟩
      rw [← left]
      exact List.dropWhile_suffix _

/--
One turn on a line does the same whatever is behind the line: it gets further on the line, or right
behind it.
-/
theorem readRest_cases (fresh : Occurrence) (inner' : ∀ t ∈ F.behind, t.kind ≠ .endOfInput)
    (free : Unbracketed ts) (inner : ∀ t ∈ ts, t.kind ≠ .endOfInput) :
    ∃ turn, Reading.Prepends turn ∧
      ((∃ rest later, rest <:+ ts ∧ rest.length < ts.length ∧
          readRest (F.whole ts fresh) = turn (readRest (F.whole rest later)) ∧
          readRest (F.alone ts fresh) = turn (readRest (F.alone rest later))) ∨
        ∃ later, readRest (F.whole ts fresh) = turn (readRest ⟨F.behind, F.lastLine, later⟩) ∧
          readRest (F.alone ts fresh) = turn ⟨[], [], later⟩) := by
  have innerWhole : (F.whole ts fresh).Inner := F.inner_whole fresh inner inner'
  have innerAlone : (F.alone ts fresh).Inner := F.inner_alone fresh inner
  rcases F.skipNewlines_cases ts fresh with ⟨skips, ended⟩ | ⟨t, rest, left, skips, skips'⟩
  · have innerBehind : Cursor.Inner ⟨F.behind, F.lastLine, fresh⟩ := inner'
    refine ⟨id, Reading.prepends_id, .inr ⟨fresh, ?_, ?_⟩⟩
    · rw [← readRest_skipNewlines innerWhole, skips, readRest_skipNewlines innerBehind, id]
    · rw [readRest, readProgram_of_isAtEnd ended]
      rfl
  · have fits : (F.alone ts fresh).upcoming.length < (F.whole ts fresh).upcoming.length + 1 := by
      simp only [whole, alone, List.length_append, List.length_cons, List.length_nil]
      omega
    have goesOn : ¬ (F.whole ts fresh).skipNewlines.IsAtEnd := by
      rw [skips]
      exact (F.reads_token t rest fresh).1.not_isAtEnd
    have goesOn' : ¬ (F.alone ts fresh).skipNewlines.IsAtEnd := by
      rw [skips']
      exact (F.reads_token t rest fresh).2.not_isAtEnd
    have alike : F.ReadsAt true (t :: rest) fresh
        (Parser.declaration ((F.whole ts fresh).upcoming.length + 1)) :=
      F.reads_declaration _ (free.of_suffix left)
    rw [ReadsAt, ← skips, ← skips'] at alike
    generalize read : Parser.declaration _ (F.whole ts fresh).skipNewlines = r at alike
    generalize read' : Parser.declaration _ (F.alone ts fresh).skipNewlines = r' at alike
    have short := left.length_le
    -- A declaration that crosses the line break is complete: no fault is found behind it.
    cases alike with
    | @ok s rest' later left' =>
        have fewer := (Parser.declaration_sound _ read').passes.length_lt
        rw [skips'] at fewer
        simp only [alone, List.length_append, List.length_cons] at fewer short
        exact ⟨_, Reading.prepends_addStatement s, .inl ⟨rest', later, left'.trans left, by omega,
          readRest_of_ok innerWhole goesOn (Nat.lt_succ_self _) read,
          readRest_of_ok innerAlone goesOn' fits read'⟩⟩
    | @crossed s later =>
        exact ⟨_, Reading.prepends_addStatement s, .inr ⟨later,
          readRest_of_ok innerWhole goesOn (Nat.lt_succ_self _) read,
          readRest_of_ok innerAlone goesOn' fits read'⟩⟩
    | @error fault rest' later left' =>
        have failed := readRest_of_error innerWhole goesOn (Nat.lt_succ_self _) read
          (skips ▸ suffix_whole left')
        have failed' := readRest_of_error innerAlone goesOn' fits read'
          (skips' ▸ suffix_alone left')
        simp only [whole, alone] at failed failed'
        refine ⟨_, Reading.prepends_addFault fault, ?_⟩
        rcases F.recover_cases rest' with ⟨rest'', left'', less, recovers, recovers'⟩ |
          ⟨recovers, recovers'⟩
        · have shorter := (left'.trans left).length_le
          rw [recovers] at failed
          rw [recovers'] at failed'
          exact .inl ⟨rest'', later, (left''.trans left').trans left, by omega, failed, failed'⟩
        · rw [recovers] at failed
          rw [recovers'] at failed'
          exact .inr ⟨later, failed, failed'⟩

/-- A line is read as if it were alone, and then what is behind it as if it were alone. -/
theorem readRest_whole (inner' : ∀ t ∈ F.behind, t.kind ≠ .endOfInput) (free : Unbracketed ts)
    (inner : ∀ t ∈ ts, t.kind ≠ .endOfInput) :
    readRest (F.whole ts fresh) =
      (readRest (F.alone ts fresh)).andThen
        fun later => readRest ⟨F.behind, F.lastLine, later⟩ := by
  induction n : ts.length using Nat.strongRecOn generalizing ts fresh with
  | ind n ih =>
    obtain ⟨turn, prepends, ⟨rest, later, left, less, goesOn, ends⟩ | ⟨later, goesOn, ends⟩⟩ :=
      readRest_cases fresh inner' free inner
    · rw [goesOn, ends, ← prepends]
      exact congrArg turn (ih rest.length (n ▸ less) (free.of_suffix left)
        (fun t present => inner t (left.subset present)) rfl)
    · rw [goesOn, ends, ← prepends]
      rfl

end Fork

/-! ## Whole texts -/

/-- What is reported in place of an answer, if anything is. -/
def faultsOf {α : Type} : Except (List Diagnostic) α → List Diagnostic
  | .ok _ => []
  | .error faults => faults

theorem faultsOf_parse (ts : List Token) (first : Occurrence) :
    faultsOf (parse ts first).1 = (readTokens ts first).faults := by
  rw [parse]
  cases (readTokens ts first).faults <;> rfl

/-- What is reported of tokens does not depend on the number they are read from. -/
theorem faultsOf_parse_eq (ts : List Token) (first first' : Occurrence) :
    faultsOf (parse ts first).1 = faultsOf (parse ts first').1 := by
  have fromZero (start : Nat) : faultsOf (parse ts start).1 = faultsOf (parse ts 0).1 := by
    rw [← Nat.zero_add start, parse_later]
    cases (parse ts 0).1 <;> rfl
  rw [fromZero first, fromZero first']

theorem parse_eq_ok_iff {ts : List Token} {first last : Occurrence} {statements : List Stmt} :
    parse ts first = (.ok statements, last) ↔ readTokens ts first = ⟨statements, [], last⟩ := by
  rw [parse]
  obtain ⟨read, faults, next⟩ := readTokens ts first
  cases faults <;> simp

theorem readTokens_append {body : List Token} {ending : Token} (first : Occurrence)
    (inner : ∀ t ∈ body, t.kind ≠ .endOfInput) (isEnd : ending.kind = .endOfInput) :
    readTokens (body ++ [ending]) first = readRest ⟨body, ending.line, first⟩ := by
  rw [readTokens, Cursor.start_append first inner isEnd]
  rfl

section Texts

variable {line text : List Token} {lineBreak ending ownEnding : Token}

/-- The tokens of a line and a text are read as those of the line, and then those of the text. -/
theorem readTokens_line (free : Unbracketed line) (inner : ∀ t ∈ line, t.kind ≠ .endOfInput)
    (inner' : ∀ t ∈ text, t.kind ≠ .endOfInput) (isBreak : lineBreak.kind = .newline)
    (isEnd : ending.kind = .endOfInput) (isEnd' : ownEnding.kind = .endOfInput)
    (first : Occurrence) :
    readTokens (line ++ lineBreak :: (text ++ [ending])) first =
      (readTokens (line ++ [lineBreak, ownEnding]) first).andThen
        fun later => readTokens (text ++ [ending]) later := by
  let F : Fork := ⟨lineBreak, isBreak, text, ending.line, ownEnding.line⟩
  have innerWhole : ∀ t ∈ line ++ lineBreak :: text, t.kind ≠ .endOfInput :=
    F.inner_whole first inner inner'
  have innerAlone : ∀ t ∈ line ++ [lineBreak], t.kind ≠ .endOfInput := F.inner_alone first inner
  rw [← List.cons_append, ← List.append_assoc, List.append_cons line lineBreak [ownEnding],
    readTokens_append first innerWhole isEnd, readTokens_append first innerAlone isEnd']
  simp only [readTokens_append _ inner' isEnd]
  exact F.readRest_whole inner' free inner

/-- The same tokens are read from another number on. -/
theorem parse_move {statements : List Stmt} {own last : Occurrence}
    (inner : ∀ t ∈ text, t.kind ≠ .endOfInput) (isEnd : ending.kind = .endOfInput)
    (parsed : parse (text ++ [ending]) own = (.ok statements, last)) (first : Occurrence) :
    parse (text ++ [ending]) first =
      (.ok (Stmt.recastAll (.move own first 0) statements), last - own + first) := by
  have same (start : Occurrence) :
      parse (text ++ [ending]) start = parse (text ++ [inputEnd ending.line]) start := by
    rw [parse, parse, readTokens_append start inner isEnd, readTokens_append start inner rfl]
    rfl
  rw [same, parse_append_eq_ok inner rfl] at *
  exact parsed.move first

/--
Recovery is local to a line. Take tokens without opening brackets that a line break ends, and any
text behind it. Whatever is wrong with either of them, the faults of both together are the faults of
the line alone, wherever its input ends, followed by the faults of the text alone. If there are
none, the statements are those of the line followed by those of the text, but for the numbers of
their mentions.
-/
theorem recovery_is_local (free : Unbracketed line) (inner : ∀ t ∈ line, t.kind ≠ .endOfInput)
    (inner' : ∀ t ∈ text, t.kind ≠ .endOfInput) (isBreak : lineBreak.kind = .newline)
    (isEnd : ending.kind = .endOfInput) (isEnd' : ownEnding.kind = .endOfInput)
    (first own own' : Occurrence) :
    faultsOf (parse (line ++ lineBreak :: (text ++ [ending])) first).1 =
        faultsOf (parse (line ++ [lineBreak, ownEnding]) own).1 ++
          faultsOf (parse (text ++ [ending]) own').1 ∧
      ∀ ofLine ofText last last',
        parse (line ++ [lineBreak, ownEnding]) own = (.ok ofLine, last) →
        parse (text ++ [ending]) own' = (.ok ofText, last') →
        parse (line ++ lineBreak :: (text ++ [ending])) first =
          (.ok (Stmt.recastAll (.move own first 0) ofLine ++
            Stmt.recastAll (.move own' (last - own + first) 0) ofText),
            last' - own' + (last - own + first)) := by
  have read := readTokens_line free inner inner' isBreak isEnd isEnd' first
  constructor
  · rw [faultsOf_parse_eq (line ++ [lineBreak, ownEnding]) own first, faultsOf_parse,
      faultsOf_parse, read, Reading.andThen, ← faultsOf_parse (text ++ [ending]),
      faultsOf_parse_eq (text ++ [ending]) _ own']
  · intro ofLine ofText last last' parsed parsed'
    have innerAlone : ∀ t ∈ line ++ [lineBreak], t.kind ≠ .endOfInput :=
      List.forall_mem_append.mpr ⟨inner, by simp [isBreak]⟩
    rw [List.append_cons line lineBreak [ownEnding]] at parsed read
    have moved := parse_move innerAlone isEnd' parsed first
    have moved' := parse_move inner' isEnd parsed' (last - own + first)
    rw [parse_eq_ok_iff] at moved moved' ⊢
    rw [read, Reading.andThen, moved]
    dsimp only
    rw [moved']
    rfl

end Texts

/-- A line and a text with a fault each, and a line and a text with none. -/
theorem recovery_is_local_of_missing_name :
    faultsOf (parse
        [⟨.keyword .letWord, "let", 1⟩, ⟨.mark .equal, "=", 1⟩, ⟨.newline, "\n", 1⟩,
         ⟨.keyword .printWord, "print", 2⟩, ⟨.mark .plus, "+", 2⟩, ⟨.endOfInput, "", 2⟩] 0).1 =
      [⟨1, .grammar (.expected .variableName (.token "="))⟩,
       ⟨2, .grammar (.expected .expression (.token "+"))⟩] ∧
    parse
        [⟨.keyword .printWord, "print", 1⟩, ⟨.identifier, "a", 1⟩, ⟨.newline, "\n", 1⟩,
         ⟨.keyword .printWord, "print", 2⟩, ⟨.identifier, "b", 2⟩, ⟨.endOfInput, "", 2⟩] 5 =
      (.ok [.print (.var 5 ⟨"a", 1⟩), .print (.var 6 ⟨"b", 2⟩)], 7) := by
  have isEnd : (⟨.endOfInput, "", 2⟩ : Token).kind = .endOfInput := rfl
  constructor
  · have free : Unbracketed [⟨.keyword .letWord, "let", 1⟩, ⟨.mark .equal, "=", 1⟩] := by
      simp [Unbracketed]
    have inner' : ∀ t ∈ [(⟨.keyword .printWord, "print", 2⟩ : Token), ⟨.mark .plus, "+", 2⟩],
        t.kind ≠ .endOfInput := by simp
    exact (recovery_is_local free (by simp) inner' rfl isEnd isEnd 0 0 0).1
  · have free : Unbracketed [⟨.keyword .printWord, "print", 1⟩, ⟨.identifier, "a", 1⟩] := by
      simp [Unbracketed]
    have inner' : ∀ t ∈ [(⟨.keyword .printWord, "print", 2⟩ : Token), ⟨.identifier, "b", 2⟩],
        t.kind ≠ .endOfInput := by simp
    exact (recovery_is_local free (by simp) inner' rfl isEnd isEnd 5 0 0).2
      [.print (.var 0 ⟨"a", 1⟩)] [.print (.var 0 ⟨"b", 2⟩)] 1 1 rfl rfl

end Rill
