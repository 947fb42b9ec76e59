import Rill.Command.Response
import Rill.Proofs.Machine.Effort
import Rill.Proofs.Output.Limit
import Rill.Proofs.Sessions.Restoring
import Rill.Proofs.Token.Segments

/-!
# Commands on one file

The commands that tokenize, parse and run a file go through the phases in the same order, so they
tell of the same faults in the same words, and none of them goes on behind a phase that finds any.
-/

namespace Rill

/-! ## Lines -/

/-- Texts with line feeds between them and one more behind them are lines. -/
theorem Response.intercalate_append_eq_lines {texts : List String} (nonempty : texts ≠ []) :
    "\n".intercalate texts ++ "\n" = lines texts := by
  induction texts with
  | nil => exact absurd rfl nonempty
  | cons text rest ih =>
      rw [lines, List.map_cons, String.join_cons]
      by_cases last : rest = []
      · subst last
        rw [String.intercalate_singleton, List.map_nil, String.join_nil, String.append_empty]
      · rw [String.intercalate_cons_of_ne_nil last, String.append_assoc, ih last]
        rfl

theorem lineFeed_not_mem_toDigits (n : Nat) : '\n' ∉ Nat.toDigits 10 n := by
  intro present
  exact absurd (Nat.isDigit_of_mem_toDigits (by decide) (by decide) present) (by decide)

/-- A fault of a scan is that of a piece of the text. -/
theorem exists_piece_of_mem_scannedFaults {source : String} {d : Diagnostic}
    (present : d ∈ scannedFaults (scan source)) :
    ∃ fault text, d.cause = .lexical fault ∧ ⟨.fault fault, text⟩ ∈ pieces source.toList := by
  obtain ⟨item, scanned, same⟩ := List.mem_filterMap.mp present
  cases item with
  | ok t => cases same
  | error other =>
      cases same
      rw [scan, itemsFrom_eq, List.mem_append] at scanned
      have within := scanned.resolve_right (by simp)
      obtain ⟨p, listed, yields⟩ :=
        exists_rel_of_mem (forall₂_yields_itemsWithin _ _) within
      cases yields with
      | fault fault text line => exact ⟨fault, text, rfl, List.mem_of_mem_filter listed⟩

/-- No line feed is at fault, since the grammar reads it. -/
theorem lineFeed_not_mem_of_stands {fault : LexicalFault} {text rest : List Char}
    (stands : Piece.Stands ⟨.fault fault, text⟩ rest) : '\n' ∉ fault.message.toList := by
  have unread : ¬ Readable (.fault fault) text := nofun
  cases stands with
  | longest readable _ => exact absurd readable unread
  | @unexpected c _ _ unreadable =>
      have other : '\n' ≠ c := by
        rintro rfl
        exact unreadable (.token .newline) ['\n'] rest rfl (.token .newline)
      have words : '\n' ∉ ("Unexpected character: " ++ c.toString).toList := by simp [other]
      exact words
  | unterminated _ => decide +kernel

/-- The message of a lexical fault is one line. -/
theorem lineFeed_not_mem_message {source : String} {d : Diagnostic}
    (present : d ∈ scannedFaults (scan source)) : '\n' ∉ d.message.toList := by
  obtain ⟨fault, text, cause, listed⟩ := exists_piece_of_mem_scannedFaults present
  obtain ⟨rest, stands⟩ := (segmented_pieces source.toList).exists_stands listed
  have words := lineFeed_not_mem_of_stands stands
  have line := lineFeed_not_mem_toDigits d.line
  simp [Diagnostic.message, Cause.message, cause, words, line]

/-! ## Texts in files -/

theorem Utf8.decode_toUTF8 (source : String) : Utf8.decode source.toUTF8 = .ok source := by
  have read : String.fromUTF8? source.toUTF8 = some source := dif_pos source.isValidUTF8
  rw [decode, read]

theorem FileContent.decode_toUTF8 (name source : String) :
    (FileContent.bytes source.toUTF8).decode name = .ok source := by
  rw [decode, Utf8.decode_toUTF8]

/-! ## Phases of a text -/

section Phases

variable {source : String} {ts : List Token} {statements : List Stmt} {faults : List Diagnostic}
  {first next : Occurrence}

theorem tokens_of_faults (found : scannedFaults (scan source) ≠ []) :
    tokens source = .error (scannedFaults (scan source)) := by
  unfold tokens
  dsimp only
  split
  · next none => exact absurd none found
  · rfl

theorem tokens_of_no_faults (none : scannedFaults (scan source) = []) :
    tokens source = .ok (scannedTokens (scan source)) := by
  unfold tokens
  dsimp only
  rw [none]

theorem compile_of_scan_error (refused : tokens source = .error faults) :
    parseSource source first = (.error faults, first) ∧
      compile source first = (.error faults, first) := by
  have read : parseSource source first = (.error faults, first) := by
    unfold parseSource
    rw [refused]
  refine ⟨read, ?_⟩
  unfold compile
  rw [read]

theorem compile_of_parse_error (scanned : tokens source = .ok ts)
    (refused : parse ts first = (.error faults, next)) :
    parseSource source first = (.error faults, next) ∧
      compile source first = (.error faults, next) := by
  have read : parseSource source first = (.error faults, next) := by
    unfold parseSource
    rw [scanned]
    exact refused
  refine ⟨read, ?_⟩
  unfold compile
  rw [read]

theorem compile_of_resolve_error (read : parseSource source first = (.ok statements, next))
    (refused : resolve statements = .error faults) :
    compile source first = (.error faults, next) := by
  unfold compile
  rw [read]
  dsimp only
  rw [refused]

end Phases

namespace Command

variable {source : String} {statements : List Stmt} {faults : List Diagnostic} {program : Program}
  {next : Occurrence} {host : Hosting} {effort : Nat}

theorem respondTo_of_held {files : String → FileContent} {name : String}
    (held : files name = .bytes source.toUTF8) (answer : String → Response) :
    respondTo files (some name) answer = answer source := by
  unfold respondTo
  dsimp only
  rw [held, FileContent.decode_toUTF8]

theorem parseText_of_refused (asData : Bool)
    (refused : parseSource source 0 = (.error faults, next)) :
    parseText asData source = .ofTexts 65 "" (Response.lines (faults.map Diagnostic.message)) := by
  unfold parseText
  rw [refused]

theorem parseText_of_read (asData : Bool) (read : parseSource source 0 = (.ok statements, next)) :
    (parseText asData source).status = 0 ∧ (parseText asData source).errors = "" := by
  unfold parseText
  rw [read]
  exact ⟨rfl, rfl⟩

theorem runText_of_refused (refused : compile source 0 = (.error faults, next))
    (nonempty : faults ≠ []) :
    runText host effort source = ⟨65, .empty, Response.lines (faults.map Diagnostic.message)⟩ := by
  have lines := Response.intercalate_append_eq_lines
    (List.map_eq_nil_iff.not.mpr nonempty : faults.map Diagnostic.message ≠ [])
  rw [← lines]
  unfold runText Session.run
  rw [refused]
  rfl

/-- The machine that a program of a file is started on. -/
def started (bindings : Bindings) : Machine := (Machine.start .unlimited).addBindings bindings

theorem runText_of_compiled (compiled : compile source 0 = (.ok program, next)) :
    runText host effort source =
      match Run.interpret host effort program.statements (started program.bindings) with
      | .ok _ m => ⟨0, m.sink.taken, ""⟩
      | .error halt m => ⟨70, m.sink.taken, halt.message ++ "\n"⟩ := by
  unfold runText Session.run
  rw [compiled]
  dsimp only [Session.runProgram, Session.start, started]
  cases Run.interpret host effort program.statements
    ((Machine.start .unlimited).addBindings program.bindings) <;> rfl

/-- A program of a file halts for its own faults only, or because it spends its effort. -/
theorem halt_of_interpret (compiled : compile source 0 = (.ok program, next))
    {readings : Nat → Except String Number} {halt : Halt} {m : Machine}
    (halted : Run.interpret (.withClock readings) effort program.statements
      (started program.bindings) = .error halt m) :
    halt = .spent ∨ ∃ fault, halt = .fault fault := by
  cases halt with
  | fault fault => exact .inr ⟨fault, rfl⟩
  | spent => exact .inl rfl
  | output fault =>
      have takes := (Run.runProgram_cut 0 (.withClock readings) effort program.statements).takes
        (started program.bindings) rfl
      rw [Run.interpret_eq _ _ _ takes.leads.flushes_eq] at halted
      exact absurd halted (takes.no_fault fault m)
  | breach breach =>
      obtain ⟨w, between⟩ := (Lexical.Parallel.start .unlimited 0).exists_between
      obtain ⟨_, sound, _⟩ := between.run readings effort source (Nat.le_refl 0)
      refine absurd ?_ (sound breach)
      unfold Session.run
      rw [compiled]
      dsimp only [Session.runProgram, Session.start]
      unfold started at halted
      rw [halted]

/-- A program of a file that does not go on for too long ends as it does with less effort. -/
theorem runText_of_interpret (compiled : compile source 0 = (.ok program, next))
    {readings : Nat → Except String Number} {spent : Nat} (enough : spent ≤ effort)
    (lasts : ∀ m, Run.interpret (.withClock readings) spent program.statements
      (started program.bindings) ≠ .error .spent m) :
    (∃ m, Run.interpret (.withClock readings) spent program.statements
        (started program.bindings) = .ok () m ∧
      runText (.withClock readings) effort source = ⟨0, m.sink.taken, ""⟩) ∨
    ∃ fault m, Run.interpret (.withClock readings) spent program.statements
        (started program.bindings) = .error (.fault fault) m ∧
      runText (.withClock readings) effort source =
        ⟨70, m.sink.taken, (Halt.fault fault).message ++ "\n"⟩ := by
  have same := (Run.interpret_goesAs enough program.statements
    (started program.bindings)).resolve_right fun ⟨m, raised⟩ => lasts m raised
  rw [runText_of_compiled compiled, ← same]
  cases ran : Run.interpret (.withClock readings) spent program.statements
    (started program.bindings) with
  | ok _ m => exact .inl ⟨m, rfl, rfl⟩
  | error halt m =>
      rcases halt_of_interpret compiled ran with rfl | ⟨fault, rfl⟩
      · exact absurd ran (lasts m)
      · exact .inr ⟨fault, m, rfl, rfl⟩

theorem runText_status (host : Hosting) (effort : Nat)
    (compiled : compile source 0 = (.ok program, next)) :
    (runText host effort source).status ≠ 65 := by
  have zero : (0 : Nat) ≠ 65 := by decide
  have seventy : (70 : Nat) ≠ 65 := by decide
  rw [runText_of_compiled compiled]
  split
  · exact zero
  · exact seventy

/-! ## One phase after the other -/

/-- What the commands make of a text that is refused before it is resolved. -/
theorem parseText_and_runText (asData : Bool) (host : Hosting) (effort : Nat)
    (read : parseSource source 0 = (.error faults, next))
    (refused : compile source 0 = (.error faults, next)) (nonempty : faults ≠ []) :
    (parseText asData source).status = 65 ∧ (runText host effort source).status = 65 ∧
      (parseText asData source).errors = Response.lines (faults.map Diagnostic.message) ∧
      (runText host effort source).errors = Response.lines (faults.map Diagnostic.message) := by
  rw [parseText_of_refused asData read, runText_of_refused refused nonempty]
  exact ⟨rfl, rfl, rfl, rfl⟩

/-- What running makes of a text that is read. -/
theorem runText_status_iff (host : Hosting) (effort : Nat)
    (read : parseSource source 0 = (.ok statements, next)) :
    (runText host effort source).status = 65 ∧ (runText host effort source).output = .empty ↔
      ∃ faults, resolve statements = .error faults := by
  constructor
  · rintro ⟨status, -⟩
    cases resolved : resolve statements with
    | error faults => exact ⟨faults, rfl⟩
    | ok bindings =>
        have compiled : compile source 0 = (.ok ⟨statements, bindings⟩, next) :=
          compile_eq_ok.mpr ⟨read, resolved⟩
        exact absurd status (runText_status host effort compiled)
  · rintro ⟨faults, refused⟩
    rw [runText_of_refused (compile_of_resolve_error read refused)
      (reportedBy_resolving refused).ne_nil]
    exact ⟨rfl, rfl⟩

/-- What running tells of a program that comes to an end: how it ends, and what it has printed. -/
structure TellsOf (ran : Response) (ended : EStateM.Result Halt Machine Unit) : Prop where
  halted_iff : ran.status = 70 ↔ ∃ fault m, ended = .error (.fault fault) m
  completed_iff : ran.status = 0 ↔ ∃ m, ended = .ok () m
  status : ran.status = 70 ∨ ran.status = 0
  output_eq : ran.output = (Machine.ofResult ended).sink.taken

theorem runText_of_ended (compiled : compile source 0 = (.ok program, next))
    {readings : Nat → Except String Number} {spent : Nat} (enough : spent ≤ effort)
    {ended : EStateM.Result Halt Machine Unit}
    (ends : Run.interpret (.withClock readings) spent program.statements
      (started program.bindings) = ended)
    (lasts : ∀ m, ended ≠ .error .spent m) :
    TellsOf (runText (.withClock readings) effort source) ended := by
  subst ends
  let ran := runText (.withClock readings) effort source
  rcases runText_of_interpret compiled enough lasts with ⟨m, ended, same⟩ | ⟨fault, m, ended, same⟩
  · have status : ran.status = 0 := congrArg Response.status same
    have output : ran.output = m.sink.taken := congrArg Response.output same
    rw [ended]
    exact ⟨by simp [ran, status], by simp [ran, status], .inr status, output⟩
  · have status : ran.status = 70 := congrArg Response.status same
    have output : ran.output = m.sink.taken := congrArg Response.output same
    rw [ended]
    exact ⟨by simp [ran, status], by simp [ran, status], .inl status, output⟩

/-- A text that running exits with 65 for has not been executed. -/
theorem nothing_executed (status : (runText host effort source).status = 65) :
    (runText host effort source).output = .empty ∧
      (∀ (other : Hosting) (more : Nat), runText other more source = runText host effort source) ∧
      ((Session.start .unlimited).run host effort source 0).session = Session.start .unlimited := by
  rcases compiles : compile source 0 with ⟨faults | program, next⟩
  · obtain ⟨phase, reported⟩ := exists_reportedBy_of_compile compiles
    have same (host : Hosting) (effort : Nat) : runText host effort source = _ :=
      runText_of_refused compiles reported.ne_nil
    refine ⟨by rw [same], fun other more => by rw [same, same], ?_⟩
    rw [Session.run_session, compiles]
  · exact absurd status (runText_status host effort compiles)

end Command

/-! ## Agreement -/

/--
The commands on a file agree, whatever text it holds and whatever effort they have. If the scan of
the text has faults, tokenizing, parsing and running all exit with 65 and the same errors, one line
for each fault in the order of the scan. Otherwise tokenizing exits with 0; and if the tokens are no
program, parsing and running exit with 65 and the same errors. Otherwise parsing exits with 0, and
running exits with 65 and no output just if resolution refuses the program. A program that is
resolved and comes to an end does so in one way, however much effort it takes; it makes running that
has as much effort exit with 70 if a fault of the program halts it and with 0 otherwise, and the
output is what was printed until then. Running that exits with 65 has executed nothing: no matter
what the host would have answered, and the session is as it was.
-/
theorem subcommands_agree (readings : Nat → Except String Number) (effort : Nat)
    (files : String → FileContent) (input : ByteArray) (name source : String)
    (asData asData' : Bool) (held : files name = .bytes source.toUTF8) :
    let host := Hosting.withClock readings
    let tokenized := Command.respond host effort files input (.tokenize (some name) asData)
    let parsed := Command.respond host effort files input (.parse (some name) asData')
    let ran := Command.respond host effort files input (.run (some name))
    let lexical := scannedFaults (scan source)
    (lexical ≠ [] → tokenized.status = 65 ∧ parsed.status = 65 ∧ ran.status = 65 ∧
      tokenized.errors = String.join (lexical.map fun fault => fault.message ++ "\n") ∧
      (∀ fault ∈ lexical, '\n' ∉ fault.message.toList) ∧
      parsed.errors = tokenized.errors ∧ ran.errors = tokenized.errors) ∧
    (lexical = [] → tokenized.status = 0 ∧ tokenized.errors = "" ∧
      ∃ ts, tokens source = .ok ts ∧
        (∀ faults next, parse ts 0 = (.error faults, next) →
          parsed.status = 65 ∧ ran.status = 65 ∧ parsed.errors = ran.errors) ∧
        ∀ statements next, parse ts 0 = (.ok statements, next) →
          parsed.status = 0 ∧
          (ran.status = 65 ∧ ran.output = .empty ↔ ∃ faults, resolve statements = .error faults) ∧
          ∀ bindings, resolve statements = .ok bindings → ∀ spent : Nat,
            let ended := Run.interpret host spent statements (Command.started bindings)
            (∀ m, ended ≠ .error .spent m) →
              (∀ other, Run.interpret host other statements (Command.started bindings) = ended ∨
                ∃ m, Run.interpret host other statements (Command.started bindings) =
                  .error .spent m) ∧
              (spent ≤ effort → Command.TellsOf ran ended)) ∧
    (ran.status = 65 → ran.output = .empty ∧
      (∀ (other : Hosting) (more : Nat),
        Command.respond other more files input (.run (some name)) = ran) ∧
      ((Session.start .unlimited).run host effort source 0).session =
        Session.start .unlimited) := by
  intro host tokenized parsed ran lexical
  have tokenized_eq : tokenized = Command.tokenizeText asData source :=
    Command.respondTo_of_held held _
  have parsed_eq : parsed = Command.parseText asData' source := Command.respondTo_of_held held _
  have ran_eq : ran = Command.runText host effort source := Command.respondTo_of_held held _
  rw [tokenized_eq, parsed_eq, ran_eq]
  have errors_eq : (Command.tokenizeText asData source).errors =
      Response.lines (lexical.map Diagnostic.message) := rfl
  refine ⟨fun found => ?_, fun none => ⟨?_, ?_, _, tokens_of_no_faults none, ?_, ?_⟩,
    fun status => ?_⟩
  · obtain ⟨read, refused⟩ := compile_of_scan_error (tokens_of_faults found)
    obtain ⟨parses, runs, parseErrors, runErrors⟩ :=
      Command.parseText_and_runText asData' host effort read refused found
    have status : (Command.tokenizeText asData source).status = 65 :=
      if_neg (List.isEmpty_iff.not.mpr found)
    refine ⟨status, parses, runs, ?_, fun _ => lineFeed_not_mem_message,
      parseErrors.trans errors_eq.symm, runErrors.trans errors_eq.symm⟩
    rw [errors_eq, Response.lines, List.map_map]
    rfl
  · exact if_pos (List.isEmpty_iff.mpr none)
  · rw [errors_eq, none]
    rfl
  · intro faults next parses
    obtain ⟨read, refused⟩ := compile_of_parse_error (tokens_of_no_faults none) parses
    obtain ⟨parseStatus, runStatus, parseErrors, runErrors⟩ :=
      Command.parseText_and_runText asData' host effort read refused
        (reportedBy_parsing parses).ne_nil
    exact ⟨parseStatus, runStatus, parseErrors.trans runErrors.symm⟩
  · intro statements next parses
    have read : parseSource source 0 = (.ok statements, next) :=
      parseSource_eq_ok.mpr ⟨_, tokens_of_no_faults none, parses⟩
    refine ⟨(Command.parseText_of_read asData' read).1,
      Command.runText_status_iff host effort read, ?_⟩
    intro bindings resolved spent ended lasts
    have compiled : compile source 0 = (.ok ⟨statements, bindings⟩, next) :=
      compile_eq_ok.mpr ⟨read, resolved⟩
    exact ⟨Run.interpret_eq_or_spent lasts, fun enough =>
      Command.runText_of_ended compiled enough rfl lasts⟩
  · obtain ⟨output, same, session⟩ := Command.nothing_executed status
    exact ⟨output, fun other more => (Command.respondTo_of_held held _).trans (same other more),
      session⟩

/-- A program that prints a line and then reads a variable that no one has declared. -/
theorem subcommands_agree_of_halt :
    let host := Hosting.withClock fun _ => .error "no clock"
    let files : String → FileContent := fun _ => .bytes "print true; x;".toUTF8
    let ran := Command.respond host 9 files .empty (.run (some "a"))
    files "a" = .bytes "print true; x;".toUTF8 ∧
      (Command.respond host 9 files .empty (.tokenize (some "a") true)).status = 0 ∧
      (Command.respond host 9 files .empty (.parse (some "a") false)).status = 0 ∧
      ran.status = 70 ∧ ran.output = "true\n".toUTF8 := by
  intro host files ran
  let statements : List Stmt :=
    [.print (.literal (.bool true)), .expression (.var 0 ⟨"x", 1⟩)]
  have scanned : tokens "print true; x;" = .ok
      [⟨.keyword .printWord, "print", 1⟩, ⟨.keyword .trueWord, "true", 1⟩,
       ⟨.mark .semicolon, ";", 1⟩, ⟨.identifier, "x", 1⟩, ⟨.mark .semicolon, ";", 1⟩,
       ⟨.endOfInput, "", 1⟩] := by with_unfolding_all rfl
  obtain ⟨-, accepted, -⟩ := subcommands_agree (fun _ => .error "no clock") 9 files .empty "a"
    "print true; x;" true false rfl
  obtain ⟨tokenized, -, ts, scanned', -, parses⟩ := accepted (by with_unfolding_all rfl)
  cases scanned.symm.trans scanned'
  obtain ⟨parsed, -, ends⟩ := parses statements 1 rfl
  have tells := (ends _ rfl 9 nofun).2 (Nat.le_refl 9)
  exact ⟨rfl, tokenized, parsed, tells.halted_iff.mpr ⟨⟨1, .undefinedVariable "x"⟩, _, rfl⟩,
    tells.output_eq⟩

end Rill
