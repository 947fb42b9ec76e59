import Rill.Proofs.Compilation
import Rill.Proofs.Scope.Recast
import Rill.Proofs.Syntax.Transport

/-!
# Joined source texts

Two source texts that compile also do with a line break between them. What comes of it are the
statements of the one and then those of the other, which stand further down by the lines of the
first, and the bindings of both. Only the numbers of mentions are others, as they would be for
either text alone if it was compiled at another time.
-/

namespace Rill

open Grammar

variable {source first second : String} {program former latter : Program} {ts : List Token}
  {start a a' b b' next : Nat} {statements : List Stmt}

/-! ## Programs and derivations -/

/-- A source text compiles if its tokens are derived and resolution finds no fault. -/
theorem exists_compile_of_derives (scanned : tokens source = .ok ts)
    (derives : Derives ts start statements next)
    (faultless : findingFaults (programFindings statements) = []) :
    ∃ program, compile source start = (.ok program, next) ∧ program.statements = statements ∧
      ∀ id d, program.bindings[id]? = some d ↔ .depth id d ∈ programFindings statements := by
  have resolved := resolve_eq_ok.mpr ⟨faultless, rfl⟩
  obtain ⟨body, rfl, lawful⟩ := exists_body_of_tokens_eq_ok scanned
  have parsed := (parse_append_eq_ok (fun t present => (lawful t present).not_endOfInput) rfl).mpr
    derives
  exact ⟨⟨statements, _⟩, compile_of_parse scanned parsed resolved, rfl,
    getElem?_resolve resolved derives.numbered.2.nodup⟩

theorem derives_of_compile (compiled : compile source start = (.ok program, next)) :
    ∃ body, tokens source = .ok (body ++ [inputEnd (linesThrough source)]) ∧
      Derives (body ++ [inputEnd (linesThrough source)]) start program.statements next := by
  obtain ⟨read, _⟩ := compile_eq_ok.mp compiled
  obtain ⟨ts, scanned, parsed⟩ := parseSource_eq_ok.mp read
  obtain ⟨body, rfl, lawful⟩ := exists_body_of_tokens_eq_ok scanned
  exact ⟨body, scanned,
    (parse_append_eq_ok (fun t present => (lawful t present).not_endOfInput) rfl).mp parsed⟩

namespace Program

theorem faultless_of_compile (compiled : compile source start = (.ok program, next)) :
    findingFaults (programFindings program.statements) = [] :=
  (resolve_eq_ok.mp (compile_eq_ok.mp compiled).2).1

theorem getElem?_bindings_of_compile (compiled : compile source start = (.ok program, next))
    (id : Occurrence) (d : Nat) :
    program.bindings[id]? = some d ↔ .depth id d ∈ programFindings program.statements :=
  have numbered := (compiled_of_compile compiled).numbered
  getElem?_resolve (compile_eq_ok.mp compiled).2 numbered.nodup id d

/-- The findings in a program elsewhere are its bindings under other numbers. -/
theorem mem_programFindings_recastAll (compiled : compile source start = (.ok program, next))
    (r : Recast) (id : Occurrence) (d : Nat) :
    .depth id d ∈ programFindings (Stmt.recastAll r program.statements) ↔
      ∃ i, program.bindings[i]? = some d ∧ r.ids i = id := by
  rw [programFindings_recastAll, mem_map_recast]
  refine exists_congr fun i => and_congr_left fun _ => ?_
  rw [getElem?_bindings_of_compile compiled]

end Program

/-! ## Other numbers -/

/-- When a source text is compiled only changes the numbers of its mentions. -/
theorem exists_compile_move (compiled : compile source a = (.ok program, a'))
    (start : Occurrence) :
    ∃ moved, compile source start = (.ok moved, a' - a + start) ∧
      moved.statements = Stmt.recastAll (.move a start 0) program.statements ∧
      ∀ id d, moved.bindings[id]? = some d ↔
        ∃ i, program.bindings[i]? = some d ∧ (Recast.move a start 0).ids i = id := by
  obtain ⟨body, scanned, derives⟩ := derives_of_compile compiled
  have faultless := findingFaults_recast_eq_nil (.move a start 0)
    (Program.faultless_of_compile compiled)
  rw [← programFindings_recastAll] at faultless
  obtain ⟨moved, compiled', same, bindings⟩ :=
    exists_compile_of_derives scanned (derives.move start) faultless
  refine ⟨moved, compiled', same, ?_⟩
  intro id d
  rw [bindings, Program.mem_programFindings_recastAll compiled]

/-- A source text has no faults. -/
def Compiles (source : String) : Prop :=
  ∃ first program next, compile source first = (.ok program, next)

/-- Whether a source text has faults does not depend on when it is compiled. -/
theorem Compiles.exists_compile (compiles : Compiles source) (start : Occurrence) :
    ∃ program next, compile source start = (.ok program, next) := by
  obtain ⟨first, program, next, compiled⟩ := compiles
  obtain ⟨moved, compiled', _⟩ := exists_compile_move compiled start
  exact ⟨moved, _, compiled'⟩

/-! ## Two texts in one -/

/-- A program has the statements of two others, one behind the other, and the bindings of both. -/
structure Program.Joins (joined former latter : Program) (r r' : Recast) : Prop where
  statements_eq : joined.statements =
    Stmt.recastAll r former.statements ++ Stmt.recastAll r' latter.statements
  bindings_iff : ∀ id d, joined.bindings[id]? = some d ↔
    (∃ i, former.bindings[i]? = some d ∧ r.ids i = id) ∨
      ∃ i, latter.bindings[i]? = some d ∧ r'.ids i = id

namespace Program.Joins

variable {joined : Program} {lines : Nat}

/-- The numbers of the two programs stay apart, so each mention keeps the binding it had. -/
theorem getElem?_former
    (joins : joined.Joins former latter (.move a start 0) (.move b (a' - a + start) lines))
    (compiled : former.Compiled a a') {id : Nat} (above : a ≤ id) (below : id < a') :
    joined.bindings[(Recast.move a start 0).ids id]? = former.bindings[id]? := by
  apply Option.ext
  intro d
  rw [joins.bindings_iff]
  constructor
  · rintro (⟨i, bound, same⟩ | ⟨i, bound, same⟩)
    · have bounds := compiled.within bound
      have equal : i = id := Recast.eq_of_move_ids_eq bounds.1 above same
      rw [← equal]
      exact bound
    · have apart : i - b + (a' - a + start) = id - a + start := same
      exact absurd apart (Nat.ne_of_gt (by omega))
  · intro bound
    exact .inl ⟨id, bound, rfl⟩

theorem getElem?_latter
    (joins : joined.Joins former latter (.move a start 0) (.move b (a' - a + start) lines))
    (compiled : former.Compiled a a') (compiled' : latter.Compiled b b') {id : Nat}
    (above : b ≤ id) :
    joined.bindings[(Recast.move b (a' - a + start) lines).ids id]? = latter.bindings[id]? := by
  apply Option.ext
  intro d
  rw [joins.bindings_iff]
  constructor
  · rintro (⟨i, bound, same⟩ | ⟨i, bound, same⟩)
    · have bounds := compiled.within bound
      have apart : i - a + start = id - b + (a' - a + start) := same
      exact absurd apart (Nat.ne_of_lt (by omega))
    · have bounds := compiled'.within bound
      have equal : i = id := Recast.eq_of_move_ids_eq bounds.1 above same
      rw [← equal]
      exact bound
  · intro bound
    exact .inr ⟨id, bound, rfl⟩

end Program.Joins

/--
Two source texts that compile also do with a line break between them. The numbers of the second
follow those of the first, and its lines those of the first.
-/
theorem exists_compile_join (compiled : compile first a = (.ok former, a'))
    (compiled' : compile second b = (.ok latter, b')) (start : Occurrence) :
    ∃ joined, compile (first ++ "\n" ++ second) start = (.ok joined, b' - b + (a' - a + start)) ∧
      joined.Joins former latter (.move a start 0)
        (.move b (a' - a + start) (linesThrough first)) := by
  obtain ⟨body, scanned, derives⟩ := derives_of_compile compiled
  obtain ⟨body', scanned', derives'⟩ := derives_of_compile compiled'
  have faultless : findingFaults (programFindings
      (Stmt.recastAll (.move a start 0) former.statements ++
        Stmt.recastAll (.move b (a' - a + start) (linesThrough first)) latter.statements)) =
          [] := by
    rw [programFindings_append, findingFaults_append, programFindings_recastAll,
      programFindings_recastAll,
      findingFaults_recast_eq_nil _ (Program.faultless_of_compile compiled),
      findingFaults_recast_eq_nil _ (Program.faultless_of_compile compiled'), List.append_nil]
  obtain ⟨joined, compiledJoin, same, bindings⟩ := exists_compile_of_derives
    (tokens_join scanned scanned') (derives.join derives' start) faultless
  refine ⟨joined, compiledJoin, same, ?_⟩
  intro id d
  rw [bindings, programFindings_append, List.mem_append,
    Program.mem_programFindings_recastAll compiled,
    Program.mem_programFindings_recastAll compiled']

/-! ## A text behind empty lines -/

/-- So many empty lines. -/
def blankLines (lines : Nat) : String := String.ofList (List.replicate lines '\n')

theorem blankLines_succ (lines : Nat) :
    blankLines (lines + 1) = "" ++ "\n" ++ blankLines lines := by
  rw [← String.toList_inj]
  simp only [blankLines, String.toList_append, String.toList_ofList, List.replicate_succ]
  rfl

theorem blankLines_succ_append (lines : Nat) (source : String) :
    blankLines (lines + 1) ++ source = blankLines lines ++ "\n" ++ source := by
  rw [← String.toList_inj]
  simp only [blankLines, String.toList_append, String.toList_ofList, List.replicate_succ']
  rfl

theorem linesThrough_blankLines (lines : Nat) : linesThrough (blankLines lines) = lines + 1 := by
  rw [linesThrough, blankLines, String.toList_ofList, List.count_replicate_self, Nat.add_comm]

theorem exists_compile_blankLines (lines : Nat) :
    ∃ blank, compile (blankLines lines) 0 = (.ok blank, 0) ∧ blank.statements = [] := by
  have scanned : tokens "" = .ok [⟨.endOfInput, "", 1⟩] := by with_unfolding_all rfl
  have compiled : compile "" 0 = (.ok ⟨[], _⟩, 0) := compile_of_parse scanned rfl rfl
  induction lines with
  | zero => exact ⟨_, compiled, rfl⟩
  | succ lines ih =>
      obtain ⟨blank, compiled', empty⟩ := ih
      obtain ⟨joined, compiledJoin, joins⟩ := exists_compile_join compiled compiled' 0
      refine ⟨joined, ?_, ?_⟩
      · rw [blankLines_succ]
        exact compiledJoin
      · rw [joins.statements_eq, empty]
        rfl

/-- A program is another one so many lines further down, under the same numbers. -/
structure Program.Lowers (lowered program : Program) (first lines : Nat) : Prop where
  statements_eq : lowered.statements = Stmt.recastAll (.move first first lines) program.statements
  bindings_eq : ∀ id : Occurrence, lowered.bindings[id]? = program.bindings[id]?

/-- Behind empty lines, a source text is the same program further down. -/
theorem exists_compile_lower (compiled : compile source a = (.ok program, a')) (lines : Nat) :
    ∃ lowered, compile (blankLines (lines + 1) ++ source) a = (.ok lowered, a') ∧
      lowered.Lowers program a (lines + 1) := by
  obtain ⟨_, _, derives⟩ := derives_of_compile compiled
  have counted : a ≤ a' := derives.numbered.1
  obtain ⟨blank, compiledBlank, empty⟩ := exists_compile_blankLines lines
  obtain ⟨lowered, compiledJoin, joins⟩ := exists_compile_join compiledBlank compiled a
  have next : a' - a + (0 - 0 + a) = a' := by omega
  have base : 0 - 0 + a = a := by omega
  rw [linesThrough_blankLines, base] at joins
  rw [next] at compiledJoin
  refine ⟨lowered, ?_, ?_, fun id => Option.ext fun d => ?_⟩
  · rw [blankLines_succ_append]
    exact compiledJoin
  · rw [joins.statements_eq, empty]
    rfl
  · rw [joins.bindings_iff]
    have within {i : Nat} (bound : program.bindings[i]? = some d) : i - a + a = i := by
      have bounds := (Program.compiled_of_compile compiled).within bound
      omega
    constructor
    · rintro (⟨i, bound, -⟩ | ⟨i, bound, rfl⟩)
      · rw [Program.getElem?_bindings_of_compile compiledBlank, empty] at bound
        cases bound
      · exact (congrArg (program.bindings[·]?) (within bound)).trans bound
    · exact fun bound => .inr ⟨id, bound, within bound⟩

/-- A program that joins others also joins the second one from further down. -/
theorem Program.Joins.lower {joined lowered : Program} {r : Recast} {lines : Nat}
    (joins : joined.Joins former latter r (.move b next lines))
    (lowers : lowered.Lowers latter b lines) : joined.Joins former lowered r (.move b next 0) where
  statements_eq := by
    rw [joins.statements_eq, lowers.statements_eq, Stmt.recastAll_recastAll,
      Recast.move_andThen_move]
    rfl
  bindings_iff id d := by
    rw [joins.bindings_iff]
    simp only [lowers.bindings_eq]
    rfl

/-- Texts without faults compile alone, joined, and the second one behind as many lines. -/
theorem Compiles.exists_join (compiles : Compiles first) (compiles' : Compiles second)
    (a b start : Occurrence) :
    ∃ former a' latter b' joined lowered,
      compile first a = (.ok former, a') ∧ compile second b = (.ok latter, b') ∧
        compile (first ++ "\n" ++ second) start = (.ok joined, b' - b + (a' - a + start)) ∧
        joined.Joins former latter (.move a start 0)
          (.move b (a' - a + start) (linesThrough first)) ∧
        compile (blankLines (linesThrough first) ++ second) b = (.ok lowered, b') ∧
        lowered.Lowers latter b (linesThrough first) := by
  obtain ⟨former, a', compiled⟩ := compiles.exists_compile a
  obtain ⟨latter, b', compiled'⟩ := compiles'.exists_compile b
  obtain ⟨joined, compiledJoin, joins⟩ := exists_compile_join compiled compiled' start
  obtain ⟨above, through⟩ : ∃ above, linesThrough first = above + 1 := ⟨_, Nat.add_comm ..⟩
  obtain ⟨lowered, compiledLower, lowers⟩ := exists_compile_lower compiled' above
  rw [← through] at compiledLower lowers
  exact ⟨former, a', latter, b', joined, lowered, compiled, compiled', compiledJoin, joins,
    compiledLower, lowers⟩

end Rill
