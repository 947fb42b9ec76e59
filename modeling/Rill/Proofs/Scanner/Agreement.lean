import Rill.Proofs.Scanner.Pieces

/-!
# Scanning by index is scanning

Between two characters a scanner awaits the items of the scan that are left. It answers the first of
them, behind any blanks and comments, and awaits the others, or nothing behind the end of the input.
So it answers the items of the scan in turn, and nothing ever after (`run_answers`).
-/

namespace Rill.Scanner

variable {source : String} {w : Window} {limit line : Nat} {read lexeme rest : List Char} {c : Char}

/-! ## Lines -/

theorem lineFeeds_of_newline (newline : (Piece.cut c rest).1.role = .token .newline) :
    (Piece.cut c rest).1.lineFeeds = 1 := by
  rcases Piece.cut_cases c rest with readable | ⟨_, same⟩ | ⟨_, same⟩
  · rw [newline] at readable
    cases readable with
    | token lexeme =>
        generalize (Piece.cut c rest).1 = p at newline lexeme
        obtain ⟨role, text⟩ := p
        cases lexeme
        rfl
  · rw [same] at newline
    cases newline
  · rw [same] at newline
    cases newline

/-- Apart from line breaks, pieces have line feeds only where lines are counted. -/
theorem lineBehind_cut (other : (Piece.cut c rest).1.role ≠ .token .newline) :
    lineBehind line (Piece.cut c rest).1 = line + (Piece.cut c rest).1.lineFeeds := by
  rcases Piece.cut_cases c rest with readable | ⟨unquoted, same⟩ | ⟨_, same⟩
  · generalize (Piece.cut c rest).1 = p at other readable
    obtain ⟨role, text⟩ := p
    cases readable with
    | @token kind _ lexeme =>
        by_cases quoted : ∃ body, kind = .string body
        · obtain ⟨body, rfl⟩ := quoted
          rfl
        · have absent := lexeme.lineFeed_not_mem (fun same => other (by rw [same]))
            fun body same => quoted ⟨body, same⟩
          rw [Piece.lineFeeds, List.count_eq_zero_of_not_mem absent]
          cases kind with
          | string body => exact absurd ⟨body, rfl⟩ quoted
          | _ => rfl
    | layout layout =>
        rw [Piece.lineFeeds, List.count_eq_zero_of_not_mem layout.lineFeed_not_mem]
        rfl
  · have plain : c ≠ '\n' := by
      rintro rfl
      exact other (by rw [Piece.cut]; rfl)
    rw [same, Piece.lineFeeds, List.count_cons_of_ne plain]
    rfl
  · rw [same]
    rfl

/-! ## Items -/

/-- What is left of a scan from a window on. -/
inductive Awaits (source : String) (w : Window) : List Item → Prop
  | within {read rest : List Char} : source.toList = read ++ rest →
      w.current = String.utf8Len read → Awaits source w (itemsFrom w.line (pieces rest))
  | behind : size source < w.current → Awaits source w []

theorem Holds.awaits {items : List Item} (holds : Holds source w read lexeme rest)
    (same : items = itemsFrom w.line (pieces rest)) : Awaits source w items := by
  rw [same]
  exact .within holds.whole (by rw [holds.current, String.utf8Len_append])

theorem takeToken_of_none (idle : w.pending = none) : (takeToken? source).run w = .ok none w := by
  have same : { w with pending := none } = w := by rw [← idle]
  simp only [takeToken?, EStateM.run_bind, EStateM.run_get, EStateM.run_modify, idle,
    EStateM.run_pure, same]

theorem Holds.takeToken_of_some (holds : Holds source w read lexeme rest) {kind : Kind}
    (pending : w.pending = some kind) :
    (takeToken? source).run w = .ok (some ⟨kind, String.ofList lexeme, w.line⟩)
      { w with pending := none, line := if kind = .newline then w.line + 1 else w.line } := by
  simp only [takeToken?, EStateM.run_bind, EStateM.run_get, EStateM.run_modify, pending,
    holds.run_slice]
  split <;> rfl

theorem item?_of_ne {kind : Kind} {text : List Char} (other : kind ≠ .newline) :
    Piece.item? line ⟨.token kind, text⟩ =
      some (.ok ⟨kind, String.ofList text, line + Piece.lineFeeds ⟨.token kind, text⟩⟩) := by
  cases kind with
  | newline => exact absurd rfl other
  | _ => rfl

/-- A token that has been read is given out, and the line goes on behind it. -/
theorem Shows.exists_token {kind : Kind} {text : List Char}
    (shows : Shows source w read line ⟨.token kind, text⟩ rest)
    (broken : kind = .newline → Piece.lineFeeds ⟨.token kind, text⟩ = 1)
    (counted : kind ≠ .newline → lineBehind line ⟨.token kind, text⟩ =
      line + Piece.lineFeeds ⟨.token kind, text⟩) :
    ∃ t w', Piece.item? line ⟨.token kind, text⟩ = some (.ok t) ∧
      (takeToken? source).run w = .ok (some t) w' ∧
      Awaits source w' (itemsFrom (line + Piece.lineFeeds ⟨.token kind, text⟩) (pieces rest)) := by
  have taken := shows.takeToken_of_some shows.pending
  have held (behind : Nat) :
      Holds source { w with pending := none, line := behind } read text rest :=
    ⟨shows.whole, shows.start, shows.current⟩
  have same := shows.line
  by_cases newline : kind = .newline
  · subst newline
    rw [if_pos rfl] at taken
    have here : w.line = line := same
    exact ⟨_, _, by rw [here]; rfl, taken, (held _).awaits (by rw [broken rfl, here])⟩
  · rw [if_neg newline] at taken
    have here := same.trans (counted newline)
    exact ⟨_, _, by rw [item?_of_ne newline, here], taken, (held _).awaits (by rw [here])⟩

/-- In front of a rest of the text, the next item is answered, and a bound on turns suffices. -/
theorem exists_next_of_within {bound : Nat} (whole : source.toList = read ++ rest)
    (here : w.current = String.utf8Len read) (above : size source < limit)
    (enough : rest.length < bound) :
    ∃ item items w', itemsFrom w.line (pieces rest) = item :: items ∧
      (next source limit bound).run w = .ok (some item) w' ∧ Awaits source w' items := by
  induction bound generalizing w read rest with
  | zero => exact absurd enough (Nat.not_lt_zero _)
  | succ bound ih =>
      have total : size source = w.current + String.utf8Len rest := by
        rw [size, bytesOf_eq, length_octets, whole, String.utf8Len_append, here]
      rw [next, run_bind_of_ok (EStateM.run_get w), if_neg (by omega)]
      cases rest with
      | nil =>
          rw [if_pos (by rw [total]; rfl)]
          refine ⟨_, [], _, by rw [pieces, itemsFrom], rfl, .behind ?_⟩
          rw [total]
          exact Nat.lt_succ_self _
      | cons c rest =>
          have some := c.utf8Size_pos
          have begun : Holds source { w with start := w.current, pending := none } read []
              (c :: rest) := ⟨by rw [whole, List.append_nil], here, here⟩
          obtain ⟨w', scanned, shows⟩ := (begun.scans_token rfl above).exists_shows
          have broken (newline : (Piece.cut c rest).1.role = .token .newline) :
              (Piece.cut c rest).1.lineFeeds = 1 :=
            lineFeeds_of_newline newline
          have counted (other : (Piece.cut c rest).1.role ≠ .token .newline) :
              lineBehind w.line (Piece.cut c rest).1 =
                w.line + (Piece.cut c rest).1.lineFeeds :=
            lineBehind_cut other
          have shorter := Piece.length_cut_le c rest
          rw [if_neg (by rw [total, String.utf8Len_cons]; omega), pieces, itemsFrom]
          simp only [EStateM.run_bind, EStateM.run_set, scanned]
          revert shows broken counted shorter
          generalize Piece.cut c rest = cut
          obtain ⟨⟨role, text⟩, after⟩ := cut
          dsimp only
          intro shows broken counted shorter
          cases role with
          | fault fault =>
              have lines := shows.line.trans (counted nofun)
              exact ⟨_, _, w', rfl, rfl, shows.awaits (by rw [lines]; rfl)⟩
          | layout =>
              have lines := shows.line.trans (counted nofun)
              have place := shows.current
              rw [← String.utf8Len_append] at place
              have fewer : after.length < bound :=
                Nat.lt_of_le_of_lt shorter (Nat.lt_of_succ_lt_succ enough)
              obtain ⟨item, items, w'', same, answered, awaits⟩ := ih shows.whole place fewer
              rw [lines] at same
              refine ⟨item, items, w'', same, ?_, awaits⟩
              simp only [verdict, EStateM.run_bind, takeToken_of_none shows.pending, answered]
          | token kind =>
              obtain ⟨t, w'', item, taken, awaits⟩ := shows.exists_token
                (fun same => broken (by rw [same])) (fun other => counted (by simpa using other))
              rw [item]
              refine ⟨_, _, w'', rfl, ?_, awaits⟩
              simp only [verdict, EStateM.run_bind, taken]
              rfl

theorem Awaits.exists_next {items : List Item} (awaits : Awaits source w items)
    (above : size source < limit) :
    ∃ w', (next source limit limit).run w = .ok items.head? w' ∧ Awaits source w' items.tail := by
  cases awaits with
  | @within read rest whole here =>
      have enough : rest.length < limit := by
        rw [size, bytesOf_eq, length_octets, whole, String.utf8Len_append] at above
        have fewer := length_le_utf8Len rest
        omega
      obtain ⟨item, items, w', same, answered, awaits⟩ :=
        exists_next_of_within whole here above enough
      rw [same]
      exact ⟨w', answered, awaits⟩
  | behind beyond =>
      refine ⟨w, ?_, .behind beyond⟩
      cases limit with
      | zero => exact absurd above (Nat.not_lt_zero _)
      | succ limit =>
          rw [next, run_bind_of_ok (EStateM.run_get w), if_pos beyond]
          rfl

/-- Asked a number of times, a scanner answers that many items, and nothing behind the last one. -/
theorem Awaits.exists_answers {items : List Item} (awaits : Awaits source w items)
    (above : size source < limit) (count : Nat) :
    ∃ w', (answers source limit count).run w =
      .ok ((List.range count).map fun i => items[i]?) w' := by
  induction count generalizing w items with
  | zero => exact ⟨w, rfl⟩
  | succ count ih =>
      obtain ⟨w', first, later⟩ := awaits.exists_next above
      obtain ⟨w'', rest⟩ := ih later
      refine ⟨w'', ?_⟩
      rw [answers, run_bind_of_ok first, run_bind_of_ok rest, List.range_succ_eq_map, List.map_cons,
        List.map_map, ← List.head?_eq_getElem?]
      simp only [List.getElem?_tail]
      rfl

/-- A scanner answers the items of the scan, one each time it is asked, and nothing ever after. -/
theorem run_answers (above : size source < limit) (count : Nat) :
    ∃ w, (answers source limit count).run .initial =
      .ok ((List.range count).map fun i => (scan source)[i]?) w := by
  have start : Awaits source .initial (scan source) := .within (List.nil_append _).symm rfl
  exact start.exists_answers above count

end Rill.Scanner
