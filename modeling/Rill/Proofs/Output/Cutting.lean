import Rill.Proofs.Globals.Watching
import Rill.Proofs.Output.Silence

/-!
# Output that is cut

Code is run with a sink that takes everything, and with one that takes only so many bytes. To say
what is done until that one is full, the code is also run up to the print that does not fit: such a
run goes as usual, only that it raises an alarm in place of a print whose line would not fit. What
the three runs have to do with each other is said once, and holds of sequences, scopes and prints.
-/

namespace Rill

/-! ## Sinks with and without a limit -/

namespace Sink

theorem extract_eq_self {bytes : ByteArray} {n : Nat} (fits : bytes.size ≤ n) :
    bytes.extract 0 n = bytes := by
  rw [← Nat.max_eq_left fits, ByteArray.extract_zero_max_size]

/-- What a sink that takes everything would be if it took only so many bytes in all. -/
def limited (total : Nat) (sink : Sink) : Sink :=
  ⟨sink.taken.extract 0 total, some (total - sink.taken.size), sink.flushes⟩

/-- A sink that takes everything comes, by taking more, to be another one. -/
structure LeadsTo (sink later : Sink) : Prop where
  room_eq : later.room = none
  flushes_eq : later.flushes = sink.flushes
  taken_eq : ∃ more, later.taken = sink.taken ++ more

namespace LeadsTo

variable {sink later last : Sink}

theorem refl (free : sink.room = none) : sink.LeadsTo sink :=
  ⟨free, rfl, .empty, ByteArray.append_empty.symm⟩

theorem trans (former : sink.LeadsTo later) (latter : later.LeadsTo last) : sink.LeadsTo last := by
  obtain ⟨more, taken⟩ := former.taken_eq
  obtain ⟨rest, taken'⟩ := latter.taken_eq
  refine ⟨latter.room_eq, latter.flushes_eq.trans former.flushes_eq, more ++ rest, ?_⟩
  rw [taken', taken, ByteArray.append_assoc]

theorem size_le (leads : sink.LeadsTo later) : sink.taken.size ≤ later.taken.size := by
  obtain ⟨more, taken⟩ := leads.taken_eq
  rw [taken, ByteArray.size_append]
  exact Nat.le_add_right _ _

theorem exists_eq {before : ByteArray} (leads : LeadsTo ⟨before, none, true⟩ later) :
    ∃ output, later = ⟨before ++ output, none, true⟩ := by
  obtain ⟨room, flushes, output, taken⟩ := leads
  obtain ⟨_, _, _⟩ := later
  subst room flushes taken
  exact ⟨output, rfl⟩

/-- Once there is no more room, what comes later does not matter. -/
theorem limited_eq {total : Nat} (leads : sink.LeadsTo later) (past : total ≤ sink.taken.size) :
    later.limited total = sink.limited total := by
  obtain ⟨more, taken⟩ := leads.taken_eq
  have kept : later.taken.extract 0 total = sink.taken.extract 0 total := by
    rw [taken, ByteArray.extract_append, Nat.sub_eq_zero_of_le past, Nat.zero_sub,
      ByteArray.extract_same, ByteArray.append_empty]
  have noRoom : total - later.taken.size = total - sink.taken.size := by
    have := leads.size_le
    omega
  rw [limited, limited, kept, noRoom, leads.flushes_eq]

end LeadsTo

/-- The sink behind a text that it takes. -/
def push (sink : Sink) (text : String) : Sink :=
  { sink with taken := sink.taken ++ text.toUTF8 }

theorem size_push (sink : Sink) (text : String) :
    (sink.push text).taken.size = sink.taken.size + text.utf8ByteSize := by
  rw [push, ByteArray.size_append, ← String.size_toByteArray]
  rfl

theorem leadsTo_push {sink : Sink} (free : sink.room = none) (text : String) :
    sink.LeadsTo (sink.push text) :=
  ⟨free, rfl, _, rfl⟩

theorem write_of_free {sink : Sink} (free : sink.room = none) (text : String) :
    sink.write text = (sink.push text, none) := by
  simp only [write, push, free]

/-- A sink with a limit takes what one without would, up to there. -/
theorem write_limited {sink : Sink} {total : Nat} (fitting : sink.taken.size ≤ total)
    (text : String) :
    (sink.limited total).write text = ((sink.push text).limited total,
      if total < (sink.push text).taken.size then some .full else none) := by
  have size : text.toUTF8.size = text.utf8ByteSize := String.size_toByteArray
  have kept : (sink.push text).taken.extract 0 total =
      sink.taken.extract 0 total ++ text.toUTF8.extract 0 (total - sink.taken.size) := by
    rw [push, ByteArray.extract_append, Nat.zero_sub]
  simp only [write, limited, kept, size_push, size]
  by_cases within : text.utf8ByteSize ≤ total - sink.taken.size
  · have whole : text.toUTF8.extract 0 (total - sink.taken.size) = text.toUTF8 :=
      extract_eq_self (Nat.le_trans (Nat.le_of_eq size) within)
    rw [if_pos within, if_neg (by omega), whole, Nat.sub_sub]
    rfl
  · have noRoom : total - (sink.taken.size + text.utf8ByteSize) = 0 := by omega
    rw [if_neg within, if_pos (by omega), noRoom]
    rfl

/-- What there is room for behind what was taken before. -/
theorem limited_append (before output : ByteArray) (room : Nat) :
    Sink.limited (before.size + room) ⟨before ++ output, none, true⟩ =
      ⟨before ++ output.extract 0 room, some (room - output.size), true⟩ := by
  have first : before.extract 0 (before.size + room) = before :=
    extract_eq_self (Nat.le_add_right _ _)
  rw [limited, ByteArray.extract_append, first, Nat.zero_sub, Nat.add_sub_cancel_left,
    ByteArray.size_append, Nat.add_sub_add_left]

theorem limited_self (before : ByteArray) (room : Nat) :
    Sink.limited (before.size + room) ⟨before, none, true⟩ = ⟨before, some room, true⟩ := by
  have sink_eq := limited_append before .empty room
  rwa [extract_eq_self (Nat.zero_le room), ByteArray.append_empty] at sink_eq

end Sink

/-- The machine, if its sink took only so many bytes in all. -/
def Machine.limited (total : Nat) (m : Machine) : Machine :=
  m.withSink (m.sink.limited total)

namespace Run

variable {α β : Type}

theorem leaving_limited {total : Nat} {r : EStateM.Result Halt Machine α} {sink : Sink}
    (limited : (Machine.ofResult r).sink.limited total = sink) :
    leaving (Machine.limited total) r = leaving (·.withSink sink) r := by
  subst limited
  cases r <;> rfl

/-! ## Up to the print that does not fit -/

/-- Prints a value, or raises an alarm if more than so many bytes would be taken in all. -/
def printUntil (total : Nat) (alarm : Halt) (value : Value) : Run Unit := do
  let m ← get
  if total < m.sink.taken.size + (value.text.utf8ByteSize + 1) then throw alarm
  else print value

/-- Executes a statement up to the print that does not fit, given how its parts are. -/
def executeUntilWith (total : Nat) (alarm : Halt) (evaluate : Expr → Run Value)
    (execute : Stmt → Run Flow) (effort : Nat) : Stmt → Run Flow
  | .print e => do
    let value ← evaluate e
    printUntil total alarm value
    return .next
  | s => executeWith evaluate execute effort s

mutual

/-- Evaluates an expression up to the print that does not fit. -/
def evaluateUntil (total : Nat) (alarm : Halt) (host : Hosting) :
    (effort : Nat) → Expr → Run Value
  | 0, _ => throw .spent
  | effort + 1, e =>
    evaluateWith host (evaluateUntil total alarm host effort)
      (executeUntil total alarm host effort) e

/-- Executes a statement up to the print that does not fit. -/
def executeUntil (total : Nat) (alarm : Halt) (host : Hosting) :
    (effort : Nat) → Stmt → Run Flow
  | 0, _ => throw .spent
  | effort + 1, s =>
    executeUntilWith total alarm (evaluateUntil total alarm host effort)
      (executeUntil total alarm host effort) effort s

end

/-! ## Code with output -/

/-- How a part of a run may end from a sink that takes everything: output is never at fault. -/
structure Takes (sink : Sink) (r : EStateM.Result Halt Machine α) : Prop where
  leads : sink.LeadsTo (Machine.ofResult r).sink
  no_fault : ∀ fault n, r ≠ .error (.output fault) n

/--
How three runs of the same code end: with a sink that takes everything, with one that takes so many
bytes in all, and up to the print that does not fit. If all output fits they end alike. Otherwise
the other two come to the same print, and do nothing more.
-/
inductive Ends (total : Nat) (x : Run α) (upTo : Halt → Run α) (m : Machine) : Prop
  | ok {a : α} {n : Machine} (ran : x m = .ok a n) (fits : n.sink.taken.size ≤ total)
      (limited : x (m.limited total) = .ok a (n.limited total))
      (untilThere : ∀ alarm, upTo alarm m = .ok a n)
  | error {halt : Halt} {n : Machine} (ran : x m = .error halt n) (fits : n.sink.taken.size ≤ total)
      (limited : x (m.limited total) = .error halt (n.limited total))
      (untilThere : ∀ alarm, upTo alarm m = .error halt n)
  | spilt (k : Machine) (past : total < (Machine.ofResult (x m)).sink.taken.size)
      (limited : x (m.limited total) =
        .error (.output .full) (k.withSink ((Machine.ofResult (x m)).sink.limited total)))
      (untilThere : ∀ alarm, upTo alarm m = .error alarm k)

/-- Only the ends of the three runs count. -/
theorem Ends.congr {total : Nat} {x y : Run α} {upTo upTo' : Halt → Run α} {m n : Machine}
    (ends : Ends total y upTo' n) (ran : x m = y n)
    (limited : x (m.limited total) = y (n.limited total))
    (untilThere : ∀ alarm, upTo alarm m = upTo' alarm n) : Ends total x upTo m := by
  cases ends with
  | ok ran' fits limited' untilThere' =>
      exact .ok (ran.trans ran') fits (limited.trans limited') fun alarm =>
        (untilThere alarm).trans (untilThere' alarm)
  | error ran' fits limited' untilThere' =>
      exact .error (ran.trans ran') fits (limited.trans limited') fun alarm =>
        (untilThere alarm).trans (untilThere' alarm)
  | spilt k past limited' untilThere' =>
      rw [← ran] at past limited'
      exact .spilt k past (limited.trans limited') fun alarm =>
        (untilThere alarm).trans (untilThere' alarm)

/-- Two of the runs: they end alike if all output fits, and otherwise the limit ends one. -/
theorem Ends.fit_or_not {total : Nat} {x : Run α} {upTo : Halt → Run α} {m : Machine}
    (ends : Ends total x upTo m) :
    ((Machine.ofResult (x m)).sink.taken.size ≤ total ∧
        x (m.limited total) = leaving (Machine.limited total) (x m)) ∨
      ∃ k : Machine, total < (Machine.ofResult (x m)).sink.taken.size ∧
        (∀ alarm, upTo alarm m = .error alarm k) ∧ x (m.limited total) =
          .error (.output .full) (k.withSink ((Machine.ofResult (x m)).sink.limited total)) := by
  cases ends with
  | ok ran fits limited _ =>
      rw [ran]
      exact .inl ⟨fits, limited⟩
  | error ran fits limited _ =>
      rw [ran]
      exact .inl ⟨fits, limited⟩
  | spilt k past limited untilThere => exact .inr ⟨k, past, untilThere, limited⟩

/-- A limit on what the sink takes does no more to some code than to cut its output. -/
structure Cut (total : Nat) (x : Run α) (upTo : Halt → Run α) : Prop where
  takes : ∀ m : Machine, m.sink.room = none → Takes m.sink (x m)
  ends : ∀ m : Machine, m.sink.room = none → m.sink.taken.size ≤ total → Ends total x upTo m

namespace Cut

variable {total : Nat} {x : Run α} {upTo : Halt → Run α} {f : α → Run β}
  {next : Halt → α → Run β}

theorem of_silent (silent : x.Silent) : Cut total x fun _ => x where
  takes m free := ⟨by rw [silent.sink_eq]; exact .refl free, silent.no_fault m⟩
  ends m free fits := by
    have kept := silent.sink_eq m
    have limited : x (m.limited total) = leaving (·.withSink _) (x m) :=
      silent.apart m _
    cases ran : x m with
    | ok a n =>
        rw [ran] at kept limited
        rw [← kept] at fits limited
        exact .ok ran fits limited fun _ => ran
    | error halt n =>
        rw [ran] at kept limited
        rw [← kept] at fits limited
        exact .error ran fits limited fun _ => ran

theorem pure (a : α) : Cut total (Pure.pure a) fun _ => Pure.pure a := of_silent (.pure a)

theorem refuse (line : Nat) (cause : RuntimeCause) :
    Cut total (Run.refuse line cause : Run α) fun _ => Run.refuse line cause :=
  of_silent (refuse_silent line cause)

theorem bind (first : Cut total x upTo) (rest : ∀ a, Cut total (f a) fun alarm => next alarm a) :
    Cut total (x >>= f) fun alarm => upTo alarm >>= next alarm where
  takes m free := by
    have before := first.takes m free
    cases ran : x m with
    | ok a n =>
        rw [ran] at before
        have behind := (rest a).takes n before.leads.room_eq
        rw [bind_of_ok ran]
        exact ⟨before.leads.trans behind.leads, behind.no_fault⟩
    | error halt n =>
        rw [ran] at before
        rw [bind_of_error ran]
        exact ⟨before.leads, fun fault k same => before.no_fault fault k (by cases same; rfl)⟩
  ends m free fitting := by
    have before := first.takes m free
    cases first.ends m free fitting with
    | ok ran fits limited untilThere =>
        rw [ran] at before
        exact ((rest _).ends _ before.leads.room_eq fits).congr (bind_of_ok ran)
          (bind_of_ok limited) fun alarm => bind_of_ok (untilThere alarm)
    | error ran fits limited untilThere =>
        exact .error (bind_of_error ran) fits (bind_of_error limited) fun alarm =>
          bind_of_error (untilThere alarm)
    | spilt k past limited untilThere =>
        -- What follows the first part may take more, but there is no room for it.
        have later : (Machine.ofResult (x m)).sink.LeadsTo
            (Machine.ofResult ((x >>= f) m)).sink := by
          cases ran : x m with
          | ok a n =>
              rw [ran] at before
              rw [bind_of_ok ran]
              exact ((rest a).takes n before.leads.room_eq).leads
          | error halt n =>
              rw [ran] at before
              rw [bind_of_error ran]
              exact .refl before.leads.room_eq
        refine .spilt k (Nat.lt_of_lt_of_le past later.size_le) ?_ fun alarm =>
          bind_of_error (untilThere alarm)
        rw [later.limited_eq (Nat.le_of_lt past)]
        exact bind_of_error limited

theorem ite {condition : Prop} [Decidable condition] {y : Run α} {upToY : Halt → Run α}
    (yes : Cut total x upTo) (no : Cut total y upToY) :
    Cut total (if condition then x else y)
      fun alarm => if condition then upTo alarm else upToY alarm := by
  split
  · exact yes
  · exact no

/-- Code that looks at the machine, but not at the sink. -/
theorem read {f : Machine → Run α} {next : Halt → Machine → Run α}
    (apart : ∀ (m : Machine) (sink : Sink), f (m.withSink sink) = f m)
    (each : ∀ m, Cut total (f m) fun alarm => next alarm m) :
    Cut total (get >>= f) fun alarm => get >>= next alarm where
  takes m := (each m).takes m
  ends m free fitting := by
    refine ((each m).ends m free fitting).congr rfl ?_ fun _ => rfl
    rw [get_bind, Machine.limited, apart]

theorem inFrame (frame : FrameId) (body : Cut total x upTo) :
    Cut total (Run.inFrame frame x) fun alarm => Run.inFrame frame (upTo alarm) where
  takes m free := by
    have before := body.takes { m with current := frame } free
    rw [inFrame_eq]
    cases ran : x { m with current := frame } with
    | ok a n =>
        rw [ran] at before
        exact ⟨before.leads, nofun⟩
    | error halt n =>
        rw [ran] at before
        exact ⟨before.leads, fun fault k same => before.no_fault fault n (by cases same; rfl)⟩
  ends m free fitting := by
    cases body.ends { m with current := frame } free fitting with
    | ok ran fits limited untilThere =>
        exact .ok (inFrame_of_ok ran) fits
          (inFrame_of_ok (m := m.limited total) (n := Machine.limited total _) limited)
          fun alarm => inFrame_of_ok (untilThere alarm)
    | error ran fits limited untilThere =>
        exact .error (inFrame_of_error ran) fits
          (inFrame_of_error (m := m.limited total) (n := Machine.limited total _) limited)
          fun alarm => inFrame_of_error (untilThere alarm)
    | spilt k past limited untilThere =>
        have same : (Machine.ofResult (Run.inFrame frame x m)).sink =
            (Machine.ofResult (x { m with current := frame })).sink := by
          rw [inFrame_eq]
          cases x { m with current := frame } <;> rfl
        rw [← same] at past limited
        exact .spilt { k with current := m.current } past
          (inFrame_of_error (m := m.limited total) (n := k.withSink _) limited)
          fun alarm => inFrame_of_error (untilThere alarm)

theorem inNewFrame (body : Cut total x upTo) :
    Cut total (Run.inNewFrame x) fun alarm => Run.inNewFrame (upTo alarm) :=
  .read (fun _ _ => rfl) fun _ => .bind (of_silent (newFrame_silent _)) fun frame =>
    .inFrame frame body

end Cut

/-! ## Printing -/

/-- The machine behind a text that its sink takes. -/
def written (m : Machine) (text : String) : Machine := m.withSink (m.sink.push text)

theorem write_of_free {m : Machine} (free : m.sink.room = none) (text : String) :
    write text m = .ok () (written m text) := by
  rw [write, get_bind, Sink.write_of_free free]
  rfl

theorem write_limited {m : Machine} {total : Nat} (fitting : m.sink.taken.size ≤ total)
    (text : String) :
    write text (m.limited total) =
      if total < (written m text).sink.taken.size then
        .error (.output .full) ((written m text).limited total)
      else .ok () ((written m text).limited total) := by
  have taken : (m.limited total).sink.write text = _ := Sink.write_limited fitting text
  rw [write, get_bind, taken]
  change _ = ite (total < (m.sink.push text).taken.size) _ _
  by_cases past : total < (m.sink.push text).taken.size
  · rw [if_pos past, if_pos past]
    rfl
  · rw [if_neg past, if_neg past]
    rfl

/-- The machine behind a print. -/
def printed (m : Machine) (value : Value) : Machine := written (written m value.text) "\n"

theorem size_printed (m : Machine) (value : Value) :
    (printed m value).sink.taken.size = m.sink.taken.size + (value.text.utf8ByteSize + 1) := by
  have text := Sink.size_push m.sink value.text
  have line := Sink.size_push (m.sink.push value.text) "\n"
  exact line.trans (by rw [text, Nat.add_assoc]; rfl)

theorem leadsTo_printed {m : Machine} (free : m.sink.room = none) (value : Value) :
    m.sink.LeadsTo (printed m value).sink :=
  have behind : (m.sink.push value.text).room = none := free
  (Sink.leadsTo_push free value.text).trans (Sink.leadsTo_push behind "\n")

theorem print_of_free {m : Machine} (free : m.sink.room = none) (value : Value) :
    print value m = .ok () (printed m value) :=
  (bind_of_ok (write_of_free free _)).trans (write_of_free (m := written m value.text) free _)

/-- A line that does not fit is cut where the room ends, in its text or before its break. -/
theorem print_limited {m : Machine} {total : Nat} (free : m.sink.room = none)
    (fitting : m.sink.taken.size ≤ total) (value : Value) :
    print value (m.limited total) =
      if total < (printed m value).sink.taken.size then
        .error (.output .full) ((printed m value).limited total)
      else .ok () ((printed m value).limited total) := by
  have text := write_limited fitting value.text
  have later : (written m value.text).sink.LeadsTo (printed m value).sink :=
    have behind : (m.sink.push value.text).room = none := free
    Sink.leadsTo_push behind "\n"
  by_cases past : total < (written m value.text).sink.taken.size
  · rw [if_pos past] at text
    rw [if_pos (Nat.lt_of_lt_of_le past later.size_le), Machine.limited, Machine.limited,
      later.limited_eq (Nat.le_of_lt past)]
    exact bind_of_error text
  · rw [if_neg past] at text
    exact (bind_of_ok text).trans (write_limited (Nat.le_of_not_lt past) _)

theorem print_cut (total : Nat) (value : Value) :
    Cut total (print value) fun alarm => printUntil total alarm value where
  takes m free := by
    rw [print_of_free free]
    exact ⟨leadsTo_printed free value, nofun⟩
  ends m free fitting := by
    have ran := print_of_free free value
    have limited := print_limited free fitting value
    have untilThere (alarm : Halt) : printUntil total alarm value m =
        if total < (printed m value).sink.taken.size then .error alarm m
        else .ok () (printed m value) := by
      rw [printUntil, get_bind, size_printed]
      by_cases past : total < m.sink.taken.size + (value.text.utf8ByteSize + 1)
      · rw [if_pos past, if_pos past]
        rfl
      · rw [if_neg past, if_neg past, ran]
    by_cases past : total < (printed m value).sink.taken.size
    · rw [if_pos past] at limited
      simp only [if_pos past] at untilThere
      refine .spilt m (by rw [ran]; exact past) ?_ untilThere
      rw [limited, ran]
      rfl
    · rw [if_neg past] at limited
      simp only [if_neg past] at untilThere
      exact .ok ran (Nat.le_of_not_lt past) limited untilThere

end Run

end Rill
