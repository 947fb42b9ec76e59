import Rill.Proofs.Lexical.Agreement
import Rill.Proofs.Machine.Lockstep
import Rill.Proofs.Machine.Variables

/-!
# Runs alongside each other

A run of the machine goes alongside a run without frames if, from agreeing states, the two give
alike answers or halt for the same reason, which is never broken bookkeeping, and leave agreeing
states in a world that the former one leads to. Sequences go alongside part by part.
-/

namespace Rill.Lexical

namespace World

/-- A world leads to another one during a run, which adds no code. -/
structure Becomes (w : World) (opened : Option FrameId) (w' : World) : Prop extends
    w.LeadsTo opened w' where
  ledger_eq : w'.ledger = w.ledger

/-- A machine with a current frame agrees with a store. -/
structure Meets (w : World) (current : FrameId) (m : Machine) (s : Store) : Prop where
  agree : w.Agree m s
  current_eq : m.current = current

namespace Becomes

variable {w w₁ w₂ : World} {opened : Option FrameId} {frame : FrameId} {name : String}

theorem refl (w : World) (opened : Option FrameId) : w.Becomes opened w := ⟨.refl w opened, rfl⟩

theorem trans (former : w.Becomes opened w₁) (latter : w₁.Becomes opened w₂) :
    w.Becomes opened w₂ :=
  ⟨former.toLeadsTo.trans latter.toLeadsTo, latter.ledger_eq.trans former.ledger_eq⟩

theorem weaken (becomes : w.Becomes none w₁) (opened : Option FrameId) : w.Becomes opened w₁ :=
  ⟨becomes.toLeadsTo.weaken opened, becomes.ledger_eq⟩

theorem close (becomes : w.Becomes (some frame) w₁) (new : w.size ≤ frame) : w.Becomes none w₁ :=
  ⟨becomes.toLeadsTo.close new, becomes.ledger_eq⟩

theorem addFrame (w : World) (enclosing : FrameId) : w.Becomes none (w.addFrame enclosing) :=
  ⟨w.leadsTo_addFrame enclosing, rfl⟩

theorem put (location : Location) (vacant : w.place frame name = none) :
    w.Becomes (some frame) (w.put frame name location) :=
  ⟨leadsTo_put location vacant, rfl⟩

theorem fill (w : World) (frame : FrameId) (name : String) : w.Becomes none (w.fill frame name) :=
  ⟨w.leadsTo_fill frame name, rfl⟩

end Becomes

end World

open World

variable {α α' β β' : Type}

/-- Two runs went alongside each other. -/
def Alongside (w : World) (opened : Option FrameId) (current : FrameId)
    (related : World → α → β → Prop) :
    EStateM.Result Halt Machine α → EStateM.Result Halt Store β → Prop :=
  EndsAlike
    (fun a m b s => ∃ w', w.Becomes opened w' ∧ w'.Meets current m s ∧ related w' a b)
    (fun halt m halt' s => halt = halt' ∧ (∀ breach, halt ≠ .breach breach) ∧
      ∃ w', w.Becomes opened w' ∧ w'.Meets current m s)

namespace Alongside

variable {w w' : World} {opened : Option FrameId} {current frame : FrameId} {m : Machine}
  {s : Store} {related between : World → α → β → Prop} {r : EStateM.Result Halt Machine α}
  {r' : EStateM.Result Halt Store β} {x : Rill.Run α} {y : Run β}

theorem ok {a : α} {b : β} (meets : w.Meets current m s) (alike : related w a b) :
    Alongside w opened current related (.ok a m) (.ok b s) :=
  EndsAlike.ok ⟨w, .refl w opened, meets, alike⟩

theorem halt (meets : w.Meets current m s) {reason : Halt}
    (sound : ∀ breach, reason ≠ .breach breach) :
    Alongside w opened current related (.error reason m) (.error reason s) :=
  EndsAlike.error ⟨rfl, sound, w, .refl w opened, meets⟩

theorem spent (meets : w.Meets current m s) :
    Alongside w opened current related (.error .spent m) (.error .spent s) :=
  halt meets (by simp)

theorem refuse (meets : w.Meets current m s) (line : Nat) (cause : RuntimeCause) :
    Alongside w opened current related (Rill.Run.refuse line cause m) (Run.refuse line cause s) :=
  halt meets (by simp)

/-- Runs that went alongside also did so from any world in front. -/
theorem behind (becomes : w.Becomes opened w')
    (runs : Alongside w' opened current related r r') :
    Alongside w opened current related r r' := by
  refine EndsAlike.mono runs ?_ ?_
  · intro a m b s ended
    obtain ⟨last, leads, meets, alike⟩ := ended
    exact ⟨last, becomes.trans leads, meets, alike⟩
  · intro reason m reason' s ended
    obtain ⟨same, sound, last, leads, meets⟩ := ended
    exact ⟨same, sound, last, becomes.trans leads, meets⟩

theorem mono (runs : Alongside w opened current between r r')
    (implies : ∀ {w' a b}, w.Becomes opened w' → between w' a b → related w' a b) :
    Alongside w opened current related r r' := by
  refine EndsAlike.mono runs ?_ id
  intro a m b s ended
  obtain ⟨last, leads, meets, alike⟩ := ended
  exact ⟨last, leads, meets, implies leads alike⟩

theorem weaken (runs : Alongside w none current related r r') (opened : Option FrameId) :
    Alongside w opened current related r r' := by
  refine EndsAlike.mono runs ?_ ?_
  · intro a m b s ended
    obtain ⟨last, leads, meets, alike⟩ := ended
    exact ⟨last, leads.weaken opened, meets, alike⟩
  · intro reason m reason' s ended
    obtain ⟨same, sound, last, leads, meets⟩ := ended
    exact ⟨same, sound, last, leads.weaken opened, meets⟩

theorem close (runs : Alongside w (some frame) current related r r') (new : w.size ≤ frame) :
    Alongside w none current related r r' := by
  refine EndsAlike.mono runs ?_ ?_
  · intro a m b s ended
    obtain ⟨last, leads, meets, alike⟩ := ended
    exact ⟨last, leads.close new, meets, alike⟩
  · intro reason m reason' s ended
    obtain ⟨same, sound, last, leads, meets⟩ := ended
    exact ⟨same, sound, last, leads.close new, meets⟩

/-- What follows is compared in the world that the first parts leave. -/
theorem bind {related : World → α' → β' → Prop} {f : α → Rill.Run α'} {g : β → Run β'}
    (first : Alongside w opened current between (x m) (y s))
    (next : ∀ {w' m' s' a b}, w.Becomes opened w' → w'.Meets current m' s' → between w' a b →
      Alongside w' opened current related (f a m') (g b s')) :
    Alongside w opened current related ((x >>= f) m) ((y >>= g) s) := by
  refine EndsAlike.bind (EndsAlike.mono first id ?_) ?_
  · rintro reason m reason' s ended
    exact ended
  · intro a m' b s' ended
    obtain ⟨w', leads, meets, alike⟩ := ended
    exact (next leads meets alike).behind leads

/-- While the first parts run, the frame that is open to what follows may be left alone. -/
theorem bind_closed {related : World → α' → β' → Prop} {f : α → Rill.Run α'} {g : β → Run β'}
    (first : Alongside w none current between (x m) (y s))
    (next : ∀ {w' m' s' a b}, w.Becomes none w' → w'.Meets current m' s' → between w' a b →
      Alongside w' opened current related (f a m') (g b s')) :
    Alongside w opened current related ((x >>= f) m) ((y >>= g) s) := by
  refine EndsAlike.bind (EndsAlike.mono first id ?_) ?_
  · intro reason m reason' s ended
    obtain ⟨same, sound, last, leads, meets⟩ := ended
    exact ⟨same, sound, last, leads.weaken opened, meets⟩
  · intro a m' b s' ended
    obtain ⟨w', leads, meets, alike⟩ := ended
    exact (next leads meets alike).behind (leads.weaken opened)

/-- The second run may add something to its answer. -/
theorem map_right {γ : Type} {related : World → α → γ → Prop} {g : β → γ}
    (runs : Alongside w opened current between r (y s))
    (implies : ∀ {w' a b}, w.Becomes opened w' → between w' a b → related w' a (g b)) :
    Alongside w opened current related r ((y >>= fun b => pure (g b)) s) := by
  change Alongside w opened current related r (EStateM.bind y _ s)
  unfold EStateM.bind
  revert runs
  generalize y s = r'
  intro runs
  cases runs with
  | ok ended =>
      obtain ⟨w', becomes, meets, alike⟩ := ended
      exact EndsAlike.ok ⟨w', becomes, meets, implies becomes alike⟩
  | error ended => exact EndsAlike.error ended

end Alongside

/-! ## Counters, output and frames -/

section Steps

variable {w : World} {opened : Option FrameId} {current : FrameId} {m : Machine} {s : Store}

theorem newIdentity_alongside (meets : w.Meets current m s) :
    Alongside w opened current (fun _ a b => a = b) (Rill.Run.newIdentity m)
      (Run.newIdentity s) :=
  Alongside.ok ⟨meets.agree.newIdentity, meets.current_eq⟩ meets.agree.nextIdentity_eq

theorem countHostCall_alongside (meets : w.Meets current m s) :
    Alongside w opened current (fun _ a b => a = b) (Rill.Run.countHostCall m)
      (Run.countHostCall s) :=
  Alongside.ok ⟨meets.agree.countHostCall, meets.current_eq⟩ meets.agree.hostCalls_eq

theorem write_alongside (meets : w.Meets current m s) (text : String) :
    Alongside w opened current (fun _ _ _ => True) (Rill.Run.write text m) (Run.write text s) := by
  have after : w.Meets current { m with sink := (m.sink.write text).1 }
      { s with sink := (m.sink.write text).1 } :=
    ⟨meets.agree.setSink _, meets.current_eq⟩
  rw [Rill.Run.write, Run.write, Rill.Run.get_bind, Rill.Run.get_bind, ← meets.agree.sink_eq]
  generalize m.sink.write text = written at after
  obtain ⟨sink, fault⟩ := written
  cases fault with
  | none => exact Alongside.ok after trivial
  | some fault => exact Alongside.halt after (by simp)

theorem print_alongside (meets : w.Meets current m s) {value : Value} {value' : Value Env}
    (alike : w.Alike value value') :
    Alongside w opened current (fun _ _ _ => True) (Rill.Run.print value m)
      (Run.print value' s) := by
  rw [Rill.Run.print, Run.print, alike.text_eq]
  exact (write_alongside meets _).bind fun _ after _ => write_alongside after _

theorem flush_alongside (meets : w.Meets current m s) :
    Alongside w opened current (fun _ _ _ => True) (Rill.Run.flush m) (Run.flush s) := by
  rw [Rill.Run.flush, Run.flush, Rill.Run.get_bind, Rill.Run.get_bind, ← meets.agree.sink_eq]
  cases m.sink.flush with
  | none => exact Alongside.ok meets trivial
  | some fault => exact Alongside.halt meets (by simp)

/-- The frame that is current during a part of a run does not matter behind it. -/
theorem inFrame_alongside {α β : Type} {related : World → α → β → Prop} {body : Rill.Run α}
    {r' : EStateM.Result Halt Store β} {frame : FrameId} (here : m.current = current)
    (runs : Alongside w opened frame related (body { m with current := frame }) r') :
    Alongside w opened current related (Rill.Run.inFrame frame body m) r' := by
  unfold Rill.Run.inFrame
  revert runs
  generalize body { m with current := frame } = r
  intro runs
  cases runs with
  | ok ended =>
      obtain ⟨w', becomes, meets, alike⟩ := ended
      exact EndsAlike.ok ⟨w', becomes, ⟨meets.agree.setCurrent _, here⟩, alike⟩
  | error ended =>
      obtain ⟨same, sound, w', becomes, meets⟩ := ended
      exact EndsAlike.error ⟨same, sound, w', becomes, meets.agree.setCurrent _, here⟩

end Steps

end Rill.Lexical
