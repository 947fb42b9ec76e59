import Rill.Machine.Basic

/-!
# Runs that end alike

Two runs, which may be of machines of different kinds, end alike if both end well or both halt, with
answers and states that are related. A sequence is compared part by part: what is known behind the
first parts is known in front of the second ones.
-/

namespace Rill

variable {σ τ α β α' β' : Type}

/-- Two ends of runs are alike. -/
inductive EndsAlike (good : α → σ → β → τ → Prop) (bad : Halt → σ → Halt → τ → Prop) :
    EStateM.Result Halt σ α → EStateM.Result Halt τ β → Prop
  | ok {a : α} {s : σ} {b : β} {t : τ} : good a s b t → EndsAlike good bad (.ok a s) (.ok b t)
  | error {halt halt' : Halt} {s : σ} {t : τ} : bad halt s halt' t →
      EndsAlike good bad (.error halt s) (.error halt' t)

namespace EndsAlike

variable {good : α → σ → β → τ → Prop} {bad : Halt → σ → Halt → τ → Prop} {x : EStateM Halt σ α}
  {y : EStateM Halt τ β} {s s' : σ} {t t' : τ}

/-- How the two runs may have ended. -/
theorem ok_or_error {r : EStateM.Result Halt σ α} {r' : EStateM.Result Halt τ β}
    (ends : EndsAlike good bad r r') :
    (∃ a s b t, r = .ok a s ∧ r' = .ok b t ∧ good a s b t) ∨
      ∃ halt s halt' t, r = .error halt s ∧ r' = .error halt' t ∧ bad halt s halt' t := by
  cases ends with
  | ok related => exact .inl ⟨_, _, _, _, rfl, rfl, related⟩
  | error related => exact .inr ⟨_, _, _, _, rfl, rfl, related⟩

/-- Less may be asked for at the end. -/
theorem mono {good' : α → σ → β → τ → Prop} {bad' : Halt → σ → Halt → τ → Prop}
    {r : EStateM.Result Halt σ α} {r' : EStateM.Result Halt τ β} (ends : EndsAlike good bad r r')
    (goodImp : ∀ {a s b t}, good a s b t → good' a s b t)
    (badImp : ∀ {halt s halt' t}, bad halt s halt' t → bad' halt s halt' t) :
    EndsAlike good' bad' r r' := by
  cases ends with
  | ok related => exact .ok (goodImp related)
  | error related => exact .error (badImp related)

/-- Sequences end alike if their first parts do, and what follows does from there. -/
theorem bind {between : α → σ → β → τ → Prop} {good : α' → σ → β' → τ → Prop}
    {f : α → EStateM Halt σ α'} {g : β → EStateM Halt τ β'}
    (first : EndsAlike between bad (x s) (y t))
    (next : ∀ {a s' b t'}, between a s' b t' → EndsAlike good bad (f a s') (g b t')) :
    EndsAlike good bad ((x >>= f) s) ((y >>= g) t) := by
  change EndsAlike good bad (EStateM.bind x f s) (EStateM.bind y g t)
  unfold EStateM.bind
  revert first
  generalize x s = r
  generalize y t = r'
  intro first
  cases first with
  | ok related => exact next related
  | error related => exact .error related

/-- A first part that is known to end well leaves what follows it, on the left. -/
theorem bind_left {f : α → EStateM Halt σ α'} {r : EStateM.Result Halt τ β} {a : α}
    {good : α' → σ → β → τ → Prop} (ran : x s = .ok a s')
    (next : EndsAlike good bad (f a s') r) : EndsAlike good bad ((x >>= f) s) r := by
  change EndsAlike good bad (EStateM.bind x f s) r
  rw [EStateM.bind, ran]
  exact next

/-- A first part that is known to end well leaves what follows it, on the right. -/
theorem bind_right {g : β → EStateM Halt τ β'} {r : EStateM.Result Halt σ α} {b : β}
    {good : α → σ → β' → τ → Prop} (ran : y t = .ok b t')
    (next : EndsAlike good bad r (g b t')) : EndsAlike good bad r ((y >>= g) t) := by
  change EndsAlike good bad r (EStateM.bind y g t)
  rw [EStateM.bind, ran]
  exact next

end EndsAlike

end Rill
