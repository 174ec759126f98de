import Comfort.Outcome

/-!
Two runs side by side.

Two runs are alike when both come to an end in related states, or both fail for one reason.  Steps
that keep runs alike can be put one after the other, which is how a relation is carried along a
whole run.
-/

namespace Comfort
namespace Outcome

variable {σ τ ε α β α' β' : Type}

/-- A run in two steps is done when both steps are. -/
theorem andThen_eq_done {o : Outcome σ ε α} {next : σ → α → Outcome σ ε β} {s : σ} {b : β} :
    o.andThen next = .done s b ↔ ∃ t a, o = .done t a ∧ next t a = .done s b := by
  constructor
  · intro h
    cases o with
    | done t a => exact ⟨t, a, rfl, h⟩
    | failed t e => cases h
  · intro ⟨t, a, ho, hn⟩
    rw [ho]
    exact hn

/-- A run in two steps fails when one of the steps does. -/
theorem andThen_eq_failed {o : Outcome σ ε α} {next : σ → α → Outcome σ ε β} {s : σ} {e : ε} :
    o.andThen next = .failed s e ↔
      o = .failed s e ∨ ∃ t a, o = .done t a ∧ next t a = .failed s e := by
  cases o with
  | done t a =>
    refine ⟨fun h => .inr ⟨t, a, rfl, h⟩, ?_⟩
    rintro (h | ⟨_, _, ho, hn⟩)
    · cases h
    · cases ho
      exact hn
  | failed t f =>
    refine ⟨fun h => ?_, ?_⟩
    · cases h
      exact .inl rfl
    · rintro (h | ⟨_, _, ho, _⟩)
      · cases h
        rfl
      · cases ho

theorem mapError_eq_done {ε' : Type} {f : ε → ε'} {o : Outcome σ ε α} {s : σ} {a : α} :
    o.mapError f = .done s a ↔ o = .done s a := by
  cases o <;> simp [mapError]

theorem mapError_eq_failed {ε' : Type} {f : ε → ε'} {o : Outcome σ ε α} {s : σ} {e : ε'} :
    o.mapError f = .failed s e ↔ ∃ e', o = .failed s e' ∧ f e' = e := by
  cases o <;> simp [mapError, and_assoc]

/-- `R` relates what two runs leave when they are done, and `F` what they leave when they fail. -/
inductive Alike (R : σ → α → τ → β → Prop) (F : σ → τ → Prop) :
    Outcome σ ε α → Outcome τ ε β → Prop where
  | done {s : σ} {a : α} {t : τ} {b : β} (h : R s a t b) : Alike R F (.done s a) (.done t b)
  | failed {s : σ} {t : τ} (e : ε) (h : F s t) : Alike R F (.failed s e) (.failed t e)

theorem Alike.mono {R R' : σ → α → τ → β → Prop} {F : σ → τ → Prop} {o : Outcome σ ε α}
    {q : Outcome τ ε β} (h : Alike R F o q) (hr : ∀ s a t b, R s a t b → R' s a t b) :
    Alike R' F o q := by
  cases h with
  | done h => exact .done (hr _ _ _ _ h)
  | failed e h => exact .failed e h

theorem Alike.andThen {R : σ → α → τ → β → Prop} {R' : σ → α' → τ → β' → Prop} {F : σ → τ → Prop}
    {o : Outcome σ ε α} {q : Outcome τ ε β} {next : σ → α → Outcome σ ε α'}
    {next' : τ → β → Outcome τ ε β'} (h : Alike R F o q)
    (hn : ∀ s a t b, R s a t b → Alike R' F (next s a) (next' t b)) :
    Alike R' F (o.andThen next) (q.andThen next') := by
  cases h with
  | done h => exact hn _ _ _ _ h
  | failed e h => exact .failed e h

/-- Something is done in the first run only. -/
theorem Alike.andThen_left {R : σ → α → τ → β → Prop} {R' : σ → α' → τ → β → Prop}
    {F : σ → τ → Prop} {o : Outcome σ ε α} {q : Outcome τ ε β} {next : σ → α → Outcome σ ε α'}
    (h : Alike R F o q) (hn : ∀ s a t b, R s a t b → Alike R' F (next s a) (.done t b)) :
    Alike R' F (o.andThen next) q := by
  cases h with
  | done h => exact hn _ _ _ _ h
  | failed e h => exact .failed e h

end Outcome
end Comfort
