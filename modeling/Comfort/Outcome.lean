/-!
Runs that can fail and leave a state behind either way.

What a run had done before it failed stays visible, because the state is part of both outcomes.
-/

namespace Comfort

inductive Outcome (σ ε α : Type) where
  | done (state : σ) (value : α)
  | failed (state : σ) (error : ε)

namespace Outcome

variable {σ ε α β : Type}

def state : Outcome σ ε α → σ
  | done s _ => s
  | failed s _ => s

def result : Outcome σ ε α → Except ε α
  | done _ a => .ok a
  | failed _ e => .error e

/-- Go on from the state and the value of a run that did not fail. -/
def andThen (o : Outcome σ ε α) (next : σ → α → Outcome σ ε β) : Outcome σ ε β :=
  match o with
  | done s a => next s a
  | failed s e => failed s e

def mapError {ε' : Type} (f : ε → ε') : Outcome σ ε α → Outcome σ ε' α
  | done s a => done s a
  | failed s e => failed s (f e)

@[simp] theorem andThen_done (s : σ) (a : α) (next : σ → α → Outcome σ ε β) :
    (done s a : Outcome σ ε α).andThen next = next s a := rfl

@[simp] theorem andThen_failed (s : σ) (e : ε) (next : σ → α → Outcome σ ε β) :
    (failed s e : Outcome σ ε α).andThen next = failed s e := rfl

end Outcome
end Comfort
