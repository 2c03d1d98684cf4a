import ChickenOrder.Interaction.Noninterference

/-!
# Two machines that cannot be told apart

A machine implements another if a relation of their states is kept by every action and gives the
same output on both sides.  Then the transcripts of the two are the same, so whatever is proved of
the abstract machine's transcripts holds of the other's.

An output can be a set of answers, where a machine may choose.

The relation is between single states, not between histories: it is enough to look at one
action.  Where a machine has to be in a legal state for this, the relation says so as well.
-/

namespace Interaction

variable {Action Output σ τ : Type}

/-- Related states give the same outputs and lead to related states, for every action. -/
structure Simulation (step : Action → σ → Output × σ) (step' : Action → τ → Output × τ)
    (R : σ → τ → Prop) : Prop where
  output : ∀ {s t}, R s t → ∀ a, (step a s).1 = (step' a t).1
  kept : ∀ {s t}, R s t → ∀ a, R (step a s).2 (step' a t).2

namespace Simulation

variable {step : Action → σ → Output × σ} {step' : Action → τ → Output × τ} {R : σ → τ → Prop}
variable {s : σ} {t : τ}

/-- The final states are related, by induction on the actions. -/
theorem final (h : Simulation step step' R) (hs : R s t) (as : List Action) :
    R (final step as s) (final step' as t) := by
  induction as generalizing s t with
  | nil => exact hs
  | cons a as ih => exact ih (h.kept hs a)

/-- **The transcripts are equal.** An observer of the outputs cannot tell the two machines apart. -/
theorem transcript_eq (h : Simulation step step' R) (hs : R s t) (as : List Action) :
    transcript step as s = transcript step' as t := by
  induction as generalizing s t with
  | nil => rfl
  | cons a as ih => rw [transcript, transcript, h.output hs a, ih (h.kept hs a)]

end Simulation

end Interaction
