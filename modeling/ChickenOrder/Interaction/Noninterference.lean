import Mathlib.Data.List.Basic
import Mathlib.Data.List.Induction

/-!
# Noninterference by unwinding

A machine takes actions from a state to an output and a state.  Some of its actions are
visible.  What is visible of a run does not depend on the hidden actions if there is an
`Unwinding`: a relation of states that agree for the observer, which a hidden action on one
side does not leave and on which a visible action gives the same output on both sides.

Whether an action is visible may depend on the state it is taken in, as it does for the steps
of a thread whose owner only the state knows.

The transcript of a run pairs its actions with their outputs.  `transcript_invariant` is the
induction over runs for statements that relate what was said to the state reached.
-/

namespace Interaction

variable {Action Output σ : Type}

/-- The state a sequence of actions ends in.  Outputs on the way are forgotten. -/
def final (step : Action → σ → Output × σ) (as : List Action) (s : σ) : σ :=
  as.foldl (fun s a => (step a s).2) s

section Final

variable (step : Action → σ → Output × σ)

@[simp] theorem final_nil (s : σ) : final step [] s = s := rfl

@[simp] theorem final_cons (a : Action) (as : List Action) (s : σ) :
    final step (a :: as) s = final step as (step a s).2 := rfl

/-- The state after two lists of actions is that after the second, from the state the first has
left. -/
theorem final_append (as bs : List Action) (s : σ) :
    final step (as ++ bs) s = final step bs (final step as s) := List.foldl_append

/-- What every action keeps, a sequence of them keeps. -/
theorem final_invariant {I : σ → Prop} (hstep : ∀ a s, I s → I (step a s).2) (as : List Action)
    {s : σ} (hs : I s) : I (final step as s) := by
  induction as generalizing s with
  | nil => exact hs
  | cons a as ih => exact ih (hstep a s hs)

end Final

section Transcript

variable (step : Action → σ → Output × σ)

/-- The actions of a run, each with its output. -/
def transcript : List Action → σ → List (Action × Output)
  | [], _ => []
  | a :: as, s => (a, (step a s).1) :: transcript as (step a s).2

/-- Their transcript is the one of the first and then, from where that ends, the one of the second.
-/
theorem transcript_append (as bs : List Action) (s : σ) :
    transcript step (as ++ bs) s = transcript step as s ++ transcript step bs (final step as s) := by
  induction as generalizing s with
  | nil => rfl
  | cons a as ih =>
      rw [List.cons_append, transcript, transcript, ih, final_cons, List.cons_append]

/-- A transcript has every action once, in order. -/
theorem transcript_map_fst (as : List Action) (s : σ) :
    (transcript step as s).map Prod.fst = as := by
  induction as generalizing s with
  | nil => rfl
  | cons a as ih => rw [transcript, List.map_cons, ih]

/-- A prefix of a transcript is the transcript of a prefix of the run. -/
theorem transcript_eq_append {as : List Action} {s : σ} {earlier later : List (Action × Output)}
    (h : transcript step as s = earlier ++ later) :
    transcript step (earlier.map Prod.fst) s = earlier := by
  induction earlier generalizing as s with
  | nil => rfl
  | cons entry earlier ih =>
      cases as with
      | nil => cases h
      | cons a as =>
          rw [transcript, List.cons_append, List.cons.injEq] at h
          obtain ⟨rfl, htail⟩ := h
          rw [List.map_cons, transcript, ih htail]

/-- An entry of a transcript is what its action gives in the state before it. -/
theorem transcript_eq_append_cons {as : List Action} {s : σ}
    {earlier later : List (Action × Output)} {entry : Action × Output}
    (h : transcript step as s = earlier ++ entry :: later) :
    entry.2 = (step entry.1 (final step (earlier.map Prod.fst) s)).1 := by
  induction earlier generalizing as s with
  | nil =>
      cases as with
      | nil => cases h
      | cons a as =>
          rw [transcript, List.nil_append, List.cons.injEq] at h
          rw [← h.1]
          rfl
  | cons first earlier ih =>
      cases as with
      | nil => cases h
      | cons a as =>
          rw [transcript, List.cons_append, List.cons.injEq] at h
          obtain ⟨rfl, htail⟩ := h
          exact ih htail

/-- **Induction over runs.**  A statement about the transcript and the state that holds at the
start and is kept by every step holds of every run.  A step may rely on a property of the
transcript up to and including it. -/
theorem transcript_invariant {Q : List (Action × Output) → Prop}
    (hinitial : ∀ earlier later, Q (earlier ++ later) → Q earlier)
    {I : List (Action × Output) → σ → Prop} {s : σ} (hstart : I [] s)
    (hstep : ∀ earlier s a, Q (earlier ++ [(a, (step a s).1)]) → I earlier s →
      I (earlier ++ [(a, (step a s).1)]) (step a s).2)
    (as : List Action) (hQ : Q (transcript step as s)) :
    I (transcript step as s) (final step as s) := by
  induction as using List.reverseRecOn with
  | nil => exact hstart
  | append_singleton as a ih =>
      rw [transcript_append] at hQ ⊢
      have hbefore := ih (hinitial _ _ hQ)
      have hafter := hstep _ _ a hQ hbefore
      rwa [final_append]

end Transcript

section Observer

variable (step : Action → σ → Output × σ) (visible : Action → σ → Bool)

/-- The outputs of the visible actions. -/
def observe : List Action → σ → List Output
  | [], _ => []
  | a :: as, s => if visible a s then (step a s).1 :: observe as (step a s).2 else observe as (step a s).2

/-- The visible actions.  Whether an action is visible may depend on the state it is taken in. -/
def purge : List Action → σ → List Action
  | [], _ => []
  | a :: as, s => if visible a s then a :: purge as (step a s).2 else purge as (step a s).2

/-- Where visibility does not depend on the state, the visible actions are a filter. -/
theorem purge_eq_filter (visible : Action → Bool) (as : List Action) (s : σ) :
    purge step (fun a _ => visible a) as s = as.filter visible := by
  induction as generalizing s with
  | nil => rfl
  | cons a as ih =>
      rw [purge, List.filter_cons, ih]

/-- States that agree for the observer: they show the same, and neither hidden nor visible actions
make them differ. -/
structure Unwinding (agree : σ → σ → Prop) : Prop where
  /-- Agreeing states have the same visible actions. -/
  seen : ∀ {a s s'}, agree s s' → visible a s = visible a s'
  /-- A hidden action is not noticed. -/
  hidden : ∀ {a s s'}, visible a s = false → agree s s' → agree (step a s).2 s'
  /-- A visible action gives the same output on both sides. -/
  output : ∀ {a s s'}, visible a s = true → agree s s' → (step a s).1 = (step a s').1
  /-- It leads to agreeing states. -/
  kept : ∀ {a s s'}, visible a s = true → agree s s' → agree (step a s).2 (step a s').2

end Observer

namespace Unwinding

variable {step : Action → σ → Output × σ} {visible : Action → σ → Bool} {agree : σ → σ → Prop}
variable {s s' : σ}

/-- **Noninterference.** The visible outputs are those of the run without hidden actions.  The
induction is on the actions, from any two states that agree. -/
theorem observe_purge (h : Unwinding step visible agree) (as : List Action) (hs : agree s s') :
    observe step visible as s = observe step visible (purge step visible as s) s' := by
  induction as generalizing s s' with
  | nil => rfl
  | cons a as ih =>
      rw [observe, purge]
      by_cases hvisible : visible a s = true
      · have hvisible' : visible a s' = true := h.seen hs ▸ hvisible
        rw [if_pos hvisible, if_pos hvisible, observe, if_pos hvisible', h.output hvisible hs,
          ih (h.kept hvisible hs)]
      · rw [if_neg hvisible, if_neg hvisible]
        exact ih (h.hidden ((Bool.not_eq_true _).mp hvisible) hs)

/-- Where visibility does not depend on the state, the visible part of a transcript is the
transcript of the visible actions. -/
theorem transcript_filter {visible : Action → Bool}
    (h : Unwinding step (fun a _ => visible a) agree) (as : List Action) (hs : agree s s') :
    (transcript step as s).filter (fun entry => visible entry.1) =
      transcript step (as.filter visible) s' := by
  induction as generalizing s s' with
  | nil => rfl
  | cons a as ih =>
      rw [transcript, List.filter_cons, List.filter_cons]
      by_cases hvisible : visible a = true
      · rw [if_pos hvisible, if_pos hvisible, transcript, h.output hvisible hs, ih (h.kept hvisible hs)]
      · rw [if_neg hvisible, if_neg hvisible]
        exact ih (h.hidden ((Bool.not_eq_true _).mp hvisible) hs)

/-- The final states agree. -/
theorem final_purge (h : Unwinding step visible agree) (as : List Action) (hs : agree s s') :
    agree (final step as s) (final step (purge step visible as s) s') := by
  induction as generalizing s s' with
  | nil => exact hs
  | cons a as ih =>
      rw [purge, final_cons]
      by_cases hvisible : visible a s = true
      · rw [if_pos hvisible]
        exact ih (h.kept hvisible hs)
      · rw [if_neg hvisible]
        exact ih (h.hidden ((Bool.not_eq_true _).mp hvisible) hs)

end Unwinding

end Interaction
