import ChickenOrder.Interaction.Pool

/-!
# Components beside the world

A `Monitor` watches the world of a system and has actions of its own.  The system does not see it,
so a run of the system with a monitor is a run of the system, `Reaches.watched`, and what holds of
all runs without a monitor carries over.

A monitor is for what observes a system without taking part in it: connections that are sent
what the system emits, counters, logs.  Its own actions change its own state only.  A property
of both is an invariant of the pair, and `Reaches.monitor_invariant` asks for the two ways in
which it could be lost.
-/

namespace Interaction

/-- What happens beside a world: every change of the world is watched, and there are actions that
leave the world alone. -/
structure Monitor (σ μ Act : Type) where
  watch : σ → σ → μ → μ
  watch_self : ∀ w m, watch w w m = m
  act : Act → μ → μ

section Monitor

variable {Op : Type} {Reply : Op → Type} {ε α σ μ χ Request Env Act : Type}

/-- The pool without the monitor. -/
def Pool.watched (P : Pool Reply ε α (σ × μ) Request) : Pool Reply ε α σ Request :=
  ⟨P.world.1, P.threads⟩

/-- A step of the system, as a step of the system with a monitor. -/
def Label.beside : Label χ Request Env → Label χ Request (Env ⊕ Act)
  | .spawn i q => .spawn i q
  | .act i c => .act i c
  | .env e => .env (.inl e)

/-- The steps of the system are restricted as before, the monitor's own are not. -/
def Besides (ok : Label χ Request Env → Pool Reply ε α σ Request → Prop)
    (ℓ : Label χ Request (Env ⊕ Act)) (P : Pool Reply ε α (σ × μ) Request) : Prop :=
  ∀ ℓ₀, ℓ = ℓ₀.beside → ok ℓ₀ P.watched

namespace System

/-- The system with a monitor.  Its world is a pair, of which the programs see the first component.
-/
def monitored (S : System Reply ε α σ χ Request Env) (M : Monitor σ μ Act) :
    System Reply ε α (σ × μ) χ Request (Env ⊕ Act) where
  exec := fun o c s =>
    ((S.exec o c s.1).1, (S.exec o c s.1).2, M.watch s.1 (S.exec o c s.1).2 s.2)
  program := S.program
  env
    | .inl e, s => (S.env e s.1).map fun w => (w, M.watch s.1 w s.2)
    | .inr a, s => some (s.1, M.act a s.2)

variable {S : System Reply ε α σ χ Request Env} {M : Monitor σ μ Act}
variable {ok : Label χ Request (Env ⊕ Act) → Pool Reply ε α (σ × μ) Request → Prop}
variable {ok₀ : Label χ Request Env → Pool Reply ε α σ Request → Prop}
variable {P₀ P P' : Pool Reply ε α (σ × μ) Request}

/-- **Everything a step can do**: it is an action of the monitor, or a step of the system that the
monitor watches. -/
theorem step_monitored {ℓ : Label χ Request (Env ⊕ Act)}
    (h : (S.monitored M).step ℓ P = some P') :
    (∃ a, ℓ = .env (.inr a) ∧ P' = { P with world := (P.world.1, M.act a P.world.2) }) ∨
    (∃ ℓ₀ : Label χ Request Env, ℓ = ℓ₀.beside ∧ S.step ℓ₀ P.watched = some P'.watched ∧
      P'.world.2 = M.watch P.world.1 P'.world.1 P.world.2) := by
  obtain ⟨i, q, rfl, hnone, rfl⟩ | ⟨i, c, t, o, k, rfl, ht, hrest, rfl⟩ | ⟨e, w, rfl, hw, rfl⟩ :=
    (S.monitored M).step_cases h
  · refine .inr ⟨.spawn i q, rfl, ?_, (M.watch_self _ _).symm⟩
    simp only [step, Pool.watched, hnone]
    rfl
  · refine .inr ⟨.act i c, rfl, ?_, rfl⟩
    obtain ⟨request, hist, rest⟩ := t
    obtain rfl : rest = .call o k := hrest
    simp only [step, Pool.watched, ht]
    rfl
  · cases e with
    | inl e =>
        obtain ⟨w₀, hw₀, rfl⟩ := Option.map_eq_some_iff.mp hw
        refine .inr ⟨.env e, rfl, ?_, rfl⟩
        simp only [step, Pool.watched, hw₀]
        rfl
    | inr a =>
        cases hw
        exact .inl ⟨a, rfl, rfl⟩

/-- **Runs are watched runs.** Without its monitor a run is one of the system, so that everything
known of these applies. -/
theorem Reaches.watched (hok : ∀ ℓ P, ok ℓ P → Besides ok₀ ℓ P)
    (h : (S.monitored M).Reaches ok P₀ P) : S.Reaches ok₀ P₀.watched P.watched := by
  refine Reaches.invariant (I := fun P => S.Reaches ok₀ P₀.watched P.watched) .refl ?_ h
  intro P ℓ P' _ hI hℓ hstep
  obtain ⟨a, rfl, rfl⟩ | ⟨ℓ₀, rfl, hstep₀, -⟩ := step_monitored hstep
  · exact hI
  · exact hI.tail ⟨ℓ₀, hok _ _ hℓ ℓ₀ rfl, hstep₀⟩

/-- **Invariants of the system and its monitor.**  They are kept by what the monitor does, and by
what it does about a step of the system. -/
theorem Reaches.monitor_invariant {I : Pool Reply ε α σ Request → μ → Prop}
    (hinit : I P₀.watched P₀.world.2)
    (hact : ∀ P a, (S.monitored M).Reaches ok P₀ P → ok (.env (.inr a)) P →
      I P.watched P.world.2 → I P.watched (M.act a P.world.2))
    (hwatch : ∀ P (ℓ : Label χ Request Env) P', (S.monitored M).Reaches ok P₀ P →
      ok ℓ.beside P → S.step ℓ P.watched = some P' → I P.watched P.world.2 →
      I P' (M.watch P.world.1 P'.world P.world.2))
    (h : (S.monitored M).Reaches ok P₀ P) : I P.watched P.world.2 := by
  refine Reaches.invariant (I := fun P => I P.watched P.world.2) hinit ?_ h
  intro P ℓ P' hreach hI hℓ hstep
  obtain ⟨a, rfl, rfl⟩ | ⟨ℓ₀, rfl, hstep₀, hmonitor⟩ := step_monitored hstep
  · exact hact P a hreach hℓ hI
  · rw [hmonitor]
    exact hwatch P ℓ₀ P'.watched hreach hℓ hstep₀ hI

end System

end Monitor

end Interaction
