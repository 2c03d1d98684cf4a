import ChickenOrder.Interaction.Pool

/-!
# One thread among others

A `Protocol` describes a thread against answers it knows nothing about.  Here the calls
of one thread are executed on the world, and between two of them the world moves by a
relation `rely`, to which the other threads and the environment keep.  `relyWp` is `wp`
over the thread's history and the world; `System.relyWp_of_reaches` carries it through
every interleaving.

Where the surroundings keep a property of the world rather than a relation, a protocol is
enough: `Protocol.respects_of_invariant` proves the protocol and the property together, each
from what the other one promises of the step before.
-/

namespace Interaction

variable {Op : Type} {Reply : Op → Type} {ε α σ χ Request Env : Type}

/-- What the surroundings cannot change about an assertion on a history and a world.  Assertions
between two calls have to be such. -/
def Stable (rely : σ → σ → Prop) (A : List (Event Reply ε) × σ → Prop) : Prop :=
  ∀ h w w', rely w w' → A (h, w) → A (h, w')

namespace System

variable (S : System Reply ε α σ χ Request Env)
variable (rely : σ → σ → Prop) (admits : Op → χ → Prop)

/-- One call of a thread: the surroundings move the world, then the call is executed
under an admitted choice, and recorded. -/
def relyStep (o : Op) (s : List (Event Reply ε) × σ) (r : Except ε (Reply o))
    (s' : List (Event Reply ε) × σ) : Prop :=
  ∃ w c, rely s.2 w ∧ admits o c ∧ S.exec o c w = (r, s'.2) ∧ s'.1 = ⟨o, r⟩ :: s.1

/-- `wp` of a program among others: its calls are executed on the world that these have left. -/
abbrev relyWp {β : Type} (p : Program Reply ε β)
    (Q : β → List (Event Reply ε) × σ → Prop) (E : ε → List (Event Reply ε) × σ → Prop)
    (s : List (Event Reply ε) × σ) : Prop :=
  p.wp (S.relyStep rely admits) (fun _ _ => True) Q E s

variable {S rely admits}

/-- **One call among others**: its postcondition after whatever the surroundings did before it. -/
theorem relyWp_perform {o : Op} {Q : Reply o → List (Event Reply ε) × σ → Prop}
    {E : ε → List (Event Reply ε) × σ → Prop} {h : List (Event Reply ε)} {w : σ}
    (hok : ∀ w₁ c a, rely w w₁ → admits o c → (S.exec o c w₁).1 = .ok a →
      Q a (⟨o, .ok a⟩ :: h, (S.exec o c w₁).2))
    (herror : ∀ w₁ c e, rely w w₁ → admits o c → (S.exec o c w₁).1 = .error e →
      E e (⟨o, .error e⟩ :: h, (S.exec o c w₁).2)) :
    S.relyWp rely admits (.perform o) Q E (h, w) := by
  refine (Program.wp_perform ..).mpr ⟨trivial, ?_, ?_⟩
  · rintro a ⟨h', w'⟩ ⟨w₁, c, hmove, hc, hexec, rfl⟩
    have hspec := hok w₁ c a hmove hc (congrArg Prod.fst hexec)
    rwa [hexec] at hspec
  · rintro e ⟨h', w'⟩ ⟨w₁, c, hmove, hc, hexec, rfl⟩
    have hspec := herror w₁ c e hmove hc (congrArg Prod.fst hexec)
    rwa [hexec] at hspec

/-- **Histories grow.** What the thread has seen before, it has seen after.  So facts about the past
need no stability. -/
theorem relyWp_suffix {β : Type} {p : Program Reply ε β}
    {Q : β → List (Event Reply ε) × σ → Prop} {E : ε → List (Event Reply ε) × σ → Prop}
    {past : List (Event Reply ε)} {s : List (Event Reply ε) × σ} (hpast : past <:+ s.1)
    (hp : S.relyWp rely admits p Q E s) :
    S.relyWp rely admits p (fun a s => Q a s ∧ past <:+ s.1) (fun e s => E e s ∧ past <:+ s.1) s := by
  induction p generalizing s with
  | pure a => exact ⟨hp, hpast⟩
  | throw e => exact ⟨hp, hpast⟩
  | call o k ih =>
      refine ⟨trivial, fun r s' hstep => ih r ?_ (hp.2 r s' hstep)⟩
      obtain ⟨w, c, -, -, -, hhist⟩ := hstep
      rw [hhist]
      exact hpast.trans (List.suffix_cons _ _)

section Interleaving

variable {Q : α → List (Event Reply ε) × σ → Prop} {E : ε → List (Event Reply ε) × σ → Prop}

/-- Moves of the surroundings before a call belong to the call, if they can be put together. -/
theorem relyWp_moved (htrans : ∀ a b c, rely a b → rely b c → rely a c)
    (hQ : ∀ a, Stable rely (Q a)) (hE : ∀ e, Stable rely (E e)) {p : Program Reply ε α}
    {h : List (Event Reply ε)} {w w' : σ} (hmove : rely w w')
    (hp : S.relyWp rely admits p Q E (h, w)) : S.relyWp rely admits p Q E (h, w') := by
  cases p with
  | pure a => exact hQ a h w w' hmove hp
  | throw e => exact hE e h w w' hmove hp
  | call o k =>
      refine ⟨trivial, fun r s' hstep => ?_⟩
      obtain ⟨w₁, c, hmove₁, hc, hexec, hhist⟩ := hstep
      exact hp.2 r s' ⟨w₁, c, htrans _ _ _ hmove hmove₁, hc, hexec, hhist⟩

/-- **Interleavings.**  If the other threads and the environment keep to `rely`, a thread
is, in every reachable pool, as its program leaves it from its own history and the
world. -/
theorem relyWp_of_reaches {ok : Label χ Request Env → Pool Reply ε α σ Request → Prop}
    {P₀ P : Pool Reply ε α σ Request} (hrefl : ∀ w, rely w w)
    (htrans : ∀ a b c, rely a b → rely b c → rely a c)
    (hQ : ∀ a, Stable rely (Q a)) (hE : ∀ e, Stable rely (E e)) {i : ℕ}
    (hother : ∀ ℓ P P', ok ℓ P → (∀ c, ℓ ≠ .act i c) → S.step ℓ P = some P' →
      rely P.world P'.world)
    (hown : ∀ P c t o k, ok (.act i c) P → P.threads i = some t → t.rest = .call o k → admits o c)
    {t₀ : Thread Reply ε α Request} (ht₀ : P₀.threads i = some t₀)
    (hstart : S.relyWp rely admits t₀.rest Q E (t₀.hist, P₀.world)) (h : S.Reaches ok P₀ P) :
    ∃ t, P.threads i = some t ∧ t.request = t₀.request ∧
      S.relyWp rely admits t.rest Q E (t.hist, P.world) := by
  refine Reaches.invariant (I := fun P => ∃ t, P.threads i = some t ∧ t.request = t₀.request ∧
    S.relyWp rely admits t.rest Q E (t.hist, P.world)) ⟨t₀, ht₀, rfl, hstart⟩ ?_ h
  rintro P ℓ P' - ⟨t, ht, hreq, hwp⟩ hok hstep
  by_cases hℓ : ∃ c, ℓ = .act i c
  · obtain ⟨c, rfl⟩ := hℓ
    obtain ⟨j, q, hℓ, -⟩ | ⟨j, c', u, o, k, hℓ, hu, hrest, rfl⟩ | ⟨e, w, hℓ, -⟩ := S.step_cases hstep
    · cases hℓ
    · cases hℓ
      rw [ht, Option.some.injEq] at hu
      subst hu
      refine ⟨_, S.advance_threads_self .., hreq, ?_⟩
      rw [hrest] at hwp
      exact hwp.2 _ (⟨o, (S.exec o c P.world).1⟩ :: t.hist, (S.exec o c P.world).2)
        ⟨P.world, c, hrefl _, hown P c t o k hok ht hrest, rfl, rfl⟩
    · cases hℓ
  · have hnot : ∀ c, ℓ ≠ .act i c := fun c hc => hℓ ⟨c, hc⟩
    have hmove : rely P.world P'.world := hother ℓ P P' hok hnot hstep
    exact ⟨t, S.step_other hstep hnot ht, hreq, relyWp_moved htrans hQ hE hmove hwp⟩

end Interleaving

end System

/-! ## A protocol with a property of the world -/

namespace Protocol

variable {S : System Reply ε α σ χ Request Env} {π : Protocol Reply ε α Request}
variable {ok : Label χ Request Env → Pool Reply ε α σ Request → Prop}
variable {P₀ P : Pool Reply ε α σ Request} {I : σ → Prop}

/-- A world with the property answers as the protocol allows, and a call that the protocol
issues keeps the property. -/
def Secures (π : Protocol Reply ε α Request) (S : System Reply ε α σ χ Request Env)
    (I : σ → Prop) : Prop :=
  ∀ q h o c w, I w → π.issues q h o → π.allows q h ⟨o, (S.exec o c w).1⟩ ∧ I (S.exec o c w).2

/-- The property and the protocol hold of every reachable pool: what a thread issues keeps the
property, and what it is answered rests on it.  Neither could be proved first. -/
theorem invariant_of_reaches (hadmits : ∀ P i q, ok (.spawn i q) P → π.admits q)
    (hprog : ∀ q, π.admits q → π.Follows q (S.program q) []) (hsecures : π.Secures S I)
    (henv : ∀ e w w', I w → S.env e w = some w' → I w') (hinit : ∀ i, P₀.threads i = none)
    (hworld : I P₀.world) (h : S.Reaches ok P₀ P) :
    I P.world ∧ ∀ i t, P.threads i = some t →
      π.admits t.request ∧ π.Follows t.request t.rest t.hist := by
  refine System.Reaches.invariant
    (I := fun P => I P.world ∧ ∀ i t, P.threads i = some t →
      π.admits t.request ∧ π.Follows t.request t.rest t.hist)
    ⟨hworld, fun i t ht => by simp [hinit i] at ht⟩ ?_ h
  rintro P ℓ P' - ⟨hI, hthreads⟩ hok hstep
  constructor
  · obtain ⟨i, q, -, -, rfl⟩ | ⟨i, c, t, o, k, -, ht, hrest, rfl⟩ | ⟨e, w, -, hw, rfl⟩ :=
      S.step_cases hstep
    · exact hI
    · obtain ⟨-, hfollows⟩ := hthreads i t ht
      rw [hrest] at hfollows
      exact (hsecures t.request t.hist o c P.world hI hfollows.1).2
    · exact henv e P.world w hI hw
  · intro j u hu
    obtain hold | ⟨q, rfl, rfl⟩ | ⟨c, t, o, k, rfl, ht, hrest, -, rfl⟩ := S.step_threads hstep hu
    · exact hthreads j u hold
    · exact ⟨hadmits P j q hok, hprog q (hadmits P j q hok)⟩
    · obtain ⟨hadmitted, hfollows⟩ := hthreads j t ht
      rw [hrest] at hfollows
      exact ⟨hadmitted,
        hfollows.answered (hsecures t.request t.hist o c P.world hI hfollows.1).1⟩

/-- **A protocol that keeps what its answers rest on is respected.** -/
theorem respects_of_invariant (hadmits : ∀ P i q, ok (.spawn i q) P → π.admits q)
    (hprog : ∀ q, π.admits q → π.Follows q (S.program q) []) (hsecures : π.Secures S I)
    (henv : ∀ e w w', I w → S.env e w = some w' → I w') (hinit : ∀ i, P₀.threads i = none)
    (hworld : I P₀.world) : π.Respects S ok P₀ where
  admits := hadmits
  allows := fun P i c t o k hreach _ ht hrest => by
    obtain ⟨hI, hthreads⟩ :=
      invariant_of_reaches hadmits hprog hsecures henv hinit hworld hreach
    obtain ⟨-, hfollows⟩ := hthreads i t ht
    rw [hrest] at hfollows
    exact (hsecures t.request t.hist o c P.world hI hfollows.1).1

end Protocol

end Interaction
