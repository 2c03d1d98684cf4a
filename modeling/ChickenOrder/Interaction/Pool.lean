import Mathlib.Logic.Relation
import Mathlib.Logic.Function.Basic
import ChickenOrder.Interaction.Program

/-!
# Pools of programs over one shared world

A `System` interprets the calls of `Program`s on a shared world and names the
requests that start a program.  A `Pool` is the world together with the threads
started so far; every thread carries its own history of answered calls.  One
step of the pool starts a thread, lets one thread make its next call, or lets
the environment act.  Calls are atomic, everything between them interleaves, and
a thread that is never scheduled again is a crashed one, so there is no separate
crash step.

Reasoning is split in two.

* **Locally**, a `Protocol` says for every request which calls its program makes
  and how it ends, as a function of the thread's own history and against
  whatever answers the protocol `allows`.  `follows_of_reaches` transports a
  `wp` proof about the program text to every thread of every reachable pool;
  `history_of_reaches` derives history invariants from the protocol alone.
* **Globally**, `Reaches.invariant` is the induction rule, and
  `facts_of_reaches` carries facts that an answered call establishes and no
  later step destroys, `owner_of_reaches` the ownership of a resource.
-/

namespace Interaction

/-- One answered call: what was asked, and what was answered, which may be an error. -/
structure Event {Op : Type} (Reply : Op → Type) (ε : Type) where
  op : Op
  answer : Except ε (Reply op)

/-- Events of one call agree only if their answers do. -/
theorem Event.answer_eq {Op : Type} {Reply : Op → Type} {ε : Type} {o : Op}
    {r r' : Except ε (Reply o)} (h : (⟨o, r⟩ : Event Reply ε) = ⟨o, r'⟩) : r = r' := by
  cases h
  rfl

/-- Calls executed on a world `σ` under environment choices `χ`, programs named
by `Request`s, and autonomous steps `Env` of the world. -/
structure System {Op : Type} (Reply : Op → Type) (ε α σ χ Request Env : Type) where
  exec : (o : Op) → χ → σ → Except ε (Reply o) × σ
  program : Request → Program Reply ε α
  env : Env → σ → Option σ

section Pool

variable {Op : Type} {Reply : Op → Type} {ε α σ χ Request Env : Type}

/-- A started program: its request, the calls answered so far (latest first)
and what is left to run. -/
structure Thread (Reply : Op → Type) (ε α Request : Type) where
  request : Request
  hist : List (Event Reply ε)
  rest : Program Reply ε α

/-- The thread once its call `o` is answered by `r`. -/
def Thread.answered (t : Thread Reply ε α Request) (o : Op)
    (k : Except ε (Reply o) → Program Reply ε α) (r : Except ε (Reply o)) :
    Thread Reply ε α Request :=
  ⟨t.request, ⟨o, r⟩ :: t.hist, k r⟩

/-- The thread has returned `a`. -/
def Thread.Returned (t : Thread Reply ε α Request) (a : α) : Prop := t.rest = .pure a

/-- The thread has thrown `e`. -/
def Thread.Threw (t : Thread Reply ε α Request) (e : ε) : Prop := t.rest = .throw e

/-- How far a thread is. -/
inductive Phase
  | running
  | returned
  | threw
  deriving DecidableEq

/-- Where a thread is: it runs while a call is waiting for its answer. -/
def Thread.phase (t : Thread Reply ε α Request) : Phase :=
  match t.rest with
  | .pure _ => .returned
  | .throw _ => .threw
  | .call _ _ => .running

theorem Thread.phase_eq_returned {t : Thread Reply ε α Request} (h : t.phase = .returned) :
    ∃ a, t.Returned a := by
  unfold phase at h
  split at h
  · rename_i a hrest
    exact ⟨a, hrest⟩
  · cases h
  · cases h

theorem Thread.phase_eq_threw {t : Thread Reply ε α Request} (h : t.phase = .threw) :
    ∃ e, t.Threw e := by
  unfold phase at h
  split at h
  · cases h
  · rename_i e hrest
    exact ⟨e, hrest⟩
  · cases h

/-- The thread has made the call `o`, or is just about to. -/
def Thread.Issues (t : Thread Reply ε α Request) (o : Op) : Prop :=
  t.rest.next = some o ∨ ∃ e ∈ t.hist, e.op = o

/-- The shared world and the threads started so far.  Threads that have ended stay, with their
history. -/
structure Pool (Reply : Op → Type) (ε α σ Request : Type) where
  world : σ
  threads : ℕ → Option (Thread Reply ε α Request)

/-- No thread has been started. -/
def Pool.init (w : σ) : Pool Reply ε α σ Request := ⟨w, fun _ => none⟩

/-- The steps of a pool: a thread starts, a thread makes its next call under a choice of the
environment, or the environment moves by itself. -/
inductive Label (χ Request Env : Type)
  | spawn (i : ℕ) (q : Request)
  | act (i : ℕ) (c : χ)
  | env (e : Env)

/-- The call a step makes, if it makes one. -/
def Label.call? (ℓ : Label χ Request Env) (P : Pool Reply ε α σ Request) : Option Op :=
  match ℓ with
  | .act i _ => (P.threads i).bind fun t => t.rest.next
  | _ => none

/-- A step of a waiting thread makes the call it waits at. -/
theorem Label.call?_act {P : Pool Reply ε α σ Request} {i : ℕ} {t : Thread Reply ε α Request}
    (ht : P.threads i = some t) {o : Op} {k : Except ε (Reply o) → Program Reply ε α}
    (hrest : t.rest = .call o k) (c : χ) :
    (Label.act i c : Label χ Request Env).call? P = some o := by
  show ((P.threads i).bind fun t => t.rest.next) = some o
  rw [ht, Option.bind_some, hrest]
  rfl

/-- A step that makes a call is one of a thread that waits at it. -/
theorem Label.thread_of_call? {P : Pool Reply ε α σ Request} {i : ℕ} {c : χ} {o : Op}
    (h : (Label.act i c : Label χ Request Env).call? P = some o) :
    ∃ t k, P.threads i = some t ∧ t.rest = .call o k := by
  obtain ⟨t, ht, hnext⟩ := Option.bind_eq_some_iff.mp h
  cases hrest : t.rest with
  | pure a =>
      rw [hrest] at hnext
      cases hnext
  | throw e =>
      rw [hrest] at hnext
      cases hnext
  | call o' k =>
      rw [hrest] at hnext
      cases hnext
      exact ⟨t, k, ht, hrest⟩

/-- A step that has been made, with the pools before and after it. -/
structure Move (Reply : Op → Type) (ε α σ χ Request Env : Type) where
  before : Pool Reply ε α σ Request
  label : Label χ Request Env
  after : Pool Reply ε α σ Request

namespace System

variable (S : System Reply ε α σ χ Request Env)

/-- A freshly started thread. -/
def start (q : Request) : Thread Reply ε α Request := ⟨q, [], S.program q⟩

/-- The pool after thread `i`, waiting at `o`, has had its call answered. -/
def advance (P : Pool Reply ε α σ Request) (i : ℕ) (c : χ)
    (t : Thread Reply ε α Request) (o : Op)
    (k : Except ε (Reply o) → Program Reply ε α) : Pool Reply ε α σ Request where
  world := (S.exec o c P.world).2
  threads := Function.update P.threads i (some (t.answered o k (S.exec o c P.world).1))

@[simp] theorem advance_threads_self (P : Pool Reply ε α σ Request) (i : ℕ) (c : χ)
    (t : Thread Reply ε α Request) (o : Op) (k : Except ε (Reply o) → Program Reply ε α) :
    (S.advance P i c t o k).threads i = some (t.answered o k (S.exec o c P.world).1) :=
  Function.update_self ..

/-- A step of one thread leaves the others where they are. -/
theorem advance_threads_of_ne {P : Pool Reply ε α σ Request} {i j : ℕ} (hji : j ≠ i) (c : χ)
    (t : Thread Reply ε α Request) (o : Op) (k : Except ε (Reply o) → Program Reply ε α) :
    (S.advance P i c t o k).threads j = P.threads j :=
  Function.update_of_ne hji ..

/-- One step of the pool.  A label that names no waiting thread is no step. -/
def step : Label χ Request Env → Pool Reply ε α σ Request → Option (Pool Reply ε α σ Request)
  | .spawn i q, P =>
      match P.threads i with
      | none => some { P with threads := Function.update P.threads i (some (S.start q)) }
      | some _ => none
  | .act i c, P =>
      match P.threads i with
      | some ⟨q, hist, .call o k⟩ => some (S.advance P i c ⟨q, hist, .call o k⟩ o k)
      | _ => none
  | .env e, P => (S.env e P.world).map fun w => { P with world := w }

/-- **Everything one step can do.** Proofs about runs invert a step by this. -/
theorem step_cases {ℓ : Label χ Request Env} {P P' : Pool Reply ε α σ Request}
    (h : S.step ℓ P = some P') :
    (∃ i q, ℓ = .spawn i q ∧ P.threads i = none ∧
      P' = { P with threads := Function.update P.threads i (some (S.start q)) }) ∨
    (∃ i c t o k, ℓ = .act i c ∧ P.threads i = some t ∧ t.rest = .call o k ∧
      P' = S.advance P i c t o k) ∨
    (∃ e w, ℓ = .env e ∧ S.env e P.world = some w ∧ P' = { P with world := w }) := by
  cases ℓ with
  | spawn i q =>
      simp only [step] at h
      split at h
      · exact .inl ⟨i, q, rfl, ‹_›, by simpa using h.symm⟩
      · cases h
  | act i c =>
      simp only [step] at h
      split at h
      · rename_i q hist o k hthread
        exact .inr (.inl ⟨i, c, _, o, k, rfl, hthread, rfl, by simpa using h.symm⟩)
      · cases h
  | env e =>
      simp only [step, Option.map_eq_some_iff] at h
      obtain ⟨w, hw, rfl⟩ := h
      exact .inr (.inr ⟨e, w, rfl, hw, rfl⟩)

/-- **Everything one step can do to a thread**: leave it, start it, or answer the
call it is waiting at. -/
theorem step_threads {ℓ : Label χ Request Env} {P P' : Pool Reply ε α σ Request}
    (h : S.step ℓ P = some P') {j : ℕ} {u : Thread Reply ε α Request}
    (hu : P'.threads j = some u) :
    P.threads j = some u ∨
    (∃ q, ℓ = .spawn j q ∧ u = S.start q) ∨
    (∃ c t o k, ℓ = .act j c ∧ P.threads j = some t ∧ t.rest = .call o k ∧
      P'.world = (S.exec o c P.world).2 ∧ u = t.answered o k (S.exec o c P.world).1) := by
  obtain ⟨i, q, rfl, -, rfl⟩ | ⟨i, c, t, o, k, rfl, ht, hrest, rfl⟩ | ⟨e, w, rfl, -, rfl⟩ :=
    S.step_cases h
  · by_cases hji : j = i
    · subst hji
      simp only [Function.update_self, Option.some.injEq] at hu
      exact .inr (.inl ⟨q, rfl, hu.symm⟩)
    · simp only [Function.update_of_ne hji] at hu
      exact .inl hu
  · by_cases hji : j = i
    · subst hji
      rw [S.advance_threads_self, Option.some.injEq] at hu
      exact .inr (.inr ⟨c, t, o, k, rfl, ht, hrest, rfl, hu.symm⟩)
    · rw [S.advance_threads_of_ne hji] at hu
      exact .inl hu
  · exact .inl hu

/-- **Threads stay.** A step keeps every thread, its request and its past.  So what a thread has
seen, it has seen for ever. -/
theorem step_persists {ℓ : Label χ Request Env} {P P' : Pool Reply ε α σ Request}
    (h : S.step ℓ P = some P') {j : ℕ} {t : Thread Reply ε α Request}
    (ht : P.threads j = some t) :
    ∃ t', P'.threads j = some t' ∧ t'.request = t.request ∧ t.hist <:+ t'.hist := by
  obtain ⟨i, q, rfl, hi, rfl⟩ | ⟨i, c, u, o, k, rfl, hu, hrest, rfl⟩ | ⟨e, w, rfl, -, rfl⟩ :=
    S.step_cases h
  · have hji : j ≠ i := by
      rintro rfl
      rw [ht] at hi
      cases hi
    exact ⟨t, by simp [hji, ht], rfl, List.suffix_rfl⟩
  · by_cases hji : j = i
    · subst hji
      rw [ht] at hu
      cases hu
      exact ⟨_, S.advance_threads_self .., rfl, List.suffix_cons _ _⟩
    · exact ⟨t, (S.advance_threads_of_ne hji ..).trans ht, rfl, List.suffix_rfl⟩
  · exact ⟨t, ht, rfl, List.suffix_rfl⟩

/-- The thread a step starts. -/
theorem step_spawn {P P' : Pool Reply ε α σ Request} {i : ℕ} {q : Request}
    (h : S.step (.spawn i q) P = some P') : P'.threads i = some (S.start q) := by
  obtain ⟨j, q', hℓ, -, rfl⟩ | ⟨j, c, t, o, k, hℓ, -⟩ | ⟨e, w, hℓ, -⟩ := S.step_cases h
  · cases hℓ
    exact Function.update_self ..
  · cases hℓ
  · cases hℓ

/-- The first thread of a run is alone. -/
theorem step_spawn_init {w : σ} {P : Pool Reply ε α σ Request} {i : ℕ} {q : Request}
    (h : S.step (.spawn i q) (Pool.init w) = some P) {j : ℕ} {u : Thread Reply ε α Request}
    (hu : P.threads j = some u) : j = i ∧ u = S.start q := by
  obtain hold | ⟨q', hℓ, rfl⟩ | ⟨c, t, o, k, hℓ, -⟩ := S.step_threads h hu
  · cases hold
  · cases hℓ
    exact ⟨rfl, rfl⟩
  · cases hℓ

/-- A step of a thread that is at the first call of a sequence. -/
theorem step_bind {P P' : Pool Reply ε α σ Request} {i : ℕ} {c : χ} {t : Thread Reply ε α Request}
    {o : Op} {f : Reply o → Program Reply ε α} (ht : P.threads i = some t)
    (hrest : t.rest = Program.perform o >>= f) (h : S.step (.act i c) P = some P') :
    ∃ u, P'.threads i = some u ∧ u.request = t.request ∧
      u.hist = ⟨o, (S.exec o c P.world).1⟩ :: t.hist ∧
      (∀ a, (S.exec o c P.world).1 = .ok a → u.rest = f a) ∧
      ∀ e, (S.exec o c P.world).1 = .error e → u.rest = .throw e := by
  obtain ⟨j, q, hℓ, -⟩ | ⟨j, c', t', o', k, hℓ, ht', hcall, rfl⟩ | ⟨e, w, hℓ, -⟩ := S.step_cases h
  · cases hℓ
  · cases hℓ
    rw [ht, Option.some.injEq] at ht'
    subst ht'
    rw [hrest] at hcall
    cases hcall
    refine ⟨_, S.advance_threads_self .., rfl, rfl, fun a ha => ?_, fun e he => ?_⟩
    · simp only [Thread.answered, ha]
      rfl
    · simp only [Thread.answered, he]
      rfl
  · cases hℓ

/-- Only its own calls move a thread. -/
theorem step_other {ℓ : Label χ Request Env} {P P' : Pool Reply ε α σ Request}
    (h : S.step ℓ P = some P') {j : ℕ} (hother : ∀ c, ℓ ≠ .act j c) {t : Thread Reply ε α Request}
    (ht : P.threads j = some t) : P'.threads j = some t := by
  obtain ⟨i, q, rfl, hi, rfl⟩ | ⟨i, c, u, o, k, rfl, hu, hrest, rfl⟩ | ⟨e, w, rfl, -, rfl⟩ :=
    S.step_cases h
  · have hji : j ≠ i := by
      rintro rfl
      rw [ht] at hi
      cases hi
    exact (Function.update_of_ne hji ..).trans ht
  · have hji : j ≠ i := by
      rintro rfl
      exact hother c rfl
    exact (S.advance_threads_of_ne hji ..).trans ht
  · exact ht

/-- A thread that makes no more calls stays as it is. -/
theorem step_finished {ℓ : Label χ Request Env} {P P' : Pool Reply ε α σ Request}
    (h : S.step ℓ P = some P') {j : ℕ} {t : Thread Reply ε α Request} (ht : P.threads j = some t)
    (hfinished : t.rest.next = none) : P'.threads j = some t := by
  refine S.step_other h ?_ ht
  rintro c rfl
  obtain ⟨i, q, hℓ, -⟩ | ⟨i, c', u, o, k, hℓ, hu, hrest, -⟩ | ⟨e, w, hℓ, -⟩ := S.step_cases h
  · cases hℓ
  · cases hℓ
    rw [ht, Option.some.injEq] at hu
    subst hu
    rw [hrest] at hfinished
    cases hfinished
  · cases hℓ

/-- The pools reachable from `P₀` by steps that `ok` admits.  A dead thread is one that is not
chosen any more. -/
def Reaches (ok : Label χ Request Env → Pool Reply ε α σ Request → Prop)
    (P₀ P : Pool Reply ε α σ Request) : Prop :=
  Relation.ReflTransGen (fun P P' => ∃ ℓ, ok ℓ P ∧ S.step ℓ P = some P') P₀ P

/-- Replay a schedule. -/
def replay : List (Label χ Request Env) → Pool Reply ε α σ Request →
    Option (Pool Reply ε α σ Request)
  | [], P => some P
  | ℓ :: ℓs, P => (S.step ℓ P).bind (replay ℓs)

/-- A schedule whose steps are all admitted. -/
def Admitted (ok : Label χ Request Env → Pool Reply ε α σ Request → Prop) :
    List (Label χ Request Env) → Pool Reply ε α σ Request → Prop
  | [], _ => True
  | ℓ :: ℓs, P => ok ℓ P ∧ ∀ P', S.step ℓ P = some P' → Admitted ok ℓs P'

/-- Check a schedule whose admission can be decided. -/
def admitted? (ok : Label χ Request Env → Pool Reply ε α σ Request → Prop)
    [∀ ℓ P, Decidable (ok ℓ P)] : List (Label χ Request Env) → Pool Reply ε α σ Request → Bool
  | [], _ => true
  | ℓ :: ℓs, P => decide (ok ℓ P) && match S.step ℓ P with
      | none => true
      | some P' => admitted? ok ℓs P'

/-- Where a schedule leads, if it can be replayed. -/
def after (ℓs : List (Label χ Request Env)) (P : Pool Reply ε α σ Request)
    (h : (S.replay ℓs P).isSome = true) : Pool Reply ε α σ Request :=
  (S.replay ℓs P).get h

variable {S} {ok ok' : Label χ Request Env → Pool Reply ε α σ Request → Prop}
variable {P₀ P P' : Pool Reply ε α σ Request}

/-- Replaying the labels leads to the pool they are said to lead to. -/
theorem replay_after {ℓs : List (Label χ Request Env)} (h : (S.replay ℓs P).isSome = true) :
    S.replay ℓs P = some (S.after ℓs P h) :=
  (Option.some_get h).symm

/-- An admitted schedule that replays is a run.  Witnesses are computed in this way. -/
theorem Reaches.of_replay {ℓs : List (Label χ Request Env)}
    (hok : S.Admitted ok ℓs P₀) (h : S.replay ℓs P₀ = some P) : S.Reaches ok P₀ P := by
  induction ℓs generalizing P₀ with
  | nil => cases h; exact .refl
  | cons ℓ ℓs ih =>
      rw [replay, Option.bind_eq_some_iff] at h
      obtain ⟨P₁, hstep, hrest⟩ := h
      exact .head ⟨ℓ, hok.1, hstep⟩ (ih (hok.2 P₁ hstep) hrest)

/-- Labels that are admitted from every pool are admitted one after the other. -/
theorem Admitted.of_mem {ℓs : List (Label χ Request Env)} (h : ∀ ℓ ∈ ℓs, ∀ P, ok ℓ P)
    (P : Pool Reply ε α σ Request) : S.Admitted ok ℓs P := by
  induction ℓs generalizing P with
  | nil => trivial
  | cons ℓ ℓs ih =>
      exact ⟨h ℓ List.mem_cons_self P,
        fun P' _ => ih (fun ℓ' hℓ' => h ℓ' (List.mem_cons_of_mem _ hℓ')) P'⟩

/-- A condition that always holds admits all labels. -/
theorem Admitted.of_forall (h : ∀ ℓ P, ok ℓ P) (ℓs : List (Label χ Request Env))
    (P : Pool Reply ε α σ Request) : S.Admitted ok ℓs P :=
  .of_mem (fun ℓ _ P => h ℓ P) P

/-- A weaker condition admits whatever a stronger one does. -/
theorem Admitted.mono (hok : ∀ ℓ P, ok ℓ P → ok' ℓ P) {ℓs : List (Label χ Request Env)}
    {P : Pool Reply ε α σ Request} (h : S.Admitted ok ℓs P) : S.Admitted ok' ℓs P := by
  induction ℓs generalizing P with
  | nil => trivial
  | cons ℓ ℓs ih => exact ⟨hok ℓ P h.1, fun P' hstep => ih (h.2 P' hstep)⟩

/-- That labels are admitted can be computed where the condition can. -/
theorem Admitted.of_check [∀ ℓ P, Decidable (ok ℓ P)] {ℓs : List (Label χ Request Env)}
    {P : Pool Reply ε α σ Request} (h : S.admitted? ok ℓs P = true) : S.Admitted ok ℓs P := by
  induction ℓs generalizing P with
  | nil => trivial
  | cons ℓ ℓs ih =>
      rw [admitted?, Bool.and_eq_true] at h
      refine ⟨of_decide_eq_true h.1, fun P' hstep => ih ?_⟩
      have hrest := h.2
      rwa [hstep] at hrest

/-- A replay whose steps are admitted is a run. -/
theorem Reaches.after {ℓs : List (Label χ Request Env)} (hok : S.Admitted ok ℓs P₀)
    (h : (S.replay ℓs P₀).isSome = true) : S.Reaches ok P₀ (S.after ℓs P₀ h) :=
  .of_replay hok (Option.some_get h).symm

theorem step_after {ℓ : Label χ Request Env} {P : Pool Reply ε α σ Request}
    (h : (S.replay [ℓ] P).isSome = true) : S.step ℓ P = some (S.after [ℓ] P h) := by
  have hreplay : S.replay [ℓ] P = S.step ℓ P := by
    rw [replay]
    cases S.step ℓ P with
    | none => rfl
    | some P' => rfl
  rw [← hreplay]
  exact (Option.some_get h).symm

/-- A run under a condition is a run under every weaker one. -/
theorem Reaches.mono (hok : ∀ ℓ P, ok ℓ P → ok' ℓ P) (h : S.Reaches ok P₀ P) :
    S.Reaches ok' P₀ P :=
  Relation.ReflTransGen.mono (fun _ _ ⟨ℓ, hℓ, hstep⟩ => ⟨ℓ, hok _ _ hℓ, hstep⟩) _ _ h

/-- The threads a schedule starts. -/
def spawned (ℓs : List (Label χ Request Env)) : List ℕ :=
  ℓs.filterMap fun ℓ => match ℓ with
    | .spawn i _ => some i
    | _ => none

/-- Replaying a schedule adds no other thread. -/
theorem spawned_of_replay {ℓs : List (Label χ Request Env)} (h : S.replay ℓs P₀ = some P) {i : ℕ}
    (hnone : P₀.threads i = none) {t : Thread Reply ε α Request} (ht : P.threads i = some t) :
    i ∈ spawned ℓs := by
  induction ℓs generalizing P₀ with
  | nil =>
      cases h
      rw [hnone] at ht
      cases ht
  | cons ℓ ℓs ih =>
      rw [replay, Option.bind_eq_some_iff] at h
      obtain ⟨P₁, hstep, hrest⟩ := h
      have htail : i ∈ spawned ℓs → i ∈ spawned (ℓ :: ℓs) := by
        intro hi
        cases ℓ with
        | spawn j q => exact List.mem_cons_of_mem j hi
        | act j c => exact hi
        | env e => exact hi
      cases hnone₁ : P₁.threads i with
      | none => exact htail (ih hrest hnone₁)
      | some u =>
          obtain hold | ⟨q, rfl, -⟩ | ⟨c, u₀, o, k, -, hold, -⟩ := S.step_threads hstep hnone₁
          · rw [hnone] at hold
            cases hold
          · exact List.mem_cons_self
          · rw [hnone] at hold
            cases hold

/-- After a replay from no threads there are only threads that it has spawned. -/
theorem spawned_of_after {ℓs : List (Label χ Request Env)} {w : σ}
    {h : (S.replay ℓs (Pool.init w)).isSome = true} {i : ℕ} {t : Thread Reply ε α Request}
    (ht : (S.after ℓs (Pool.init w) h).threads i = some t) : i ∈ spawned ℓs :=
  spawned_of_replay (Option.some_get h).symm rfl ht

/-- **Invariants.**  What holds initially and is kept by every admitted step from
a reachable pool holds in every reachable pool. -/
theorem Reaches.invariant {I : Pool Reply ε α σ Request → Prop} (hinit : I P₀)
    (hstep : ∀ P ℓ P', S.Reaches ok P₀ P → I P → ok ℓ P → S.step ℓ P = some P' → I P')
    (h : S.Reaches ok P₀ P) : I P := by
  induction h with
  | refl => exact hinit
  | tail hreach hlast ih =>
      obtain ⟨ℓ, hℓ, hstep'⟩ := hlast
      exact hstep _ ℓ _ hreach ih hℓ hstep'

/-- The requests of a run are those that its steps start. -/
theorem request_of_reaches {q : Request} (hinit : ∀ i, P₀.threads i = none)
    (h : S.Reaches (fun ℓ _ => ∀ i q', ℓ = .spawn i q' → q' = q) P₀ P) {i : ℕ}
    {t : Thread Reply ε α Request} (ht : P.threads i = some t) : t.request = q := by
  refine Reaches.invariant (I := fun P => ∀ i t, P.threads i = some t → t.request = q)
    (fun i t ht => by simp [hinit i] at ht) ?_ h i t ht
  intro P ℓ P' _ hI hok hstep j u hu
  obtain hold | ⟨q', rfl, rfl⟩ | ⟨c, t, o, k, -, ht, -, -, rfl⟩ := S.step_threads hstep hu
  · exact hI j u hold
  · exact hok j q' rfl
  · exact hI j t ht

/-- A thread that makes no more calls stays as it is for the rest of the run. -/
theorem Reaches.finished (h : S.Reaches ok P₀ P) {i : ℕ} {t : Thread Reply ε α Request}
    (ht : P₀.threads i = some t) (hfinished : t.rest.next = none) : P.threads i = some t :=
  Reaches.invariant (I := fun P => P.threads i = some t) ht
    (fun _ _ _ _ hI _ hstep => S.step_finished hstep hI hfinished) h

/-- **Last calls.**  A thread that waits at its last call still waits there, or has
had it answered by an admitted step and makes no more calls. -/
theorem Reaches.lastCall (h : S.Reaches ok P₀ P) {i : ℕ} {t : Thread Reply ε α Request} {o : Op}
    {k : Except ε (Reply o) → Program Reply ε α} (ht : P₀.threads i = some t)
    (hrest : t.rest = .call o k) (hlast : ∀ r, (k r).next = none) :
    P.threads i = some t ∨
      ∃ P₁ c, S.Reaches ok P₀ P₁ ∧ ok (.act i c) P₁ ∧
        P.threads i = some (t.answered o k (S.exec o c P₁.world).1) := by
  refine Reaches.invariant (I := fun P => P.threads i = some t ∨
    ∃ P₁ c, S.Reaches ok P₀ P₁ ∧ ok (.act i c) P₁ ∧
      P.threads i = some (t.answered o k (S.exec o c P₁.world).1)) (.inl ht) ?_ h
  rintro P ℓ P' hreach (hwaits | ⟨P₁, c, hreach₁, hok₁, hdone⟩) hok hstep
  · obtain ⟨j, q, rfl, hj, rfl⟩ | ⟨j, c, u, o', k', rfl, hu, hcall, rfl⟩ | ⟨e, w, rfl, -, rfl⟩ :=
      S.step_cases hstep
    · have hij : i ≠ j := by
        rintro rfl
        rw [hwaits] at hj
        cases hj
      exact .inl ((Function.update_of_ne hij ..).trans hwaits)
    · by_cases hij : i = j
      · subst hij
        rw [hwaits, Option.some.injEq] at hu
        subst hu
        rw [hrest] at hcall
        cases hcall
        exact .inr ⟨P, c, hreach, hok, S.advance_threads_self ..⟩
      · exact .inl ((S.advance_threads_of_ne hij ..).trans hwaits)
    · exact .inl hwaits
  · exact .inr ⟨P₁, c, hreach₁, hok₁, S.step_finished hstep hdone (hlast _)⟩

/-- Invariants of the world alone. -/
theorem Reaches.world_invariant {I : σ → Prop} (hinit : I P₀.world)
    (hexec : ∀ P i c t o k, S.Reaches ok P₀ P → ok (.act i c) P → P.threads i = some t →
      t.rest = .call o k → I P.world → I (S.exec o c P.world).2)
    (henv : ∀ P e w, ok (.env e) P → S.env e P.world = some w → I P.world → I w)
    (h : S.Reaches ok P₀ P) : I P.world := by
  refine Reaches.invariant (I := fun P => I P.world) hinit ?_ h
  intro P ℓ P' hreach hI hok hstep
  obtain ⟨i, q, rfl, -, rfl⟩ | ⟨i, c, t, o, k, rfl, ht, hrest, rfl⟩ | ⟨e, w, rfl, hw, rfl⟩ :=
    S.step_cases hstep
  · exact hI
  · exact hexec P i c t o k hreach hok ht hrest hI
  · exact henv P e w hok hw hI

/-! ## Runs with a record -/

section Record

variable {γ : Type}
variable (track : Label χ Request Env → Pool Reply ε α σ Request → Pool Reply ε α σ Request → γ → γ)

variable (S) in
/-- Runs together with a record of them, which `track` updates at every step and `okWith`
may look at.  Pools forget the order of the steps of different threads; a record can keep
it. -/
def ReachesUnder (okWith : Label χ Request Env → Pool Reply ε α σ Request → γ → Prop) :
    Pool Reply ε α σ Request × γ → Pool Reply ε α σ Request × γ → Prop :=
  Relation.ReflTransGen fun s s' =>
    ∃ ℓ, okWith ℓ s.1 s.2 ∧ S.step ℓ s.1 = some s'.1 ∧ s'.2 = track ℓ s.1 s'.1 s.2

variable (S ok) in
/-- The runs whose steps are admitted whatever the record says. -/
def ReachesWith : Pool Reply ε α σ Request × γ → Pool Reply ε α σ Request × γ → Prop :=
  S.ReachesUnder track fun ℓ P _ => ok ℓ P

variable (S) in
/-- The record of a schedule. -/
def recordOf : List (Label χ Request Env) → Pool Reply ε α σ Request → γ → γ
  | [], _, g => g
  | ℓ :: ℓs, P, g =>
      match S.step ℓ P with
      | none => g
      | some P' => recordOf ℓs P' (track ℓ P P' g)

variable {track}

section Under

variable {okWith okWith' : Label χ Request Env → Pool Reply ε α σ Request → γ → Prop}

/-- A run with its record is a run. -/
theorem ReachesUnder.reaches {s s' : Pool Reply ε α σ Request × γ}
    (hok : ∀ ℓ P g, okWith ℓ P g → ok ℓ P) (h : S.ReachesUnder track okWith s s') :
    S.Reaches ok s.1 s'.1 := by
  induction h with
  | refl => exact .refl
  | tail _ hlast ih =>
      obtain ⟨ℓ, hℓ, hstep, -⟩ := hlast
      exact .tail ih ⟨ℓ, hok _ _ _ hℓ, hstep⟩

/-- The same of a condition that may look at the ghost state. -/
theorem ReachesUnder.mono {s s' : Pool Reply ε α σ Request × γ}
    (hok : ∀ ℓ P g, okWith ℓ P g → okWith' ℓ P g) (h : S.ReachesUnder track okWith s s') :
    S.ReachesUnder track okWith' s s' := by
  induction h with
  | refl => exact .refl
  | tail _ hlast ih =>
      obtain ⟨ℓ, hℓ, hstep⟩ := hlast
      exact .tail ih ⟨ℓ, hok _ _ _ hℓ, hstep⟩

/-- **Invariants of recorded runs.** -/
theorem ReachesUnder.invariant {I : Pool Reply ε α σ Request → γ → Prop}
    {s s' : Pool Reply ε α σ Request × γ} (hinit : I s.1 s.2)
    (hstep : ∀ P g ℓ P', S.ReachesUnder track okWith s (P, g) → I P g → okWith ℓ P g →
      S.step ℓ P = some P' → I P' (track ℓ P P' g))
    (h : S.ReachesUnder track okWith s s') : I s'.1 s'.2 := by
  induction h with
  | refl => exact hinit
  | @tail s₁ s₂ hreach hlast ih =>
      obtain ⟨ℓ, hℓ, hstep', hrecord⟩ := hlast
      rw [hrecord]
      exact hstep s₁.1 s₁.2 ℓ s₂.1 hreach ih hℓ hstep'

end Under

theorem ReachesWith.reaches {s s' : Pool Reply ε α σ Request × γ} (h : S.ReachesWith ok track s s') :
    S.Reaches ok s.1 s'.1 :=
  ReachesUnder.reaches (fun _ _ _ hok => hok) h

theorem ReachesWith.trans {s s' s'' : Pool Reply ε α σ Request × γ}
    (h : S.ReachesWith ok track s s') (h' : S.ReachesWith ok track s' s'') :
    S.ReachesWith ok track s s'' :=
  Relation.ReflTransGen.trans h h'

/-- A replay is a run with any ghost state, which can be computed along with it. -/
theorem ReachesWith.of_replay {ℓs : List (Label χ Request Env)} (hok : S.Admitted ok ℓs P₀)
    (h : S.replay ℓs P₀ = some P) (g : γ) :
    S.ReachesWith ok track (P₀, g) (P, S.recordOf track ℓs P₀ g) := by
  induction ℓs generalizing P₀ g with
  | nil =>
      cases h
      exact .refl
  | cons ℓ ℓs ih =>
      rw [replay, Option.bind_eq_some_iff] at h
      obtain ⟨P₁, hstep, hrest⟩ := h
      have hrecord : S.recordOf track (ℓ :: ℓs) P₀ g = S.recordOf track ℓs P₁ (track ℓ P₀ P₁ g) := by
        simp only [recordOf, hstep]
      rw [hrecord]
      exact .head ⟨ℓ, hok.1, hstep, rfl⟩ (ih (hok.2 P₁ hstep) hrest _)

/-- **Invariants of runs with a record.** -/
theorem ReachesWith.invariant {I : Pool Reply ε α σ Request → γ → Prop}
    {s s' : Pool Reply ε α σ Request × γ} (hinit : I s.1 s.2)
    (hstep : ∀ P g ℓ P', S.Reaches ok s.1 P → I P g → ok ℓ P → S.step ℓ P = some P' →
      I P' (track ℓ P P' g))
    (h : S.ReachesWith ok track s s') : I s'.1 s'.2 :=
  ReachesUnder.invariant (I := I) hinit
    (fun P g ℓ P' hreach => hstep P g ℓ P' (ReachesWith.reaches hreach)) h

end Record

/-! ## Runs with their steps -/

section Moves

variable (S ok) in
/-- Runs together with all their steps, the last one first.  Claims about what happened before need
them. -/
def ReachesBy (P₀ P : Pool Reply ε α σ Request) (past : List (Move Reply ε α σ χ Request Env)) :
    Prop :=
  S.ReachesWith ok (fun ℓ P P' past => ⟨P, ℓ, P'⟩ :: past) (P₀, []) (P, past)

variable (S) in
/-- The steps of a schedule. -/
def moves (ℓs : List (Label χ Request Env)) (P : Pool Reply ε α σ Request) :
    List (Move Reply ε α σ χ Request Env) :=
  S.recordOf (fun ℓ P P' past => ⟨P, ℓ, P'⟩ :: past) ℓs P []

variable {past : List (Move Reply ε α σ χ Request Env)}

/-- A replay is a run by the moves that it makes. -/
theorem ReachesBy.after {ℓs : List (Label χ Request Env)} (hok : S.Admitted ok ℓs P₀)
    (h : (S.replay ℓs P₀).isSome = true) : S.ReachesBy ok P₀ (S.after ℓs P₀ h) (S.moves ℓs P₀) :=
  .of_replay hok (replay_after h) []

/-- **Invariants of runs and their steps.** -/
theorem ReachesBy.invariant
    {I : Pool Reply ε α σ Request → List (Move Reply ε α σ χ Request Env) → Prop}
    (hinit : I P₀ [])
    (hstep : ∀ P past ℓ P', S.ReachesBy ok P₀ P past → I P past → ok ℓ P → S.step ℓ P = some P' →
      I P' (⟨P, ℓ, P'⟩ :: past))
    (h : S.ReachesBy ok P₀ P past) : I P past := by
  have hrecorded : S.ReachesUnder (fun ℓ P P' past => ⟨P, ℓ, P'⟩ :: past)
      (fun ℓ P _ => ok ℓ P) (P₀, []) (P, past) := h
  exact hrecorded.invariant (I := I) hinit hstep

theorem ReachesBy.reaches (h : S.ReachesBy ok P₀ P past) : S.Reaches ok P₀ P :=
  ReachesWith.reaches h

end Moves

end System

/-! ## Protocols -/

/-- What a request's program does against an arbitrary environment: which
requests are considered, which answers the environment may give, which calls
the program then makes, and what holds when it returns or throws. -/
structure Protocol (Reply : Op → Type) (ε α Request : Type) where
  admits : Request → Prop
  allows : Request → List (Event Reply ε) → Event Reply ε → Prop
  issues : Request → List (Event Reply ε) → Op → Prop
  returns : Request → List (Event Reply ε) → α → Prop
  throws : Request → List (Event Reply ε) → ε → Prop

namespace Protocol

variable (π : Protocol Reply ε α Request)

/-- The step relation on histories: any allowed answer, recorded. -/
def record (q : Request) (o : Op) (h : List (Event Reply ε)) (r : Except ε (Reply o))
    (h' : List (Event Reply ε)) : Prop :=
  π.allows q h ⟨o, r⟩ ∧ h' = ⟨o, r⟩ :: h

/-- From history `h` the program `p` keeps to the protocol of `q`.  This is about the program alone,
and proved by `wp`. -/
def Follows (q : Request) (p : Program Reply ε α) (h : List (Event Reply ε)) : Prop :=
  p.wp (π.record q) (fun o h => π.issues q h o) (fun a h => π.returns q h a)
    (fun e h => π.throws q h e) h

@[simp] theorem record_iff (q : Request) (o : Op) (h : List (Event Reply ε))
    (r : Except ε (Reply o)) (h' : List (Event Reply ε)) :
    π.record q o h r h' ↔ π.allows q h ⟨o, r⟩ ∧ h' = ⟨o, r⟩ :: h := Iff.rfl

variable {π}

/-- A program that follows the protocol still does after an answer that the protocol allows. -/
theorem Follows.answered {q : Request} {h : List (Event Reply ε)} {o : Op}
    {k : Except ε (Reply o) → Program Reply ε α} (hf : π.Follows q (.call o k) h)
    {r : Except ε (Reply o)} (hr : π.allows q h ⟨o, r⟩) :
    π.Follows q (k r) (⟨o, r⟩ :: h) :=
  hf.2 r _ ⟨hr, rfl⟩

variable {S : System Reply ε α σ χ Request Env}
variable {ok : Label χ Request Env → Pool Reply ε α σ Request → Prop}
variable {P₀ P : Pool Reply ε α σ Request}

/-- A run restricted by `ok` only starts admitted requests and only gives
allowed answers. -/
structure Respects (π : Protocol Reply ε α Request) (S : System Reply ε α σ χ Request Env)
    (ok : Label χ Request Env → Pool Reply ε α σ Request → Prop)
    (P₀ : Pool Reply ε α σ Request) : Prop where
  admits : ∀ P i q, ok (.spawn i q) P → π.admits q
  allows : ∀ P i c t o k, S.Reaches ok P₀ P → ok (.act i c) P → P.threads i = some t →
    t.rest = .call o k → π.allows t.request t.hist ⟨o, (S.exec o c P.world).1⟩

/-- **Protocols hold in every interleaving.**  If every admitted program follows
the protocol from the empty history, every thread of every reachable pool
follows it from its own history. -/
theorem follows_of_reaches (hresp : π.Respects S ok P₀)
    (hprog : ∀ q, π.admits q → π.Follows q (S.program q) [])
    (hinit : ∀ i, P₀.threads i = none) (h : S.Reaches ok P₀ P) :
    ∀ i t, P.threads i = some t → π.admits t.request ∧ π.Follows t.request t.rest t.hist := by
  refine System.Reaches.invariant
    (I := fun P => ∀ i t, P.threads i = some t →
      π.admits t.request ∧ π.Follows t.request t.rest t.hist)
    (fun i t ht => by simp [hinit i] at ht) ?_ h
  intro P ℓ P' hreach hI hok hstep j u hu
  obtain hold | ⟨q, rfl, rfl⟩ | ⟨c, t, o, k, rfl, ht, hrest, -, rfl⟩ := S.step_threads hstep hu
  · exact hI j u hold
  · have hq := hresp.admits P j q hok
    exact ⟨hq, hprog q hq⟩
  · obtain ⟨hadm, hf⟩ := hI j t ht
    rw [hrest] at hf
    exact ⟨hadm, hf.answered (hresp.allows P j c t o k hreach hok ht hrest)⟩

/-- **History invariants.** A property of histories that the empty history has and that every
protocol-conforming answer keeps holds of every thread of every run. -/
theorem history_of_reaches (hresp : π.Respects S ok P₀)
    (hprog : ∀ q, π.admits q → π.Follows q (S.program q) [])
    (hinit : ∀ i, P₀.threads i = none)
    {I : Request → List (Event Reply ε) → Prop} (hnil : ∀ q, π.admits q → I q [])
    (hcons : ∀ q h o r, I q h → π.issues q h o → π.allows q h ⟨o, r⟩ → I q (⟨o, r⟩ :: h))
    (h : S.Reaches ok P₀ P) :
    ∀ i t, P.threads i = some t → I t.request t.hist := by
  refine System.Reaches.invariant
    (I := fun P => ∀ i t, P.threads i = some t → I t.request t.hist)
    (fun i t ht => by simp [hinit i] at ht) ?_ h
  intro P ℓ P' hreach hI hok hstep j u hu
  obtain hold | ⟨q, rfl, rfl⟩ | ⟨c, t, o, k, rfl, ht, hrest, -, rfl⟩ := S.step_threads hstep hu
  · exact hI j u hold
  · exact hnil q (hresp.admits P j q hok)
  · obtain ⟨-, hf⟩ := follows_of_reaches hresp hprog hinit hreach j t ht
    rw [hrest] at hf
    exact hcons _ _ _ _ (hI j t ht) hf.1 (hresp.allows P j c t o k hreach hok ht hrest)

/-- **Calls keep to the protocol.**  A call that a thread makes or is about to make
is one its protocol issued, at that point of the thread's history. -/
theorem issues_of_reaches (hresp : π.Respects S ok P₀)
    (hprog : ∀ q, π.admits q → π.Follows q (S.program q) [])
    (hinit : ∀ i, P₀.threads i = none) (h : S.Reaches ok P₀ P) {i : ℕ}
    {t : Thread Reply ε α Request} (ht : P.threads i = some t) {o : Op} (ho : t.Issues o) :
    ∃ past, past <:+ t.hist ∧ π.issues t.request past o := by
  have hpast := history_of_reaches hresp hprog hinit
    (I := fun q h => ∀ e ∈ h, ∃ past, past <:+ h ∧ π.issues q past e.op)
    (fun _ _ e he => by cases he)
    (fun q h o r hI hissues _ e he => by
      rcases List.mem_cons.mp he with rfl | he
      · exact ⟨h, List.suffix_cons _ _, hissues⟩
      · obtain ⟨past, hsuffix, hpast⟩ := hI e he
        exact ⟨past, hsuffix.trans (List.suffix_cons _ _), hpast⟩) h i t ht
  rcases ho with hnext | ⟨e, he, rfl⟩
  · obtain ⟨-, hf⟩ := follows_of_reaches hresp hprog hinit h i t ht
    cases hrest : t.rest with
    | pure a =>
        rw [hrest] at hnext
        cases hnext
    | throw e =>
        rw [hrest] at hnext
        cases hnext
    | call o' k =>
        rw [hrest] at hnext hf
        cases hnext
        exact ⟨t.hist, List.suffix_rfl, hf.1⟩
  · exact hpast e he

/-- What a thread that has returned has seen, by the postcondition of its protocol. -/
theorem returns_of_reaches (hresp : π.Respects S ok P₀)
    (hprog : ∀ q, π.admits q → π.Follows q (S.program q) [])
    (hinit : ∀ i, P₀.threads i = none) (h : S.Reaches ok P₀ P) {i : ℕ}
    {t : Thread Reply ε α Request} (ht : P.threads i = some t) {a : α} (ha : t.Returned a) :
    π.returns t.request t.hist a := by
  obtain ⟨-, hf⟩ := follows_of_reaches hresp hprog hinit h i t ht
  rw [ha] at hf
  exact hf

/-- What a thread that has thrown has seen, likewise. -/
theorem throws_of_reaches (hresp : π.Respects S ok P₀)
    (hprog : ∀ q, π.admits q → π.Follows q (S.program q) [])
    (hinit : ∀ i, P₀.threads i = none) (h : S.Reaches ok P₀ P) {i : ℕ}
    {t : Thread Reply ε α Request} (ht : P.threads i = some t) {e : ε} (he : t.Threw e) :
    π.throws t.request t.hist e := by
  obtain ⟨-, hf⟩ := follows_of_reaches hresp hprog hinit h i t ht
  rw [he] at hf
  exact hf

end Protocol

/-! ## The calls of a thread -/

section Calls

variable {S : System Reply ε α σ χ Request Env}
variable {ok : Label χ Request Env → Pool Reply ε α σ Request → Prop}
variable {P₀ P : Pool Reply ε α σ Request}

/-- Every thread has only made, and will only make, calls its request allows. -/
theorem System.onlyCalls_of_reaches {allowed : Request → Op → Prop}
    (hprog : ∀ q, (S.program q).OnlyCalls (allowed q)) (hinit : ∀ i, P₀.threads i = none)
    (h : S.Reaches ok P₀ P) :
    ∀ i t, P.threads i = some t →
      t.rest.OnlyCalls (allowed t.request) ∧ ∀ e ∈ t.hist, allowed t.request e.op := by
  refine System.Reaches.invariant
    (I := fun P => ∀ i t, P.threads i = some t →
      t.rest.OnlyCalls (allowed t.request) ∧ ∀ e ∈ t.hist, allowed t.request e.op)
    (fun i t ht => by simp [hinit i] at ht) ?_ h
  intro P ℓ P' _ hI _ hstep j u hu
  obtain hold | ⟨q, rfl, rfl⟩ | ⟨c, t, o, k, rfl, ht, hrest, -, rfl⟩ := S.step_threads hstep hu
  · exact hI j u hold
  · exact ⟨hprog q, fun e he => by cases he⟩
  · obtain ⟨hcalls, hhist⟩ := hI j t ht
    rw [hrest] at hcalls
    refine ⟨hcalls.2 _, fun e he => ?_⟩
    rcases List.mem_cons.mp he with rfl | he
    · exact hcalls.1
    · exact hhist e he

/-- The call a thread is waiting at is one its request allows. -/
theorem System.allowed_of_reaches {allowed : Request → Op → Prop}
    (hprog : ∀ q, (S.program q).OnlyCalls (allowed q)) (hinit : ∀ i, P₀.threads i = none)
    (h : S.Reaches ok P₀ P) {i : ℕ} {t : Thread Reply ε α Request} (ht : P.threads i = some t)
    {o : Op} {k : Except ε (Reply o) → Program Reply ε α} (hrest : t.rest = .call o k) :
    allowed t.request o := by
  have hcalls := (S.onlyCalls_of_reaches hprog hinit h i t ht).1
  rw [hrest] at hcalls
  exact hcalls.1

/-- Every thread has made at most as many counted calls as its program can. -/
theorem System.countP_of_reaches {counted : Op → Bool} {bound : Request → ℕ}
    (hprog : ∀ q, (S.program q).AtMost counted (bound q)) (hinit : ∀ i, P₀.threads i = none)
    (h : S.Reaches ok P₀ P) :
    ∀ i t, P.threads i = some t → ∃ n, t.rest.AtMost counted n ∧
      t.hist.countP (fun e => counted e.op) + n ≤ bound t.request := by
  refine System.Reaches.invariant
    (I := fun P => ∀ i t, P.threads i = some t → ∃ n, t.rest.AtMost counted n ∧
      t.hist.countP (fun e => counted e.op) + n ≤ bound t.request)
    (fun i t ht => by simp [hinit i] at ht) ?_ h
  intro P ℓ P' _ hI _ hstep j u hu
  obtain hold | ⟨q, rfl, rfl⟩ | ⟨c, t, o, k, rfl, ht, hrest, -, rfl⟩ := S.step_threads hstep hu
  · exact hI j u hold
  · refine ⟨bound q, hprog q, ?_⟩
    show List.countP _ [] + bound q ≤ bound q
    simp
  · obtain ⟨n, hcalls, hcount⟩ := hI j t ht
    rw [hrest] at hcalls
    unfold Program.AtMost at hcalls
    simp only [Thread.answered, List.countP_cons]
    split at hcalls
    · rename_i hcounted
      refine ⟨n - 1, hcalls.2 _, ?_⟩
      rw [if_pos hcounted]
      have := hcalls.1
      omega
    · rename_i hcounted
      refine ⟨n, hcalls _, ?_⟩
      rw [if_neg hcounted]
      omega

end Calls

/-! ## Facts established by a call -/

/-- **Stable facts.**  If answering a call establishes `fact` of that event and
no admitted step destroys a fact, then every event in every history has its
fact. -/
theorem System.facts_of_reaches {S : System Reply ε α σ χ Request Env}
    {ok : Label χ Request Env → Pool Reply ε α σ Request → Prop}
    {P₀ P : Pool Reply ε α σ Request} (fact : Event Reply ε → σ → Prop)
    (hinit : ∀ i, P₀.threads i = none)
    (hnew : ∀ P i c t o k, S.Reaches ok P₀ P → ok (.act i c) P → P.threads i = some t →
      t.rest = .call o k → fact ⟨o, (S.exec o c P.world).1⟩ (S.exec o c P.world).2)
    (hkeep : ∀ P ℓ P' e, S.Reaches ok P₀ P → ok ℓ P → S.step ℓ P = some P' →
      fact e P.world → fact e P'.world)
    (h : S.Reaches ok P₀ P) :
    ∀ i t, P.threads i = some t → ∀ e ∈ t.hist, fact e P.world := by
  refine System.Reaches.invariant
    (I := fun P => ∀ i t, P.threads i = some t → ∀ e ∈ t.hist, fact e P.world)
    (fun i t ht => by simp [hinit i] at ht) ?_ h
  intro P ℓ P' hreach hI hok hstep j u hu e he
  have hold : ∀ i t, P.threads i = some t → ∀ e ∈ t.hist, fact e P'.world :=
    fun i t ht e he => hkeep P ℓ P' e hreach hok hstep (hI i t ht e he)
  obtain hj | ⟨q, rfl, rfl⟩ | ⟨c, t, o, k, rfl, ht, hrest, hworld, rfl⟩ := S.step_threads hstep hu
  · exact hold j u hj e he
  · simp [System.start] at he
  · rcases List.mem_cons.mp he with rfl | he
    · rw [hworld]
      exact hnew P j c t o k hreach hok ht hrest
    · exact hold j t ht e he

/-- **Exclusive calls.**  If a kind of answered call establishes a stable fact
that has to be false for it to succeed, no two threads have made such a call. -/
theorem System.exclusive_of_reaches {S : System Reply ε α σ χ Request Env}
    {ok : Label χ Request Env → Pool Reply ε α σ Request → Prop}
    {P₀ P : Pool Reply ε α σ Request} (claims : Event Reply ε → Prop) (fact : σ → Prop)
    (hinit : ∀ i, P₀.threads i = none)
    (hnew : ∀ P i c t o k, S.Reaches ok P₀ P → ok (.act i c) P → P.threads i = some t →
      t.rest = .call o k → claims ⟨o, (S.exec o c P.world).1⟩ →
      ¬ fact P.world ∧ fact (S.exec o c P.world).2)
    (hkeep : ∀ P ℓ P', S.Reaches ok P₀ P → ok ℓ P → S.step ℓ P = some P' →
      fact P.world → fact P'.world)
    (h : S.Reaches ok P₀ P) :
    ∀ i j t u e e', P.threads i = some t → P.threads j = some u → e ∈ t.hist → e' ∈ u.hist →
      claims e → claims e' → i = j := by
  have hfact : ∀ {P}, S.Reaches ok P₀ P →
      ∀ i t, P.threads i = some t → ∀ e ∈ t.hist, claims e → fact P.world := by
    intro P hreach
    refine System.facts_of_reaches (fun e w => claims e → fact w) hinit ?_ ?_ hreach
    · intro P i c t o k hreach hok ht hrest hclaims
      exact (hnew P i c t o k hreach hok ht hrest hclaims).2
    · intro P ℓ P' e hreach hok hstep hold hclaims
      exact hkeep P ℓ P' hreach hok hstep (hold hclaims)
  refine System.Reaches.invariant
    (I := fun P => ∀ i j t u e e', P.threads i = some t → P.threads j = some u → e ∈ t.hist →
      e' ∈ u.hist → claims e → claims e' → i = j)
    (fun i j t u e e' ht => by simp [hinit i] at ht) ?_ h
  intro P ℓ P' hreach hI hok hstep i j t u e e' ht hu he he' hclaims hclaims'
  -- an event of a stepped thread is old, or it is the call just answered
  have hevent : ∀ {i t e}, P'.threads i = some t → e ∈ t.hist →
      (∃ t₀, P.threads i = some t₀ ∧ e ∈ t₀.hist) ∨
      (∃ c t₀ o k, ℓ = .act i c ∧ P.threads i = some t₀ ∧ t₀.rest = .call o k ∧
        e = ⟨o, (S.exec o c P.world).1⟩) := by
    intro i t e ht he
    obtain hold | ⟨q, rfl, rfl⟩ | ⟨c, t₀, o, k, rfl, ht₀, hrest, -, rfl⟩ := S.step_threads hstep ht
    · exact .inl ⟨t, hold, he⟩
    · simp [System.start] at he
    · rcases List.mem_cons.mp he with rfl | he
      · exact .inr ⟨c, t₀, o, k, rfl, ht₀, hrest, rfl⟩
      · exact .inl ⟨t₀, ht₀, he⟩
  obtain ⟨t₀, ht₀, hold⟩ | ⟨c, t₀, o, k, rfl, ht₀, hrest, rfl⟩ := hevent ht he
  · obtain ⟨u₀, hu₀, hold'⟩ | ⟨c, u₀, o, k, rfl, hu₀, hrest, rfl⟩ := hevent hu he'
    · exact hI i j t₀ u₀ e e' ht₀ hu₀ hold hold' hclaims hclaims'
    · exact absurd (hfact hreach i t₀ ht₀ e hold hclaims)
        (hnew P j c u₀ o k hreach hok hu₀ hrest hclaims').1
  · obtain ⟨u₀, hu₀, hold'⟩ | ⟨c', u₀, o', k', hℓ, hu₀, hrest', rfl⟩ := hevent hu he'
    · exact absurd (hfact hreach j u₀ hu₀ e' hold' hclaims')
        (hnew P i c t₀ o k hreach hok ht₀ hrest hclaims).1
    · cases hℓ
      rfl

/-- What an answered call can do to a resource of which a thread is an owner by its own
history: take it, which has to be free; give it up, which only an owner does; or neither. -/
structure System.Guards (S : System Reply ε α σ χ Request Env)
    (ok : Label χ Request Env → Pool Reply ε α σ Request → Prop) (P₀ : Pool Reply ε α σ Request)
    (owns : List (Event Reply ε) → Prop) (held : σ → Prop) : Prop where
  start : ¬ owns []
  call : ∀ P i c t o k, S.Reaches ok P₀ P → ok (.act i c) P → P.threads i = some t →
    t.rest = .call o k →
    (¬ held P.world ∧ held (S.exec o c P.world).2) ∨
    (owns t.hist ∧ ¬ owns (⟨o, (S.exec o c P.world).1⟩ :: t.hist)) ∨
    ((owns (⟨o, (S.exec o c P.world).1⟩ :: t.hist) → owns t.hist) ∧
      (held P.world → held (S.exec o c P.world).2))
  env : ∀ P e w, S.Reaches ok P₀ P → ok (.env e) P → S.env e P.world = some w → held P.world → held w

/-- **Ownership.**  A guarded resource has at most one owner, and is held while it
has one. -/
theorem System.owner_of_reaches {S : System Reply ε α σ χ Request Env}
    {ok : Label χ Request Env → Pool Reply ε α σ Request → Prop} {P₀ P : Pool Reply ε α σ Request}
    {owns : List (Event Reply ε) → Prop} {held : σ → Prop} (hguards : S.Guards ok P₀ owns held)
    (hinit : ∀ i, P₀.threads i = none) (h : S.Reaches ok P₀ P) {i : ℕ}
    {t : Thread Reply ε α Request} (ht : P.threads i = some t) (howns : owns t.hist) :
    held P.world ∧ ∀ j u, P.threads j = some u → owns u.hist → i = j := by
  -- by induction on the run: what is held has exactly one owner
  refine System.Reaches.invariant
    (I := fun P => ∀ i t, P.threads i = some t → owns t.hist →
      held P.world ∧ ∀ j u, P.threads j = some u → owns u.hist → i = j)
    (fun i t ht => by simp [hinit i] at ht) ?_ h i t ht howns
  intro P ℓ P' hreach hI hok hstep i t' ht' howns'
  obtain ⟨a, q, rfl, hnone, rfl⟩ | ⟨a, c, t, o, k, rfl, ht, hrest, rfl⟩ | ⟨e, w, rfl, hw, rfl⟩ :=
    S.step_cases hstep
  · -- the new thread owns nothing
    have hold : ∀ {j u}, (Function.update P.threads a (some (S.start q))) j = some u →
        owns u.hist → P.threads j = some u := by
      intro j u hu howns
      by_cases hja : j = a
      · subst hja
        rw [Function.update_self, Option.some.injEq] at hu
        subst hu
        exact absurd howns hguards.start
      · rwa [Function.update_of_ne hja] at hu
    obtain ⟨hheld, hunique⟩ := hI i t' (hold ht' howns') howns'
    exact ⟨hheld, fun j u hu howns => hunique j u (hold hu howns) howns⟩
  · have hthreads : ∀ {j u}, (S.advance P a c t o k).threads j = some u →
        j = a ∧ u = t.answered o k (S.exec o c P.world).1 ∨ j ≠ a ∧ P.threads j = some u := by
      intro j u hu
      by_cases hja : j = a
      · subst hja
        rw [S.advance_threads_self, Option.some.injEq] at hu
        exact .inl ⟨rfl, hu.symm⟩
      · rw [S.advance_threads_of_ne hja] at hu
        exact .inr ⟨hja, hu⟩
    obtain ⟨hfree, hheld⟩ | ⟨howner, hlost⟩ | ⟨hsame, hkeep⟩ :=
      hguards.call P a c t o k hreach hok ht hrest
    · -- nobody owned it, so the caller is the only owner
      have honly : ∀ {j u}, (S.advance P a c t o k).threads j = some u → owns u.hist → j = a := by
        intro j u hu howns
        obtain ⟨hja, -⟩ | ⟨-, hu⟩ := hthreads hu
        · exact hja
        · exact absurd (hI j u hu howns).1 hfree
      refine ⟨hheld, fun j u hu howns => ?_⟩
      rw [honly ht' howns', honly hu howns]
    · -- the caller owned it alone, so nobody does now
      exfalso
      obtain ⟨-, rfl⟩ | ⟨hia, hold⟩ := hthreads ht'
      · exact hlost howns'
      · exact hia ((hI i t' hold howns').2 a t ht howner)
    · -- the call makes nobody an owner who was none
      have hold : ∀ {j u}, (S.advance P a c t o k).threads j = some u → owns u.hist →
          ∃ u₀, P.threads j = some u₀ ∧ owns u₀.hist := by
        intro j u hu howns
        obtain ⟨rfl, rfl⟩ | ⟨-, hu⟩ := hthreads hu
        · exact ⟨t, ht, hsame howns⟩
        · exact ⟨u, hu, howns⟩
      obtain ⟨t₀, ht₀, howns₀⟩ := hold ht' howns'
      obtain ⟨hheld, hunique⟩ := hI i t₀ ht₀ howns₀
      refine ⟨hkeep hheld, fun j u hu howns => ?_⟩
      obtain ⟨u₀, hu₀, hownsu⟩ := hold hu howns
      exact hunique j u₀ hu₀ hownsu
  · -- the environment has no history, and leaves what is held
    obtain ⟨hheld, hunique⟩ := hI i t' ht' howns'
    exact ⟨hguards.env P e w hreach hok hw hheld, hunique⟩

end Pool

end Interaction
