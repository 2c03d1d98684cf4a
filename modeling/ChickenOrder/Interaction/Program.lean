import Mathlib.Logic.Basic
import Mathlib.Tactic.Common

/-!
# Effectful programs and their weakest preconditions

A service method is a sequence of calls to things it does not own (a database,
a key-value store, a queue, another process), glued together by local control
flow: branches, `try/catch`, `try/finally`.  `Program Reply ε α` is that shape
and nothing else.  A program either has returned, has thrown, or is waiting at
one outgoing call; the answer of a call is a reply of the call's own type or an
error, so that *every* call can fail.

The calls stay uninterpreted.  One weakest precondition, `Program.wp`, is
parametric in what a call does to a state `σ` (`step`) and in which calls the
program is allowed to make (`guard`).  Two instances are used:

* `σ` is a concrete world and `step` executes the call on it: then `wp` is the
  usual total-correctness precondition, connected to execution by `wp_run`;
* `σ` is the list of events a program has seen so far: then `wp` says what the
  program does against an *arbitrary* environment, which is what a caller in
  the middle of an interleaving knows about it
  (`ChickenOrder.Interaction.Pool`).

The rules are equivalences and `simp` lemmas, so unfolding a program under `wp`
computes its verification condition.
-/

namespace Interaction

/-- A program over calls `o : Op` answered by `Reply o`, throwing `ε` and returning `α`.  It is a
tree: what a call is followed by depends on its answer. -/
inductive Program {Op : Type} (Reply : Op → Type) (ε α : Type) : Type
  | pure (a : α)
  | throw (e : ε)
  | call (o : Op) (k : Except ε (Reply o) → Program Reply ε α)

namespace Program

variable {Op : Type} {Reply : Op → Type} {ε α β : Type}

/-! ## Control flow -/

/-- Sequencing: `f` runs on the returned value, an error skips it. -/
def bind : Program Reply ε α → (α → Program Reply ε β) → Program Reply ε β
  | .pure a, f => f a
  | .throw e, _ => .throw e
  | .call o k, f => .call o fun r => bind (k r) f

instance : Monad (Program Reply ε) where
  pure := .pure
  bind := bind

/-- One outgoing call, which returns what is answered or throws the error. -/
def perform (o : Op) : Program Reply ε (Reply o) :=
  .call o fun r => match r with
    | .ok a => .pure a
    | .error e => .throw e

/-- `try p catch handler`.  Only what `p` throws gets to the handler, not what the handler throws
itself. -/
def tryCatch : Program Reply ε α → (ε → Program Reply ε α) → Program Reply ε α
  | .pure a, _ => .pure a
  | .throw e, handler => handler e
  | .call o k, handler => .call o fun r => tryCatch (k r) handler

/-- `try p finally cleanup`: the cleanup runs on both exits, and an error it
throws replaces the one in flight. -/
def tryFinally : Program Reply ε α → Program Reply ε β → Program Reply ε α
  | .pure a, cleanup => bind cleanup fun _ => .pure a
  | .throw e, cleanup => bind cleanup fun _ => .throw e
  | .call o k, cleanup => .call o fun r => tryFinally (k r) cleanup

/-- `for x of xs { body x }`. -/
def forEach : List β → (β → Program Reply ε Unit) → Program Reply ε Unit
  | [], _ => .pure ()
  | x :: xs, body => bind (body x) fun _ => forEach xs body

/-- A program over some of the calls of a larger interface, as one over that interface. -/
def embed {Op' : Type} {Reply' : Op' → Type} (emb : Op → Op') :
    Program (fun o => Reply' (emb o)) ε α → Program Reply' ε α
  | .pure a => .pure a
  | .throw e => .throw e
  | .call o k => .call (emb o) fun r => embed emb (k r)

/-- Sequencing is associative, so that a program may be regrouped around any of its calls. -/
theorem bind_assoc {γ : Type} (p : Program Reply ε α) (f : α → Program Reply ε β)
    (g : β → Program Reply ε γ) : p >>= f >>= g = p >>= fun a => f a >>= g := by
  show bind (bind p f) g = bind p fun a => bind (f a) g
  induction p with
  | pure a => rfl
  | throw e => rfl
  | call o k ih => exact congrArg (call o) (funext ih)

section Embed

variable {Op₀ : Type} (emb : Op₀ → Op)

@[simp] theorem embed_pure (a : α) :
    embed emb (.pure a : Program (fun o => Reply (emb o)) ε α) = .pure a := rfl

@[simp] theorem embed_throw (e : ε) :
    embed emb (.throw e : Program (fun o => Reply (emb o)) ε α) = .throw e := rfl

@[simp] theorem embed_perform (o : Op₀) :
    embed emb (perform o : Program (fun o => Reply (emb o)) ε (Reply (emb o))) = perform (emb o) := by
  unfold perform embed
  congr 1
  funext r
  cases r with
  | ok a => rfl
  | error e => rfl

theorem embed_bind (p : Program (fun o => Reply (emb o)) ε α)
    (f : α → Program (fun o => Reply (emb o)) ε β) :
    embed emb (p >>= f) = embed emb p >>= fun a => embed emb (f a) := by
  show embed emb (bind p f) = bind (embed emb p) fun a => embed emb (f a)
  induction p with
  | pure a => rfl
  | throw e => rfl
  | call o k ih => exact congrArg (call (emb o)) (funext ih)

end Embed

/-- The call the program is waiting at, if any.  A program that has ended waits at none. -/
def next : Program Reply ε α → Option Op
  | .call o _ => some o
  | _ => none

@[simp] theorem next_pure (a : α) : (.pure a : Program Reply ε α).next = none := rfl

@[simp] theorem next_throw (e : ε) : (.throw e : Program Reply ε α).next = none := rfl

@[simp] theorem next_call (o : Op) (k : Except ε (Reply o) → Program Reply ε α) :
    (Program.call o k).next = some o := rfl

/-! ## The calls a program can make -/

/-- Every call the program can make is `allowed`, whatever it is answered on the way. -/
def OnlyCalls (allowed : Op → Prop) : Program Reply ε α → Prop
  | .pure _ => True
  | .throw _ => True
  | .call o k => allowed o ∧ ∀ r, OnlyCalls allowed (k r)

namespace OnlyCalls

variable {allowed allowed' : Op → Prop}

/-- What only makes some calls only makes calls of a larger set. -/
theorem mono (hsub : ∀ o, allowed o → allowed' o) {p : Program Reply ε α}
    (hp : p.OnlyCalls allowed) : p.OnlyCalls allowed' := by
  induction p with
  | pure a => trivial
  | throw e => trivial
  | call o k ih => exact ⟨hsub o hp.1, fun r => ih r (hp.2 r)⟩

/-- If all calls are allowed, any program only makes allowed ones. -/
theorem of_forall (h : ∀ o, allowed o) (p : Program Reply ε α) : p.OnlyCalls allowed := by
  induction p with
  | pure a => trivial
  | throw e => trivial
  | call o k ih => exact ⟨h o, ih⟩

theorem perform {o : Op} (h : allowed o) :
    (Program.perform o : Program Reply ε (Reply o)).OnlyCalls allowed := by
  refine ⟨h, fun r => ?_⟩
  cases r with
  | ok a => trivial
  | error e => trivial

/-- A sequence only makes the calls of its two parts.  This is stated for `Program.bind`, as
inductions meet it. -/
theorem bind' {p : Program Reply ε α} {f : α → Program Reply ε β} (hp : p.OnlyCalls allowed)
    (hf : ∀ a, (f a).OnlyCalls allowed) : (Program.bind p f).OnlyCalls allowed := by
  induction p with
  | pure a => exact hf a
  | throw e => trivial
  | call o k ih => exact ⟨hp.1, fun r => ih r (hp.2 r)⟩

/-- The same for `>>=`, as programs are written. -/
theorem bind {p : Program Reply ε α} {f : α → Program Reply ε β} (hp : p.OnlyCalls allowed)
    (hf : ∀ a, (f a).OnlyCalls allowed) : (p >>= f).OnlyCalls allowed :=
  bind' hp hf

/-- A handler's calls count wherever it can be reached. -/
theorem tryCatch {p : Program Reply ε α} {handler : ε → Program Reply ε α}
    (hp : p.OnlyCalls allowed) (hhandler : ∀ e, (handler e).OnlyCalls allowed) :
    (Program.tryCatch p handler).OnlyCalls allowed := by
  induction p with
  | pure a => trivial
  | throw e => exact hhandler e
  | call o k ih => exact ⟨hp.1, fun r => ih r (hp.2 r)⟩

theorem tryFinally {p : Program Reply ε α} {cleanup : Program Reply ε β}
    (hp : p.OnlyCalls allowed) (hcleanup : cleanup.OnlyCalls allowed) :
    (Program.tryFinally p cleanup).OnlyCalls allowed := by
  induction p with
  | pure a => exact bind' hcleanup fun _ => trivial
  | throw e => exact bind' hcleanup fun _ => trivial
  | call o k ih => exact ⟨hp.1, fun r => ih r (hp.2 r)⟩

/-- An embedded program only makes embedded calls. -/
theorem embed {Op₀ : Type} (emb : Op₀ → Op) {p : Program (fun o => Reply (emb o)) ε α}
    (hp : p.OnlyCalls fun o => allowed (emb o)) : (Program.embed emb p).OnlyCalls allowed := by
  induction p with
  | pure a => trivial
  | throw e => trivial
  | call o k ih => exact ⟨hp.1, fun r => ih r (hp.2 r)⟩

end OnlyCalls

/-- On every path the program makes at most `n` of the `counted` calls.  What is counted is how
often a call is made, not how often it succeeds. -/
def AtMost (counted : Op → Bool) : ℕ → Program Reply ε α → Prop
  | _, .pure _ => True
  | _, .throw _ => True
  | n, .call o k =>
      if counted o then 0 < n ∧ ∀ r, AtMost counted (n - 1) (k r) else ∀ r, AtMost counted n (k r)

namespace AtMost

variable {counted : Op → Bool}

theorem mono {m n : ℕ} (hmn : m ≤ n) {p : Program Reply ε α} (hp : p.AtMost counted m) :
    p.AtMost counted n := by
  induction p generalizing m n with
  | pure a => trivial
  | throw e => trivial
  | call o k ih =>
      unfold AtMost at hp ⊢
      split at hp
      · rename_i hcounted
        rw [if_pos hcounted]
        exact ⟨by omega, fun r => ih r (by omega) (hp.2 r)⟩
      · rename_i hcounted
        rw [if_neg hcounted]
        exact fun r => ih r hmn (hp r)

/-- A program without counted calls makes none. -/
theorem of_onlyCalls {p : Program Reply ε α} (hp : p.OnlyCalls fun o => counted o = false) (n : ℕ) :
    p.AtMost counted n := by
  induction p with
  | pure a => trivial
  | throw e => trivial
  | call o k ih =>
      unfold AtMost
      rw [hp.1]
      exact fun r => ih r (hp.2 r)

theorem perform (o : Op) : (Program.perform o : Program Reply ε (Reply o)).AtMost counted 1 := by
  have hk : ∀ n (r : Except ε (Reply o)), (match r with
      | .ok a => (.pure a : Program Reply ε (Reply o))
      | .error e => .throw e).AtMost counted n := by
    intro n r
    cases r with
    | ok a => trivial
    | error e => trivial
  unfold Program.perform AtMost
  split
  · exact ⟨Nat.one_pos, hk _⟩
  · exact hk _

/-- The bounds of a sequence add up, stated for `Program.bind`. -/
theorem bind' {m n : ℕ} {p : Program Reply ε α} {f : α → Program Reply ε β}
    (hp : p.AtMost counted m) (hf : ∀ a, (f a).AtMost counted n) :
    (Program.bind p f).AtMost counted (m + n) := by
  induction p generalizing m with
  | pure a => exact (hf a).mono (Nat.le_add_left n m)
  | throw e => trivial
  | call o k ih =>
      unfold AtMost at hp
      unfold Program.bind AtMost
      split at hp
      · rename_i hcounted
        rw [if_pos hcounted]
        refine ⟨by omega, fun r => ?_⟩
        have hrest := ih r (hp.2 r)
        have hm : m - 1 + n = m + n - 1 := by omega
        rwa [hm] at hrest
      · rename_i hcounted
        rw [if_neg hcounted]
        exact fun r => ih r (hp r)

theorem bind {m n : ℕ} {p : Program Reply ε α} {f : α → Program Reply ε β}
    (hp : p.AtMost counted m) (hf : ∀ a, (f a).AtMost counted n) :
    (p >>= f).AtMost counted (m + n) :=
  bind' hp hf

/-- A handler may run after all counted calls of the body, so that the bounds add up here as well.
-/
theorem tryCatch {m n : ℕ} {p : Program Reply ε α} {handler : ε → Program Reply ε α}
    (hp : p.AtMost counted m) (hhandler : ∀ e, (handler e).AtMost counted n) :
    (Program.tryCatch p handler).AtMost counted (m + n) := by
  induction p generalizing m with
  | pure a => trivial
  | throw e => exact (hhandler e).mono (Nat.le_add_left n m)
  | call o k ih =>
      unfold AtMost at hp
      unfold Program.tryCatch AtMost
      split at hp
      · rename_i hcounted
        rw [if_pos hcounted]
        refine ⟨by omega, fun r => ?_⟩
        have hrest := ih r (hp.2 r)
        have hm : m - 1 + n = m + n - 1 := by omega
        rwa [hm] at hrest
      · rename_i hcounted
        rw [if_neg hcounted]
        exact fun r => ih r (hp r)

/-- A cleanup runs after the body in any case. -/
theorem tryFinally {m n : ℕ} {p : Program Reply ε α} {cleanup : Program Reply ε β}
    (hp : p.AtMost counted m) (hcleanup : cleanup.AtMost counted n) :
    (Program.tryFinally p cleanup).AtMost counted (m + n) := by
  induction p generalizing m with
  | pure a =>
      have hpure : ∀ _ : β, (Program.pure a : Program Reply ε α).AtMost counted 0 := fun _ => trivial
      exact (bind' hcleanup hpure).mono (Nat.le_add_left n m)
  | throw e =>
      have hthrow : ∀ _ : β, (Program.throw e : Program Reply ε α).AtMost counted 0 :=
        fun _ => trivial
      exact (bind' hcleanup hthrow).mono (Nat.le_add_left n m)
  | call o k ih =>
      unfold AtMost at hp
      unfold Program.tryFinally AtMost
      split at hp
      · rename_i hcounted
        rw [if_pos hcounted]
        refine ⟨by omega, fun r => ?_⟩
        have hrest := ih r (hp.2 r)
        have hm : m - 1 + n = m + n - 1 := by omega
        rwa [hm] at hrest
      · rename_i hcounted
        rw [if_neg hcounted]
        exact fun r => ih r (hp r)

end AtMost

/-! ## Weakest preconditions -/

section WeakestPre

variable {σ : Type} (step : (o : Op) → σ → Except ε (Reply o) → σ → Prop)
variable (guard : Op → σ → Prop)

/-- From `s` the program only makes calls its `guard` admits, whatever the
answers `step` allows; if it returns the result satisfies `Q`, and if it throws
the error satisfies `E`. -/
def wp : Program Reply ε α → (α → σ → Prop) → (ε → σ → Prop) → σ → Prop
  | .pure a, Q, _, s => Q a s
  | .throw e, _, E, s => E e s
  | .call o k, Q, E, s => guard o s ∧ ∀ r s', step o s r s' → wp (k r) Q E s'

@[simp] theorem wp_pure (a : α) (Q : α → σ → Prop) (E : ε → σ → Prop) (s : σ) :
    wp step guard (.pure a : Program Reply ε α) Q E s ↔ Q a s := Iff.rfl

@[simp] theorem wp_return (a : α) (Q : α → σ → Prop) (E : ε → σ → Prop) (s : σ) :
    wp step guard (Pure.pure a : Program Reply ε α) Q E s ↔ Q a s := Iff.rfl

@[simp] theorem wp_throw (e : ε) (Q : α → σ → Prop) (E : ε → σ → Prop) (s : σ) :
    wp step guard (.throw e : Program Reply ε α) Q E s ↔ E e s := Iff.rfl

@[simp] theorem wp_perform (o : Op) (Q : Reply o → σ → Prop) (E : ε → σ → Prop) (s : σ) :
    wp step guard (perform o) Q E s ↔
      guard o s ∧ (∀ a s', step o s (.ok a) s' → Q a s') ∧
        ∀ e s', step o s (.error e) s' → E e s' := by
  constructor
  · rintro ⟨hguard, hstep⟩
    exact ⟨hguard, fun a s' h => hstep (.ok a) s' h, fun e s' h => hstep (.error e) s' h⟩
  · rintro ⟨hguard, hok, herror⟩
    refine ⟨hguard, fun r s' h => ?_⟩
    cases r with
    | ok a => exact hok a s' h
    | error e => exact herror e s' h

@[simp] theorem wp_bind' (p : Program Reply ε α) (f : α → Program Reply ε β)
    (Q : β → σ → Prop) (E : ε → σ → Prop) (s : σ) :
    wp step guard (bind p f) Q E s ↔
      wp step guard p (fun a s' => wp step guard (f a) Q E s') E s := by
  induction p generalizing s with
  | pure a => exact Iff.rfl
  | throw e => exact Iff.rfl
  | call o k ih =>
      exact and_congr_right fun _ => forall_congr' fun r => forall_congr' fun s' =>
        imp_congr_right fun _ => ih r s'

@[simp] theorem wp_bind (p : Program Reply ε α) (f : α → Program Reply ε β)
    (Q : β → σ → Prop) (E : ε → σ → Prop) (s : σ) :
    wp step guard (p >>= f) Q E s ↔
      wp step guard p (fun a s' => wp step guard (f a) Q E s') E s :=
  wp_bind' step guard p f Q E s

@[simp] theorem wp_tryCatch (p : Program Reply ε α) (handler : ε → Program Reply ε α)
    (Q : α → σ → Prop) (E : ε → σ → Prop) (s : σ) :
    wp step guard (tryCatch p handler) Q E s ↔
      wp step guard p Q (fun e s' => wp step guard (handler e) Q E s') s := by
  induction p generalizing s with
  | pure a => exact Iff.rfl
  | throw e => exact Iff.rfl
  | call o k ih =>
      exact and_congr_right fun _ => forall_congr' fun r => forall_congr' fun s' =>
        imp_congr_right fun _ => ih r s'

@[simp] theorem wp_tryFinally (p : Program Reply ε α) (cleanup : Program Reply ε β)
    (Q : α → σ → Prop) (E : ε → σ → Prop) (s : σ) :
    wp step guard (tryFinally p cleanup) Q E s ↔
      wp step guard p
        (fun a s' => wp step guard cleanup (fun _ s'' => Q a s'') E s')
        (fun e s' => wp step guard cleanup (fun _ s'' => E e s'') E s') s := by
  induction p generalizing s with
  | pure a => exact wp_bind' step guard cleanup _ Q E s
  | throw e => exact wp_bind' step guard cleanup _ Q E s
  | call o k ih =>
      exact and_congr_right fun _ => forall_congr' fun r => forall_congr' fun s' =>
        imp_congr_right fun _ => ih r s'

@[simp] theorem wp_ite (c : Prop) [Decidable c] (p q : Program Reply ε α)
    (Q : α → σ → Prop) (E : ε → σ → Prop) (s : σ) :
    wp step guard (if c then p else q) Q E s ↔
      (c → wp step guard p Q E s) ∧ (¬ c → wp step guard q Q E s) := by
  split <;> simp_all

@[simp] theorem wp_embed {Op₀ : Type} (emb : Op₀ → Op)
    (p : Program (fun o => Reply (emb o)) ε α) (Q : α → σ → Prop) (E : ε → σ → Prop) (s : σ) :
    wp step guard (embed emb p) Q E s ↔
      wp (fun o s r s' => step (emb o) s r s') (fun o s => guard (emb o) s) p Q E s := by
  induction p generalizing s with
  | pure a => exact Iff.rfl
  | throw e => exact Iff.rfl
  | call o k ih =>
      exact and_congr_right fun _ => forall_congr' fun r => forall_congr' fun s' =>
        imp_congr_right fun _ => ih r s'

/-- **Consequence.** Both exits may be weakened.  With this a specification is used where less is
asked for. -/
theorem wp_mono {p : Program Reply ε α} {Q Q' : α → σ → Prop} {E E' : ε → σ → Prop}
    (hQ : ∀ a s, Q a s → Q' a s) (hE : ∀ e s, E e s → E' e s) {s : σ}
    (h : wp step guard p Q E s) : wp step guard p Q' E' s := by
  induction p generalizing s with
  | pure a => exact hQ a s h
  | throw e => exact hE e s h
  | call o k ih => exact ⟨h.1, fun r s' hs => ih r (h.2 r s' hs)⟩

/-- **Loops.**  An invariant indexed by the elements still to visit, kept by
every iteration, holds at the end of the loop. -/
theorem wp_forEach (body : β → Program Reply ε Unit) (I : List β → σ → Prop)
    (E : ε → σ → Prop)
    (hbody : ∀ x xs s, I (x :: xs) s → wp step guard (body x) (fun _ s' => I xs s') E s) :
    ∀ (xs : List β) (s : σ), I xs s →
      wp step guard (forEach xs body) (fun _ s' => I [] s') E s := by
  intro xs
  induction xs with
  | nil => intro s hs; exact hs
  | cons x xs ih =>
      intro s hs
      rw [forEach, wp_bind']
      exact wp_mono step guard (fun _ s' h => ih s' h) (fun _ _ h => h) (hbody x xs s hs)

/-- **Invariants of single calls.** If every call the program can make is admitted in states
satisfying `I` and keeps it, both exits have it. -/
theorem wp_invariant {p : Program Reply ε α} {allowed : Op → Prop} (I : σ → Prop)
    (hguard : ∀ o s, allowed o → I s → guard o s)
    (hstep : ∀ o s r s', allowed o → I s → step o s r s' → I s')
    (hp : p.OnlyCalls allowed) {s : σ} (hs : I s) :
    wp step guard p (fun _ => I) (fun _ => I) s := by
  induction p generalizing s with
  | pure a => exact hs
  | throw e => exact hs
  | call o k ih =>
      exact ⟨hguard o s hp.1 hs, fun r s' hrs => ih r (hp.2 r) (hstep o s r s' hp.1 hs hrs)⟩

/-- The same for an invariant of every call there is. -/
theorem wp_always {I : σ → Prop} (hguard : ∀ o s, I s → guard o s)
    (hstep : ∀ o s r s', I s → step o s r s' → I s') (p : Program Reply ε α) {s : σ} (hs : I s) :
    wp step guard p (fun _ => I) (fun _ => I) s := by
  have hcalls : p.OnlyCalls fun _ => True := .of_forall (fun _ => trivial) p
  exact wp_invariant step guard I (fun o s _ => hguard o s) (fun o s r s' _ => hstep o s r s')
    hcalls hs

end WeakestPre

end Program

/-! ## Lossy calls -/

/-- How an outgoing call can fail although its target would have answered:
before it takes effect, or after, with the answer lost. -/
inductive Fault (Reason : Type)
  | none
  | rejected (reason : Reason)
  | unacknowledged (reason : Reason)
  deriving DecidableEq

namespace Fault

variable {Reason ε β σ : Type} (raise : Reason → ε)

/-- What the caller sees and what the target state becomes, where `done` is the
target's own answer from state `s`. -/
def apply (f : Fault Reason) (s : σ) (done : Except ε β × σ) : Except ε β × σ :=
  match f with
  | .none => done
  | .rejected reason => (.error (raise reason), s)
  | .unacknowledged reason => (.error (raise reason), done.2)

variable {raise}

@[simp] theorem apply_none (s : σ) (done : Except ε β × σ) :
    (Fault.none : Fault Reason).apply raise s done = done := rfl

/-- A call that is answered was not lost. -/
theorem eq_none_of_apply_eq_ok {f : Fault Reason} {s : σ} {done : Except ε β × σ} {b : β}
    (h : (f.apply raise s done).1 = .ok b) : f = .none := by
  cases f with
  | none => rfl
  | rejected reason => cases h
  | unacknowledged reason => cases h

/-- Lost or not, a call leaves the old state or its own.  So what both of them have, the state after
the call has. -/
theorem apply_invariant {I : σ → Prop} {f : Fault Reason} {s : σ} {done : Except ε β × σ}
    (hs : I s) (hdone : I done.2) : I (f.apply raise s done).2 := by
  cases f with
  | none => exact hdone
  | rejected reason => exact hs
  | unacknowledged reason => exact hdone

/-- The faults of a run that may reject calls only if `r` and lose answers only if `u`.  `True` and
`False` make the usual four kinds of runs of it. -/
def Within (r u : Prop) : Fault Reason → Prop
  | .none => True
  | .rejected _ => r
  | .unacknowledged _ => u

instance (r u : Prop) [Decidable r] [Decidable u] (f : Fault Reason) : Decidable (f.Within r u) :=
  match f with
  | .none => inferInstanceAs (Decidable True)
  | .rejected _ => inferInstanceAs (Decidable r)
  | .unacknowledged _ => inferInstanceAs (Decidable u)

end Fault

/-- The outcome of an operation that leaves the state alone when it fails, as a transaction does. -/
def settle {ε β σ : Type} (s : σ) : Except ε (β × σ) → Except ε β × σ
  | .ok (b, s') => (.ok b, s')
  | .error e => (.error e, s)

@[simp] theorem settle_ok {ε β σ : Type} (s s' : σ) (b : β) :
    settle s (.ok (b, s') : Except ε (β × σ)) = (.ok b, s') := rfl

@[simp] theorem settle_error {ε β σ : Type} (s : σ) (e : ε) :
    settle s (.error e : Except ε (β × σ)) = (.error e, s) := rfl

/-- If a settled operation has answered, it is the operation that has, and its state is the one that
is left. -/
theorem settle_fst_eq_ok {ε β σ : Type} {s : σ} {r : Except ε (β × σ)} {b : β}
    (h : (settle s r).1 = .ok b) : ∃ s', r = .ok (b, s') ∧ (settle s r).2 = s' := by
  cases r with
  | error e => cases h
  | ok bs =>
      cases h
      exact ⟨bs.2, rfl, rfl⟩

/-- An operation that answers nothing. -/
def quietly {ε σ : Type} : Except ε σ → Except ε (Unit × σ)
  | .ok s => .ok ((), s)
  | .error e => .error e

@[simp] theorem quietly_eq_ok {ε σ : Type} {r : Except ε σ} {b : Unit} {s : σ} :
    quietly r = .ok (b, s) ↔ r = .ok s := by
  cases r <;> simp [quietly]

@[simp] theorem quietly_eq_error {ε σ : Type} {r : Except ε σ} {e : ε} :
    quietly r = .error e ↔ r = .error e := by
  cases r <;> simp [quietly]

namespace Program

variable {Op : Type} {Reply : Op → Type} {ε α : Type}

/-! ## Execution on a world -/

section Run

variable {σ χ : Type} (exec : (o : Op) → χ → σ → Except ε (Reply o) × σ)

/-- Run a program alone on the world; `choices n` is what the environment
decides for its `n`-th call. -/
def run (choices : ℕ → χ) : Program Reply ε α → ℕ → σ → Except ε α × σ
  | .pure a, _, s => (.ok a, s)
  | .throw e, _, s => (.error e, s)
  | .call o k, n, s =>
      run choices (k (exec o (choices n) s).1) (n + 1) (exec o (choices n) s).2

/-- A single call. -/
theorem run_perform {choices : ℕ → χ} {o : Op} {n : ℕ} {s s' : σ} {result : Except ε (Reply o)}
    (h : exec o (choices n) s = (result, s')) :
    run exec choices (perform o) n s = (result, s') := by
  show run exec choices (match (exec o (choices n) s).1 with
    | .ok a => .pure a
    | .error e => .throw e) (n + 1) (exec o (choices n) s).2 = _
  rw [h]
  cases result with
  | ok a => rfl
  | error e => rfl

/-- The first call of a sequence, answered. -/
theorem run_bind_of_ok {β : Type} {choices : ℕ → χ} {o : Op} {f : Reply o → Program Reply ε β}
    {n : ℕ} {s : σ} (a : Reply o) (s' : σ) (h : exec o (choices n) s = (.ok a, s')) :
    run exec choices (perform o >>= f) n s = run exec choices (f a) (n + 1) s' := by
  show run exec choices (bind (match (exec o (choices n) s).1 with
    | .ok a => .pure a
    | .error e => .throw e) f) (n + 1) (exec o (choices n) s).2 = _
  rw [h]
  rfl

/-- The first call of a sequence, failing. -/
theorem run_bind_of_error {β : Type} {choices : ℕ → χ} {o : Op} {f : Reply o → Program Reply ε β}
    {n : ℕ} {s s' : σ} {e : ε} (h : exec o (choices n) s = (.error e, s')) :
    run exec choices (perform o >>= f) n s = (.error e, s') := by
  show run exec choices (bind (match (exec o (choices n) s).1 with
    | .ok a => .pure a
    | .error e => .throw e) f) (n + 1) (exec o (choices n) s).2 = _
  rw [h]
  rfl

/-- A program whose result is only wrapped up runs as before. -/
theorem run_map {β : Type} (choices : ℕ → χ) (p : Program Reply ε α) (g : α → β) (n : ℕ) (s : σ) :
    run exec choices (p >>= fun a => return g a) n s =
      ((run exec choices p n s).1.map g, (run exec choices p n s).2) := by
  show run exec choices (bind p fun a => .pure (g a)) n s = _
  induction p generalizing n s with
  | pure a => rfl
  | throw e => rfl
  | call o k ih => exact ih _ _ _

/-- A run with the number of the call that would be next, so that two runs can be put one after the
other. -/
def ran (choices : ℕ → χ) : Program Reply ε α → ℕ → σ → Except ε α × ℕ × σ
  | .pure a, n, s => (.ok a, n, s)
  | .throw e, n, s => (.error e, n, s)
  | .call o k, n, s =>
      ran choices (k (exec o (choices n) s).1) (n + 1) (exec o (choices n) s).2

/-- `run` is `ran` without the number of calls. -/
theorem run_eq_ran (choices : ℕ → χ) (p : Program Reply ε α) (n : ℕ) (s : σ) :
    run exec choices p n s = ((ran exec choices p n s).1, (ran exec choices p n s).2.2) := by
  induction p generalizing n s with
  | pure a => rfl
  | throw e => rfl
  | call o k ih => exact ih _ _ _

section Ran

variable {exec} {β : Type} {choices : ℕ → χ} {n m : ℕ} {s s' : σ}

theorem ran_perform (o : Op) :
    ran exec choices (perform o) n s =
      ((exec o (choices n) s).1, n + 1, (exec o (choices n) s).2) := by
  show ran exec choices (match (exec o (choices n) s).1 with
    | .ok a => .pure a
    | .error e => .throw e) (n + 1) (exec o (choices n) s).2 = _
  cases (exec o (choices n) s).1 with
  | ok a => rfl
  | error e => rfl

variable {p : Program Reply ε α} {f : α → Program Reply ε β} {handler : ε → Program Reply ε α}

/-- A sequence whose first part returns goes on with the second. -/
theorem ran_bind_of_ok {a : α} (h : ran exec choices p n s = (.ok a, m, s')) :
    ran exec choices (p >>= f) n s = ran exec choices (f a) m s' := by
  show ran exec choices (bind p f) n s = _
  induction p generalizing n s with
  | pure b =>
      cases h
      rfl
  | throw e => cases h
  | call o k ih => exact ih _ h

/-- A sequence whose first part throws ends with it. -/
theorem ran_bind_of_error {e : ε} (h : ran exec choices p n s = (.error e, m, s')) :
    ran exec choices (p >>= f) n s = (.error e, m, s') := by
  show ran exec choices (bind p f) n s = _
  induction p generalizing n s with
  | pure b => cases h
  | throw e =>
      cases h
      rfl
  | call o k ih => exact ih _ h

/-- A body that returns does not reach its handler. -/
theorem ran_tryCatch_of_ok {a : α} (h : ran exec choices p n s = (.ok a, m, s')) :
    ran exec choices (tryCatch p handler) n s = (.ok a, m, s') := by
  induction p generalizing n s with
  | pure b =>
      cases h
      rfl
  | throw e => cases h
  | call o k ih => exact ih _ h

/-- A body that throws is followed by its handler, from the state it has left. -/
theorem ran_tryCatch_of_error {e : ε} (h : ran exec choices p n s = (.error e, m, s')) :
    ran exec choices (tryCatch p handler) n s = ran exec choices (handler e) m s' := by
  induction p generalizing n s with
  | pure b => cases h
  | throw e =>
      cases h
      rfl
  | call o k ih => exact ih _ h

/-- A cleanup that does not throw. -/
theorem ran_tryFinally {cleanup : Program Reply ε β} {r : Except ε α} {b : β} {m' : ℕ} {s'' : σ}
    (h : ran exec choices p n s = (r, m, s'))
    (hcleanup : ran exec choices cleanup m s' = (.ok b, m', s'')) :
    ran exec choices (tryFinally p cleanup) n s = (r, m', s'') := by
  induction p generalizing n s with
  | pure a =>
      cases h
      exact ran_bind_of_ok hcleanup
  | throw e =>
      cases h
      exact ran_bind_of_ok hcleanup
  | call o k ih => exact ih _ h

end Ran

/-- Run a program alone on the world, where the environment may also kill the
caller: `plan o = none` means it dies just before it makes the call `o`. -/
def runWithin (plan : Op → Option χ) : Program Reply ε α → σ → Option (Except ε α) × σ
  | .pure a, s => (some (.ok a), s)
  | .throw e, s => (some (.error e), s)
  | .call o k, s =>
      match plan o with
      | none => (none, s)
      | some c => runWithin plan (k (exec o c s).1) (exec o c s).2

/-- Execution that keeps a record of the calls it was asked for, latest first. -/
def logged (o : Op) (c : χ) (s : σ × List Op) : Except ε (Reply o) × σ × List Op :=
  ((exec o c s.1).1, (exec o c s.1).2, o :: s.2)

section Within

variable {exec} {β : Type} {plan : Op → Option χ} {s s' : σ}

/-- A call that is planned is answered as planned. -/
theorem runWithin_call {o : Op} {c : χ} {k : Except ε (Reply o) → Program Reply ε α}
    (h : plan o = some c) :
    runWithin exec plan (.call o k) s = runWithin exec plan (k (exec o c s).1) (exec o c s).2 := by
  rw [runWithin]
  simp only [h]

/-- A call without a plan is where the run stops. -/
theorem runWithin_call_of_none {o : Op} {k : Except ε (Reply o) → Program Reply ε α}
    (h : plan o = none) : runWithin exec plan (.call o k) s = (none, s) := by
  rw [runWithin]
  simp only [h]

/-- A call that is made. -/
theorem runWithin_perform {o : Op} {c : χ} (h : plan o = some c) :
    runWithin exec plan (perform o) s = (some (exec o c s).1, (exec o c s).2) := by
  rw [perform, runWithin_call h]
  cases (exec o c s).1 with
  | ok a => rfl
  | error e => rfl

/-- A call before which the caller dies. -/
theorem runWithin_perform_of_none {o : Op} (h : plan o = none) :
    runWithin exec plan (perform o) s = (none, s) :=
  runWithin_call_of_none h

/-- A sequence goes on where its first part returned, and ends where that threw or
died. -/
theorem runWithin_bind (p : Program Reply ε α) (f : α → Program Reply ε β) :
    runWithin exec plan (p >>= f) s =
      match runWithin exec plan p s with
      | (some (.ok a), s') => runWithin exec plan (f a) s'
      | (some (.error e), s') => (some (.error e), s')
      | (none, s') => (none, s') := by
  show runWithin exec plan (bind p f) s = _
  induction p generalizing s with
  | pure a => rfl
  | throw e => rfl
  | call o k ih =>
      cases hplan : plan o with
      | none => rw [bind, runWithin_call_of_none hplan, runWithin_call_of_none hplan]
      | some c =>
          rw [bind, runWithin_call hplan, runWithin_call hplan]
          exact ih _

/-- A `try` block hands over to its handler where it threw. -/
theorem runWithin_tryCatch (p : Program Reply ε α) (handler : ε → Program Reply ε α) :
    runWithin exec plan (tryCatch p handler) s =
      match runWithin exec plan p s with
      | (some (.error e), s') => runWithin exec plan (handler e) s'
      | done => done := by
  induction p generalizing s with
  | pure a => rfl
  | throw e => rfl
  | call o k ih =>
      cases hplan : plan o with
      | none => rw [tryCatch, runWithin_call_of_none hplan, runWithin_call_of_none hplan]
      | some c =>
          rw [tryCatch, runWithin_call hplan, runWithin_call hplan]
          exact ih _

section Rules

variable {p : Program Reply ε α} {f : α → Program Reply ε β} {handler : ε → Program Reply ε α}

/-- A sequence whose first part returns goes on with the second. -/
theorem runWithin_bind_of_ok {a : α} (h : runWithin exec plan p s = (some (.ok a), s')) :
    runWithin exec plan (p >>= f) s = runWithin exec plan (f a) s' := by
  rw [runWithin_bind, h]

/-- A sequence whose first part throws ends with it. -/
theorem runWithin_bind_of_error {e : ε} (h : runWithin exec plan p s = (some (.error e), s')) :
    runWithin exec plan (p >>= f) s = (some (.error e), s') := by
  rw [runWithin_bind, h]

/-- A sequence whose first part stops has stopped. -/
theorem runWithin_bind_of_none (h : runWithin exec plan p s = (none, s')) :
    runWithin exec plan (p >>= f) s = (none, s') := by
  rw [runWithin_bind, h]

/-- A body that returns does not reach its handler. -/
theorem runWithin_tryCatch_of_ok {a : α} (h : runWithin exec plan p s = (some (.ok a), s')) :
    runWithin exec plan (tryCatch p handler) s = (some (.ok a), s') := by
  rw [runWithin_tryCatch, h]

/-- A body that throws is followed by its handler. -/
theorem runWithin_tryCatch_of_error {e : ε} (h : runWithin exec plan p s = (some (.error e), s')) :
    runWithin exec plan (tryCatch p handler) s = runWithin exec plan (handler e) s' := by
  rw [runWithin_tryCatch, h]

/-- A body that stops does not reach it either: stopping is no error. -/
theorem runWithin_tryCatch_of_none (h : runWithin exec plan p s = (none, s')) :
    runWithin exec plan (tryCatch p handler) s = (none, s') := by
  rw [runWithin_tryCatch, h]

end Rules

/-- What every call of the program keeps, the whole run keeps, wherever it stops. -/
theorem runWithin_invariant {p : Program Reply ε α} {allowed : Op → Prop} {I : σ → Prop}
    (hexec : ∀ o c s, allowed o → I s → I (exec o c s).2) (hp : p.OnlyCalls allowed) (hs : I s) :
    I (runWithin exec plan p s).2 := by
  induction p generalizing s with
  | pure a => exact hs
  | throw e => exact hs
  | call o k ih =>
      cases hplan : plan o with
      | none =>
          rw [runWithin_call_of_none hplan]
          exact hs
      | some c =>
          rw [runWithin_call hplan]
          exact ih _ (hp.2 _) (hexec o c s hp.1 hs)

end Within

/-- What a call may do when the environment's choice is left open, among the
choices `admits` allows. -/
def Executes (admits : Op → χ → Prop) (o : Op) (s : σ) (r : Except ε (Reply o)) (s' : σ) :
    Prop :=
  ∃ c, admits o c ∧ exec o c s = (r, s')

/-- **Adequacy of `wp` for runs.**  A weakest precondition over the executing
step relation describes the outcome of every run. -/
theorem wp_run {admits : Op → χ → Prop} {guard : Op → σ → Prop} (choices : ℕ → χ)
    (hchoices : ∀ n o, admits o (choices n)) {p : Program Reply ε α}
    {Q : α → σ → Prop} {E : ε → σ → Prop} {n : ℕ} {s : σ}
    (h : wp (Executes exec admits) guard p Q E s) :
    match run exec choices p n s with
    | (.ok a, s') => Q a s'
    | (.error e, s') => E e s' := by
  induction p generalizing n s with
  | pure a => exact h
  | throw e => exact h
  | call o k ih => exact ih _ (h.2 _ _ ⟨choices n, hchoices n o, rfl⟩)

/-- One call of a run: its postcondition for every choice that is admitted. -/
theorem wp_perform_executes {admits : Op → χ → Prop} {guard : Op → σ → Prop} {o : Op}
    {Q : Reply o → σ → Prop} {E : ε → σ → Prop} {s : σ} :
    wp (Executes exec admits) guard (perform o) Q E s ↔
      guard o s ∧ ∀ c, admits o c →
        match exec o c s with
        | (.ok a, s') => Q a s'
        | (.error e, s') => E e s' := by
  rw [wp_perform]
  refine and_congr_right fun _ => ⟨?_, ?_⟩
  · rintro ⟨hok, herror⟩ c hc
    cases hresult : exec o c s with
    | mk result s' =>
        cases result with
        | ok a => exact hok a s' ⟨c, hc, hresult⟩
        | error e => exact herror e s' ⟨c, hc, hresult⟩
  · intro h
    refine ⟨?_, ?_⟩
    · rintro a s' ⟨c, hc, hresult⟩
      have := h c hc
      rwa [hresult] at this
    · rintro e s' ⟨c, hc, hresult⟩
      have := h c hc
      rwa [hresult] at this

end Run

end Program

end Interaction
