import Mathlib.Data.List.Forall2
import Mathlib.Tactic.Common

/-!
# Readers from left to right

A reader takes a value off the front of its input, or fails; it never goes back.  `Reads p xs a`
says that `p` takes exactly `xs` off any input that starts with it, and makes `a` of it: then
nothing else can be made of `xs` (`Reads.unique`).  A field that ends where a certain token comes
is read `ReadsBefore` that token.

The rules are about what is written: a sequence of parts is read by the sequence of their
readers, a list up to its closing tag by `listUntil`.

Nothing is said about texts that are not written by such a sequence.  A reader that fails on all
of them, and one that takes some, have the same rules.
-/

namespace Parsing

variable {τ α β : Type}

/-- A reader takes what it reads from the front of the input, or fails.  It does not look back. -/
abbrev Reader (τ : Type) := StateT (List τ) Option

namespace Reader

/-- The value of the whole input.  What is left over makes it fail. -/
def parse (p : Reader τ α) (input : List τ) : Option α :=
  match p input with
  | some (a, []) => some a
  | _ => none

/-- A value that has to be readable in turn. -/
def decode (p : Reader τ α) (f : α → Option β) : Reader τ β := do
  let a ← p
  StateT.lift (f a)

section Tokens

variable [DecidableEq τ]

/-- Read exactly this word. -/
def literal (word : List τ) : Reader τ Unit := fun input =>
  if word.isPrefixOf input then some ((), input.drop word.length) else none

/-- Everything up to the next `stop`. -/
def upTo (stop : τ) : Reader τ (List τ) := fun input =>
  some (input.takeWhile (· ≠ stop), input.dropWhile (· ≠ stop))

/-- Read what `p` reads between two words. -/
def enclosed (opening closing : List τ) (p : Reader τ α) : Reader τ α := do
  literal opening
  let a ← p
  literal closing
  return a

/-- Items up to `closing`, at most `n` of them.  The bound is fuel, and `listUntil` gives enough of
it. -/
def itemsUntil (closing : List τ) (p : Reader τ α) : ℕ → Reader τ (List α)
  | 0, _ => none
  | n + 1, input =>
      if closing.isPrefixOf input then some ([], input.drop closing.length)
      else do
        let (a, rest) ← p input
        let (as, rest) ← itemsUntil closing p n rest
        return (a :: as, rest)

/-- Items up to `closing`; each takes something off the input. -/
def listUntil (closing : List τ) (p : Reader τ α) : Reader τ (List α) := fun input =>
  itemsUntil closing p (input.length + 1) input

end Tokens

/-! ## What is read -/

/-- The reader takes `xs` and makes `a` of it, whatever follows.  So readers compose as what they
read does. -/
def Reads (p : Reader τ α) (xs : List τ) (a : α) : Prop := ∀ rest, p (xs ++ rest) = some (a, rest)

/-- The same, if `stop` follows.  A field without an end of its own is read like this. -/
def ReadsBefore (stop : τ) (p : Reader τ α) (xs : List τ) (a : α) : Prop :=
  ∀ rest, p (xs ++ stop :: rest) = some (a, stop :: rest)

section Rules

variable {p : Reader τ α} {f : α → Reader τ β} {xs ys : List τ} {a : α} {b : β} {stop : τ}

/-- An input is read as one value only, which is why what can be read can be told apart. -/
theorem Reads.unique {a' : α} (h : Reads p xs a) (h' : Reads p xs a') : a = a' := by
  have heq := (h []).symm.trans (h' [])
  simpa using heq

theorem Reads.parse_eq (h : Reads p xs a) : parse p xs = some a := by
  have hall := h []
  rw [List.append_nil] at hall
  unfold parse
  rw [hall]

/-- What is read before any rest is read before one that starts with `stop`. -/
theorem Reads.before (h : Reads p xs a) : ReadsBefore stop p xs a := fun rest => h (stop :: rest)

theorem reads_pure (a : α) : Reads (pure a : Reader τ α) [] a := fun _ => rfl

theorem Reads.bind (h : Reads p xs a) (hf : Reads (f a) ys b) : Reads (p >>= f) (xs ++ ys) b := by
  intro rest
  show (p (xs ++ ys ++ rest)).bind (fun s => f s.1 s.2) = some (b, rest)
  rw [List.append_assoc, h (ys ++ rest)]
  exact hf rest

/-- The last part of a sequence, whose value is returned. -/
theorem Reads.map {g : α → β} (h : Reads p xs a) :
    Reads (p >>= fun a => pure (g a)) xs (g a) := by
  intro rest
  show (p (xs ++ rest)).bind (fun s => some (g s.1, s.2)) = _
  rw [h rest]
  rfl

/-- What is read may be decoded, if that succeeds. -/
theorem ReadsBefore.decode {g : α → Option β} (h : ReadsBefore stop p xs a) (hg : g a = some b) :
    ReadsBefore stop (p.decode g) xs b := by
  intro rest
  show (p (xs ++ stop :: rest)).bind (fun s => (g s.1).bind fun b => some (b, s.2)) = _
  rw [h rest]
  show (g a).bind _ = _
  rw [hg]
  rfl

section Tokens

variable [DecidableEq τ]

theorem reads_literal (word : List τ) : Reads (literal word) word () := by
  intro rest
  unfold literal
  rw [if_pos (List.isPrefixOf_iff_prefix.mpr (List.prefix_append _ _)), List.drop_left]

/-- Everything up to the first `stop` is read, if there is none in it. -/
theorem readsBefore_upTo (h : stop ∉ xs) : ReadsBefore stop (upTo stop) xs xs := by
  intro rest
  have hall : ∀ x ∈ xs, decide (x ≠ stop) = true := fun x hx =>
    decide_eq_true fun heq => h (heq ▸ hx)
  unfold upTo
  rw [List.takeWhile_append_of_pos hall, List.dropWhile_append_of_pos hall]
  simp

/-- What is enclosed ends where the closing tag starts. -/
theorem ReadsBefore.enclosed {opening closing : List τ} (h : ReadsBefore stop p xs a) :
    Reads (enclosed opening (stop :: closing) p) (opening ++ (xs ++ stop :: closing)) a := by
  refine (reads_literal opening).bind fun rest => ?_
  show (p (xs ++ stop :: closing ++ rest)).bind _ = _
  rw [List.append_assoc, List.cons_append, h (closing ++ rest)]
  exact (reads_literal (stop :: closing)).map rest

/-- Items are read until the closing word.  None of them may start like it, and the fuel must be
more than their number. -/
theorem itemsUntil_flatten {closing : List τ} {inputs : List (List τ)} {as : List α} (rest : List τ)
    (h : List.Forall₂ (fun xs a => Reads p xs a ∧ ∀ rest, ¬ closing <+: xs ++ rest) inputs as)
    {n : ℕ} (hn : inputs.length < n) :
    itemsUntil closing p n (inputs.flatten ++ (closing ++ rest)) = some (as, rest) := by
  induction h generalizing n with
  | nil =>
      obtain ⟨n, rfl⟩ := Nat.exists_eq_add_of_lt hn
      rw [List.flatten_nil, List.nil_append, itemsUntil,
        if_pos (List.isPrefixOf_iff_prefix.mpr (List.prefix_append _ _)), List.drop_left]
  | @cons xs a inputs as hitem _ ih =>
      obtain ⟨hreads, hdistinct⟩ := hitem
      cases n with
      | zero => cases hn
      | succ n =>
          have hnot : ¬ closing.isPrefixOf (xs ++ (inputs.flatten ++ (closing ++ rest))) = true :=
            fun hprefix => hdistinct _ (List.isPrefixOf_iff_prefix.mp hprefix)
          rw [List.flatten_cons, List.append_assoc, itemsUntil, if_neg hnot, hreads]
          show (itemsUntil closing p n _).bind _ = _
          rw [ih (by simpa using hn)]
          rfl

/-- **A list.** No item may look like the end of the list, or the reader would stop in front of it.
-/
theorem reads_listUntil {closing : List τ} {inputs : List (List τ)} {as : List α}
    (h : List.Forall₂ (fun xs a => Reads p xs a ∧ ∀ rest, ¬ closing <+: xs ++ rest) inputs as) :
    Reads (listUntil closing p) (inputs.flatten ++ closing) as := by
  -- an item is not empty, as it would look like the end
  have hlength : inputs.length ≤ inputs.flatten.length := by
    induction h with
    | nil => exact Nat.le_refl 0
    | @cons xs a inputs as hitem _ ih =>
        have hne : xs ≠ [] := by
          rintro rfl
          exact hitem.2 closing (List.prefix_refl _)
        have hpos := List.length_pos_iff.mpr hne
        rw [List.length_cons, List.flatten_cons, List.length_append]
        omega
  intro rest
  unfold listUntil
  rw [List.append_assoc]
  refine itemsUntil_flatten rest h ?_
  rw [List.length_append]
  omega

end Tokens

end Rules

end Reader

end Parsing
