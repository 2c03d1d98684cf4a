import Mathlib.Data.List.Basic
import Mathlib.Logic.Relation

/-!
# Words up to letterwise rewriting

A function `f` rewrites every letter of a word to a word.  If the letters it produces are
rewritten to themselves, `flatMap f` is a normal form: two words have the same one exactly if
the one becomes the other by rewriting single letters, forwards or backwards, anywhere in the
word (`flatMap_eq_iff`).

This is the general fact behind every comparison of texts by a normal form that is computed
character by character, such as a change to upper case or the removal of some characters, where
`f` gives the empty word.
-/

namespace Rewriting

variable {α : Type} {f : α → List α}

/-- One letter of a word is rewritten. -/
inductive RewritesLetter (f : α → List α) : List α → List α → Prop
  | letter (before : List α) (a : α) (after : List α) :
      RewritesLetter f (before ++ a :: after) (before ++ f a ++ after)

/-- The words that rewriting single letters, forwards or backwards, makes of a word.  It is the
least equivalence with these steps. -/
abbrev Interchangeable (f : α → List α) : List α → List α → Prop :=
  Relation.EqvGen (RewritesLetter f)

/-- A word of letters that are rewritten to themselves. -/
theorem flatMap_eq_self {as : List α} (h : ∀ a ∈ as, f a = [a]) : as.flatMap f = as := by
  induction as with
  | nil => rfl
  | cons a as ih =>
      rw [List.flatMap_cons, h a List.mem_cons_self,
        ih fun b hb => h b (List.mem_cons_of_mem _ hb)]
      rfl

/-- Every word becomes its normal form, also behind other letters.  The induction is on the letters
that are left. -/
theorem interchangeable_flatMap (before as : List α) :
    Interchangeable f (before ++ as) (before ++ as.flatMap f) := by
  induction as generalizing before with
  | nil => exact .refl _
  | cons a as ih =>
      have hhead : Interchangeable f (before ++ a :: as) (before ++ f a ++ as) :=
        .rel _ _ (.letter before a as)
      have htail := ih (before ++ f a)
      rw [List.flatMap_cons]
      rw [List.append_assoc, List.append_assoc] at htail
      rw [List.append_assoc] at hhead
      exact hhead.trans _ _ _ htail

/-- **Normal forms.** If rewritten letters are not rewritten again, words have the same image
exactly if they are interchangeable. -/
theorem flatMap_eq_iff (hf : ∀ a, ∀ b ∈ f a, f b = [b]) {as bs : List α} :
    as.flatMap f = bs.flatMap f ↔ Interchangeable f as bs := by
  constructor
  · intro h
    have has : Interchangeable f as (as.flatMap f) := interchangeable_flatMap [] as
    have hbs : Interchangeable f bs (bs.flatMap f) := interchangeable_flatMap [] bs
    rw [h] at has
    exact has.trans _ _ _ (hbs.symm _ _)
  · intro h
    induction h with
    | rel _ _ hrewrites =>
        obtain ⟨before, a, after⟩ := hrewrites
        simp [List.flatMap_append, flatMap_eq_self (hf a)]
    | refl _ => rfl
    | symm _ _ _ ih => exact ih.symm
    | trans _ _ _ _ _ ih₁ ih₂ => exact ih₁.trans ih₂

end Rewriting
