import ChickenOrder.Rewriting.Letterwise
import ChickenOrder.Services.Infrastructure
import ChickenOrder.Services.OrderApi

/-!
# The idempotency header of a legacy point of sale

`LegacyV1PosAdapter.sendOrder` sends the idempotency key without hyphens and in upper case,
where Redis and the database compare the key itself.  `sentHeader_ne_iff` says which keys stay
different: those that do not become each other by inserting or leaving out hyphens and by
changing the case of characters.

The header is made letter by letter, so that two keys have the same one exactly if they become
each other by rewriting single letters; that is `ChickenOrder.Rewriting.Letterwise`.
`Respelled` lists the rewritings in the terms of the source.
-/

namespace ChickenOrder

open Interaction Rewriting

namespace LegacyV1PosAdapter

/-- The value of `X-IDEMPOTENCY` in the request that `sendOrder` makes, as it is handed to the HTTP
client. -/
def sentHeader (endpoint : String) (apiKey : Option String) (order : DomainOrder) : Option String :=
  match (sendOrder endpoint apiKey order).next with
  | some (.postToPos request) => request.headers.lookup "X-IDEMPOTENCY"
  | _ => none

/-- It is the key without hyphens and in upper case, whatever the endpoint and the credentials of
the store are. -/
theorem sentHeader_eq (endpoint : String) (apiKey : Option String) (order : DomainOrder) :
    sentHeader endpoint apiKey order = some (idempotencyHeader order.idempotencyKey) := by
  show List.lookup "X-IDEMPOTENCY" ([("Content-Type", "application/xml")] ++
    ((truthyText? apiKey).map fun key => ("X-Api-Key", key)).toList ++
    [("X-IDEMPOTENCY", idempotencyHeader order.idempotencyKey)]) = _
  cases truthyText? apiKey with
  | none => simp [List.lookup_cons]
  | some key => simp [List.lookup_cons]

/-- What the header makes of a character: nothing of a hyphen, and of a letter up to three letters.
-/
def headerChar (c : Char) : List Char := if c = '-' then [] else upperChar c

/-- The header is made character by character. -/
theorem idempotencyHeader_toList (key : String) :
    (idempotencyHeader key).toList = key.toList.flatMap headerChar := by
  unfold idempotencyHeader toUpperCase
  rw [String.toList_ofList, String.toList_ofList]
  induction key.toList with
  | nil => rfl
  | cons c cs ih =>
      rw [List.flatMap_cons, ← ih]
      by_cases hc : c = '-'
      · simp [headerChar, hc]
      · simp [headerChar, hc]

/-- A character of the header is not changed again.  Upper case letters have no upper case of their
own, and no letter becomes a hyphen. -/
theorem headerChar_of_mem {c d : Char} (h : d ∈ headerChar c) : headerChar d = [d] := by
  unfold headerChar at h
  split at h
  · cases h
  · rename_i hc
    have hd : d ≠ '-' := by
      rintro rfl
      exact hyphen_not_mem_upperChar hc h
    rw [headerChar, if_neg hd, upperChar_of_mem h]

end LegacyV1PosAdapter

open LegacyV1PosAdapter

/-- One key is the other with a hyphen left out, or with a character in upper case.  These are
single steps; keys may be several apart. -/
inductive Respelled : List Char → List Char → Prop
  | hyphen (before after : List Char) : Respelled (before ++ '-' :: after) (before ++ after)
  | upperCase (before : List Char) (c : Char) (after : List Char) :
      Respelled (before ++ c :: after) (before ++ upperChar c ++ after)

/-- The keys become each other by such changes, in either direction. -/
def SameSpelling (k₁ k₂ : String) : Prop := Relation.EqvGen Respelled k₁.toList k₂.toList

/-- These are the changes that the header undoes: a hyphen left out, and a character put in upper
case. -/
theorem respelled_of_rewritesLetter {cs ds : List Char} (h : RewritesLetter headerChar cs ds) :
    Respelled cs ds := by
  obtain ⟨before, c, after⟩ := h
  by_cases hc : c = '-'
  · subst hc
    simpa [headerChar] using Respelled.hyphen before after
  · simpa [headerChar, hc] using Respelled.upperCase before c after

/-- A step of the one kind is a rewriting of a letter. -/
theorem interchangeable_of_respelled {cs ds : List Char} (h : Respelled cs ds) :
    Interchangeable headerChar cs ds := by
  obtain ⟨before, after⟩ | ⟨before, c, after⟩ := h
  · simpa [headerChar] using
      (Relation.EqvGen.rel _ _ (.letter before '-' after) : Interchangeable headerChar _ _)
  · by_cases hc : c = '-'
    · subst hc
      rw [upperChar_hyphen, List.append_assoc]
      exact .refl _
    · simpa [headerChar, hc] using
        (Relation.EqvGen.rel _ _ (.letter before c after) : Interchangeable headerChar _ _)

theorem sameSpelling_iff {k₁ k₂ : String} :
    SameSpelling k₁ k₂ ↔ Interchangeable headerChar k₁.toList k₂.toList := by
  unfold SameSpelling
  generalize k₁.toList = cs
  generalize k₂.toList = ds
  constructor
  · intro h
    induction h with
    | rel _ _ hrespelled => exact interchangeable_of_respelled hrespelled
    | refl _ => exact .refl _
    | symm _ _ _ ih => exact ih.symm
    | trans _ _ _ _ _ ih₁ ih₂ => exact ih₁.trans _ _ _ ih₂
  · exact Relation.EqvGen.mono (fun _ _ hletter => respelled_of_rewritesLetter hletter) cs ds

/-- **Which keys the header keeps apart**: those that do not become each other by leaving out or
inserting hyphens and by changing the case of characters.  Redis and the database keep all different
keys apart. -/
theorem sentHeader_ne_iff (endpoint : String) (apiKey : Option String) (order₁ order₂ : DomainOrder) :
    sentHeader endpoint apiKey order₁ ≠ sentHeader endpoint apiKey order₂ ↔
      ¬ SameSpelling order₁.idempotencyKey order₂.idempotencyKey := by
  rw [sentHeader_eq, sentHeader_eq, ne_eq, Option.some.injEq, ← String.toList_inj,
    idempotencyHeader_toList, idempotencyHeader_toList, sameSpelling_iff,
    flatMap_eq_iff fun _ _ => headerChar_of_mem]

/-- Two keys that the database keeps apart, and the legacy point of sale does not: the second order
is taken for the first. -/
theorem not_sentHeader_ne_of_hyphen :
    ¬ ∀ (endpoint : String) (apiKey : Option String) (order₁ order₂ : DomainOrder),
      order₁.idempotencyKey ≠ order₂.idempotencyKey →
      (1 ≤ validatorLength order₁.idempotencyKey ∧ validatorLength order₁.idempotencyKey ≤ 255) →
      (1 ≤ validatorLength order₂.idempotencyKey ∧ validatorLength order₂.idempotencyKey ≤ 255) →
      sentHeader endpoint apiKey order₁ ≠ sentHeader endpoint apiKey order₂ := by
  intro h
  refine h "http://pos-legacy:8080" none ⟨⟨7⟩, "", "", "order-7", "", []⟩
    ⟨⟨8⟩, "", "", "Order7", "", []⟩ (by decide) (by decide) (by decide) ?_
  decide +kernel

end ChickenOrder
