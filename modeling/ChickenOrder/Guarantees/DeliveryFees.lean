import ChickenOrder.Services.StoreSettings

/-!
# The two delivery fees

`GET /settings` falls back to 2000 where the document has no `deliveryFee`, `GET /delivery-fee`
wherever `Number(...)` of it is falsy.  The two part exactly at a fee of 0.

A document is whatever a point of sale has saved: the fee in it can be a number, a text, or
missing.  Both endpoints make a number of it, the one after `??` and the other before `||`, and
a fee of 0 is a value to the first and none to the second.  So a store that delivers for nothing
is shown as such on one page, and with 2000 on the other.

The statement is about every history of saves, as the document is the last one saved:
`settingsAfter_eq`.
-/

namespace ChickenOrder

open MenuAdminController

namespace PublicController

/-- The document has no `deliveryFee`, or a number that is not negative.  Texts and objects are left
out; the two endpoints part on those in other ways. -/
def HasFee (document : JsValue) : Prop :=
  document.get "deliveryFee" = .undefined ∨
    ∃ text q, document.get "deliveryFee" = .number text ∧ JsNumber.ofText text = .finite q ∧ 0 ≤ q

theorem HasFee.hasText {document : JsValue} (h : HasFee document) :
    (document.get "deliveryFee").hasText = true := by
  obtain habsent | ⟨text, q, hfee, -⟩ := h
  · rw [habsent]
    rfl
  · rw [hfee]
    rfl

/-- The JSON value is this number. -/
def IsNumber (v : JsValue) (n : JsNumber) : Prop := ∃ text, v = .number text ∧ JsNumber.ofText text = n

/-- Two replies give the same fee, or both are errors, which need not be the same error. -/
inductive SameFee : Except OrderError SettingsReply → Except OrderError JsNumber → Prop
  | ok {reply : SettingsReply} {fee : JsNumber} (h : IsNumber reply.deliveryFee fee) :
      SameFee (.ok reply) (.ok fee)
  | error (e e' : OrderError) : SameFee (.error e) (.error e')

/-- Both endpoints give the same fee, or both fail.  The fee of the one is a JSON value, that of the
other a number. -/
def FeesAgree (settings : PosSettings) (storeId : Option String) : Prop :=
  SameFee (getSettings settings storeId) (getDeliveryFee settings storeId)

/-- The document last saved for the store of a request, among the uploads that are accepted. -/
def lastSaved (stores : List Uuid) (history : List SettingsUpload) (storeId : Option String) :
    Option JsValue :=
  (Uuid.ofText? (storeId.getD "")).bind fun store =>
    (history.find? fun upload => SavesFor stores store upload).map SettingsUpload.body

theorem sameFee_ok_iff {reply : SettingsReply} {fee : JsNumber} :
    SameFee (.ok reply) (.ok fee) ↔ IsNumber reply.deliveryFee fee := by
  constructor
  · rintro ⟨h⟩
    exact h
  · exact .ok

/-- The default of one is the default of the other.  The two are written down separately in the
source. -/
theorem isNumber_defaults : IsNumber defaults.deliveryFee 2000 :=
  ⟨"2000", rfl, by decide +kernel⟩

/-- A fee of the document is given as it is by one endpoint, and if it is not 0 by the other: `??`
keeps a 0 that `||` replaces. -/
theorem isNumber_settingsReply_iff {document : JsValue} (h : HasFee document) :
    IsNumber (settingsReply document).deliveryFee
        ((document.get "deliveryFee").toNumber.orElse 2000) ↔
      (document.get "deliveryFee").toNumber ≠ 0 := by
  rcases h with habsent | ⟨text, q, hfee, hnumber, -⟩
  · have hdefault : IsNumber (settingsReply document).deliveryFee 2000 := by
      rw [settingsReply, habsent]
      exact isNumber_defaults
    rw [habsent]
    exact iff_of_true hdefault (by decide)
  · have hreply : (settingsReply document).deliveryFee = .number text := by
      rw [settingsReply, hfee]
      rfl
    rw [hreply, hfee, JsValue.toNumber, hnumber]
    by_cases hzero : (JsNumber.finite q) = 0
    · -- 0 is not 2000
      rw [hzero]
      refine iff_of_false ?_ (not_not_intro rfl)
      rintro ⟨text', htext, hnumber'⟩
      cases htext
      rw [hnumber, hzero] at hnumber'
      exact absurd hnumber' (by decide)
    · rw [JsNumber.orElse, if_neg (not_or_intro hzero nofun)]
      exact iff_of_true ⟨text, rfl, hnumber⟩ hzero

section FeesAgree

variable {stores : List Uuid} {history : List SettingsUpload} {storeId : Option String}

/-- Without a document both endpoints give their default, or reject the request. -/
theorem feesAgree_of_not_saved (h : lastSaved stores history storeId = none) :
    FeesAgree (settingsAfter stores history) storeId := by
  unfold FeesAgree getSettings getDeliveryFee selectSettings uuidColumn
  unfold lastSaved at h
  by_cases hempty : storeId.getD "" = ""
  · simp only [if_pos hempty]
    exact .ok isNumber_defaults
  · simp only [if_neg hempty]
    cases hstore : Uuid.ofText? (storeId.getD "") with
    | none => exact .error _ _
    | some store =>
        rw [hstore, Option.bind_some, ← settingsAfter_eq] at h
        simp only [Except.map, bind, Except.bind, h]
        exact .ok isNumber_defaults

/-- With a document, it is the document's fee that matters. -/
theorem feesAgree_iff_of_saved {document : JsValue}
    (hsaved : lastSaved stores history storeId = some document) (h : HasFee document) :
    FeesAgree (settingsAfter stores history) storeId ↔
      (document.get "deliveryFee").toNumber ≠ 0 := by
  obtain ⟨store, hstore, hdocument⟩ := Option.bind_eq_some_iff.mp hsaved
  rw [← settingsAfter_eq] at hdocument
  have hnonempty : storeId.getD "" ≠ "" := by
    intro hempty
    rw [hempty] at hstore
    cases hstore
  unfold FeesAgree getSettings getDeliveryFee selectSettings uuidColumn
  simp only [if_neg hnonempty, hstore, Except.map, bind, Except.bind, hdocument]
  by_cases hnull : document.isNullish = true
  · -- both fail, and a value without properties has no fee
    simp only [if_pos hnull]
    refine iff_of_true (.error _ _) ?_
    have habsent : document.get "deliveryFee" = .undefined := by
      cases document <;> first | rfl | cases hnull
    rw [habsent]
    decide
  · simp only [if_neg hnull, if_neg (not_not_intro h.hasText)]
    exact sameFee_ok_iff.trans (isNumber_settingsReply_iff h)

end FeesAgree

/-- **When the delivery fees agree.**  Whatever was saved before, for a store whose last document
has no fee or one that is not negative, or that has no document: exactly if the fee is not 0. -/
theorem feesAgree_iff (stores : List Uuid) (history : List SettingsUpload) (storeId : Option String)
    (h : ∀ document, lastSaved stores history storeId = some document → HasFee document) :
    FeesAgree (settingsAfter stores history) storeId ↔
      ∀ document, lastSaved stores history storeId = some document →
        (document.get "deliveryFee").toNumber ≠ 0 := by
  cases hsaved : lastSaved stores history storeId with
  | none => exact iff_of_true (feesAgree_of_not_saved hsaved) nofun
  | some document =>
      rw [feesAgree_iff_of_saved hsaved (h document hsaved)]
      simp only [Option.some.injEq, forall_eq']

/-- What was just saved is the last document. -/
theorem lastSaved_cons {stores : List Uuid} {store : Uuid} {upload : SettingsUpload}
    (h : SavesFor stores store upload) (history : List SettingsUpload) :
    lastSaved stores (upload :: history) (some upload.storeId) = some upload.body := by
  rw [lastSaved, Option.getD_some, h.1, Option.bind_some, List.find?_cons_of_pos (by simpa using h)]
  rfl

/-- A store sets its delivery fee. -/
def feeUpload (store : Uuid) (fee : String) : SettingsUpload where
  storeId := store.toText
  body := .object [("isOpen", .bool true), ("deliveryFee", .number fee)]

theorem lastSaved_feeUpload (store : Uuid) (fee : String) (history : List SettingsUpload) :
    lastSaved [store] (feeUpload store fee :: history) (some store.toText) =
      some (feeUpload store fee).body := by
  have hnul : (feeUpload store fee).body.nulFree = true := by
    simp [feeUpload, JsValue.nulFree, JsValue.nulFreeFields, JsValue.nulFreeField]
  have hsaves : SavesFor [store] store (feeUpload store fee) :=
    ⟨Uuid.ofText?_toText store, hnul, List.mem_cons_self⟩
  exact lastSaved_cons hsaves history

theorem get_feeUpload (store : Uuid) (fee : String) :
    (feeUpload store fee).body.get "deliveryFee" = .number fee := by
  simp [feeUpload, JsValue.get, List.lookup_cons]

/-- A store. -/
def feeStore : Uuid := ⟨1⟩

theorem feesAgree_iff_threeThousand :
    FeesAgree (settingsAfter [feeStore] [feeUpload feeStore "3000", feeUpload feeStore "0"])
      (some feeStore.toText) := by
  have hlast := lastSaved_feeUpload feeStore "3000" [feeUpload feeStore "0"]
  have hnumber : JsNumber.ofText "3000" = .finite 3000 := by decide +kernel
  have hfee : ∀ document, some (feeUpload feeStore "3000").body = some document → HasFee document := by
    intro document hdocument
    rw [← Option.some.inj hdocument]
    exact .inr ⟨"3000", 3000, get_feeUpload feeStore "3000", hnumber, by norm_num⟩
  have hagree := feesAgree_iff [feeStore] [feeUpload feeStore "3000", feeUpload feeStore "0"]
    (some feeStore.toText)
  rw [hlast] at hagree
  refine (hagree hfee).mpr fun document hdocument => ?_
  rw [← Option.some.inj hdocument, get_feeUpload, JsValue.toNumber, hnumber]
  decide

/-- **At a free delivery the endpoints disagree.** The document says 0; the one keeps it (`??`), and
to the other it is falsy (`||`), so that it answers with its default of 2000. -/
theorem not_feesAgree_of_zero :
    ¬ ∀ (stores : List Uuid) (history : List SettingsUpload) (storeId : Option String),
      (∀ document, lastSaved stores history storeId = some document → HasFee document) →
        FeesAgree (settingsAfter stores history) storeId := by
  intro h
  have hlast := lastSaved_feeUpload feeStore "0" []
  have hnumber : JsNumber.ofText "0" = .finite 0 := by decide +kernel
  have hfee : ∀ document, lastSaved [feeStore] [feeUpload feeStore "0"] (some feeStore.toText) =
      some document → HasFee document := by
    intro document hdocument
    rw [← Option.some.inj (hlast.symm.trans hdocument)]
    exact .inr ⟨"0", 0, get_feeUpload feeStore "0", hnumber, le_refl 0⟩
  have hnonzero := (feesAgree_iff_of_saved hlast (hfee _ hlast)).mp (h _ _ _ hfee)
  rw [get_feeUpload, JsValue.toNumber, hnumber] at hnonzero
  exact hnonzero rfl

end PublicController

end ChickenOrder
