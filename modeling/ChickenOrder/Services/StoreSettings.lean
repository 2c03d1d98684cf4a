import ChickenOrder.Database.Schema
import ChickenOrder.Values.JsNumber

/-!
# The settings of a store

`POST /settings/save` keeps one JSON document for each store in `pos_settings`.  `GET /settings`
and `GET /delivery-fee` read it, each with defaults of its own for what the document lacks.

Two facts carry what follows: a save replaces the document as a whole, and saves for one store
do not touch another.  So the document of a store is the last one that was accepted for it.
-/

namespace ChickenOrder

/-- `pos_settings`, by its primary key. -/
abbrev PosSettings := Uuid → Option JsValue

/-- A call of `saveSettings`. -/
structure SettingsUpload where
  storeId : String
  body : JsValue

namespace MenuAdminController

/-- `saveSettings`; the ids in `stores` are what `store_id` may refer to.  The whole body is the
document. -/
def saveSettings (stores : List Uuid) (upload : SettingsUpload) (settings : PosSettings) :
    Except OrderError PosSettings := do
  if upload.storeId = "" then .error (.http 400 "storeId required")
  else
    let store ← uuidColumn upload.storeId
    let document ← jsonbColumn upload.body
    if store ∈ stores then return Function.update settings store (some document)
    else .error (queryFailed "insert or update on table pos_settings violates foreign key constraint")

/-- The documents after some calls, latest first; a call that fails changes nothing. -/
def settingsAfter (stores : List Uuid) : List SettingsUpload → PosSettings
  | [] => fun _ => none
  | upload :: history =>
      match saveSettings stores upload (settingsAfter stores history) with
      | .ok settings => settings
      | .error _ => settingsAfter stores history

/-- The call is accepted, and is for the store. -/
def SavesFor (stores : List Uuid) (store : Uuid) (upload : SettingsUpload) : Prop :=
  Uuid.ofText? upload.storeId = some store ∧ upload.body.nulFree = true ∧ store ∈ stores

instance (stores : List Uuid) (store : Uuid) (upload : SettingsUpload) :
    Decidable (SavesFor stores store upload) := inferInstanceAs (Decidable (_ ∧ _ ∧ _))

/-- A document is saved exactly for a known store and if `JSONB` takes it, and it replaces the old
one. -/
theorem saveSettings_eq_ok_iff {stores : List Uuid} {upload : SettingsUpload}
    {settings settings' : PosSettings} :
    saveSettings stores upload settings = .ok settings' ↔
      ∃ store, SavesFor stores store upload ∧
        settings' = Function.update settings store (some upload.body) := by
  unfold saveSettings SavesFor uuidColumn jsonbColumn
  constructor
  · intro h
    split at h
    · cases h
    · cases hstore : Uuid.ofText? upload.storeId with
      | none =>
          rw [hstore] at h
          cases h
      | some store =>
          by_cases hnul : upload.body.nulFree = true
          · rw [hstore, if_pos hnul] at h
            by_cases hmem : store ∈ stores
            · simp only [bind, Except.bind, if_pos hmem] at h
              cases h
              exact ⟨store, ⟨rfl, hnul, hmem⟩, rfl⟩
            · simp only [bind, Except.bind, if_neg hmem] at h
              cases h
          · rw [hstore, if_neg hnul] at h
            cases h
  · rintro ⟨store, ⟨hstore, hnul, hmem⟩, rfl⟩
    have hne : upload.storeId ≠ "" := by
      intro hempty
      rw [hempty] at hstore
      cases hstore
    rw [if_neg hne, hstore, if_pos hnul]
    simp only [bind, Except.bind, if_pos hmem]
    rfl

/-- **A store's document is the last one saved for it.** Nothing of an earlier document is left. -/
theorem settingsAfter_eq (stores : List Uuid) (history : List SettingsUpload) (store : Uuid) :
    settingsAfter stores history store =
      (history.find? fun upload => SavesFor stores store upload).map SettingsUpload.body := by
  induction history with
  | nil => rfl
  | cons upload history ih =>
      rw [settingsAfter, List.find?_cons]
      cases hsave : saveSettings stores upload (settingsAfter stores history) with
      | ok settings =>
          obtain ⟨store', hsaves, rfl⟩ := saveSettings_eq_ok_iff.mp hsave
          by_cases hstore : store = store'
          · subst hstore
            simp [hsaves]
          · have hother : ¬ SavesFor stores store upload := fun hsaves' =>
              hstore (Option.some.inj (hsaves'.1.symm.trans hsaves.1))
            simp [hother, Function.update_of_ne hstore, ih]
      | error e =>
          have hnone : ¬ SavesFor stores store upload := by
            intro hsaves
            rw [saveSettings_eq_ok_iff.mpr ⟨store, hsaves, rfl⟩] at hsave
            cases hsave
          simp [hnone, ih]

end MenuAdminController

/-! ## The readers -/

/-- The fields of a reply of `getSettings`; `undefined` for those it lacks.  They are whatever the
document has. -/
structure SettingsReply where
  isOpen : JsValue
  businessPaused : JsValue
  minOrderAmount : JsValue
  storeNotice : JsValue
  deliveryGuide : JsValue
  deliveryFee : JsValue
  openTime : JsValue
  closeTime : JsValue

/-- `n || m`.  Zero and `NaN` are falsy, so that a fee of zero counts as none. -/
def JsNumber.orElse (n m : JsNumber) : JsNumber := if n = 0 ∨ n = .nan then m else n

namespace PublicController

/-- `SELECT settings FROM pos_settings WHERE store_id = $1 LIMIT 1`. -/
def selectSettings (settings : PosSettings) (storeId : String) : Except OrderError (Option JsValue) :=
  (uuidColumn storeId).map settings

/-- What a store without a document is shown.  The two times are not among the defaults. -/
def defaults : SettingsReply where
  isOpen := .bool true
  businessPaused := .bool false
  minOrderAmount := .number "0"
  storeNotice := .string ""
  deliveryGuide := .string ""
  deliveryFee := .number "2000"
  openTime := .undefined
  closeTime := .undefined

/-- The reply for a document `s`. -/
def settingsReply (s : JsValue) : SettingsReply where
  isOpen := (s.get "isOpen").coalesce defaults.isOpen
  businessPaused := (s.get "businessPaused").coalesce defaults.businessPaused
  minOrderAmount := (s.get "minOrderAmount").coalesce defaults.minOrderAmount
  storeNotice := (s.get "storeNotice").coalesce defaults.storeNotice
  deliveryGuide := (s.get "deliveryGuide").coalesce defaults.deliveryGuide
  deliveryFee := (s.get "deliveryFee").coalesce defaults.deliveryFee
  openTime := (s.get "openTime").coalesce .null
  closeTime := (s.get "closeTime").coalesce .null

/-- `GET /settings`.  A document that is JSON's `null` makes it throw, as its properties are read.
-/
def getSettings (settings : PosSettings) (storeId : Option String) : Except OrderError SettingsReply := do
  if storeId.getD "" = "" then return defaults
  else
    match ← selectSettings settings (storeId.getD "") with
    | none => return defaults
    | some s =>
        if s.isNullish then .error (.typeError "Cannot read properties of null (reading 'isOpen')")
        else return settingsReply s

/-- `GET /delivery-fee`.  Unlike `getSettings` it falls back wherever the number is falsy, which a
fee of 0 is. -/
def getDeliveryFee (settings : PosSettings) (storeId : Option String) : Except OrderError JsNumber := do
  if storeId.getD "" = "" then return 2000
  else
    match ← selectSettings settings (storeId.getD "") with
    | none => return 2000
    | some s =>
        if s.isNullish then
          .error (.typeError "Cannot read properties of null (reading 'deliveryFee')")
        else if ¬ (s.get "deliveryFee").hasText then .error .noPrimitive
        else return (s.get "deliveryFee").toNumber.orElse 2000

end PublicController

end ChickenOrder
