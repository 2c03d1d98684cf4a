import ChickenOrder.Values.JsNumber
import ChickenOrder.Interaction.Noninterference

/-!
# `AuthController`

One-time passwords for phone numbers.  The codes are in a map of the process, which the two
handlers and a timer change; each of them runs without interruption up to the point where the
SMS is sent, and nothing is read or written after it.

`moves_step` says once what an event does to the map.

A code is good for three minutes, five comparisons and one match.  All of this is kept under the
phone, as its digits; two spellings of a number are one phone.  `log_filter` says that phones do
not interfere, so that statements about one phone need only its own events.
-/

namespace ChickenOrder

open Interaction

/-- What the process keeps of a code it has sent.  The number of attempts belongs to the code, not
to the phone. -/
structure OtpRecord where
  code : String
  expiresAt : ℤ
  attempts : ℕ
  lastSentAt : ℤ

/-- `otpStore`, a map in the memory of the process. -/
abbrev OtpStore := String → Option OtpRecord

namespace OtpStore

/-- `otpStore.set(phone, rec)`, and `otpStore.delete(phone)` for no record. -/
def put (otpStore : OtpStore) (phone : String) (rec? : Option OtpRecord) : OtpStore :=
  Function.update otpStore phone rec?

variable (otpStore : OtpStore) {phone p : String} (rec? : Option OtpRecord)

@[simp] theorem put_self : otpStore.put phone rec? phone = rec? := Function.update_self ..

theorem put_of_ne (h : p ≠ phone) : otpStore.put phone rec? p = otpStore p :=
  Function.update_of_ne h ..

@[simp] theorem put_same : otpStore.put phone (otpStore phone) = otpStore :=
  Function.update_eq_self ..

end OtpStore

/-- What happens at a time: a call of a handler, where `Math.floor(Math.random() * 900_000)`
gives `draw`, or the timer. -/
inductive OtpEvent
  | sendPhoneOtp (body : JsValue) (draw : Fin 900000) (now : ℤ)
  | verifyPhoneOtp (body : JsValue) (now : ℤ)
  | cleanup (now : ℤ)

/-- What comes of an event.  A code is sent to a phone, and a submitted code is compared with a
stored one.  A body that has no text where a handler reads one is `unreadable`: the handler throws. -/
inductive OtpOutcome
  | invalidPhone
  | coolingDown (remain : ℤ)
  | lockedOut
  | sent (phone code : String)
  | incomplete
  | noCode
  | expired
  | exceeded
  | compared (phone stored submitted : String) (left : ℤ)
  | cleaned
  | unreadable

/-- The time of the event. -/
def OtpEvent.now : OtpEvent → ℤ
  | .sendPhoneOtp _ _ now => now
  | .verifyPhoneOtp _ now => now
  | .cleanup now => now

/-- Neither was a code sent nor one compared. -/
def OtpOutcome.isQuiet : OtpOutcome → Bool
  | .sent _ _ => false
  | .compared _ _ _ _ => false
  | _ => true

/-- The reply's `message`. -/
def OtpOutcome.message : OtpOutcome → String
  | .invalidPhone => "올바른 전화번호 형식이 아닙니다."
  | .coolingDown remain => toString remain ++ "초 후에 다시 시도하세요."
  | .lockedOut => "인증 시도 횟수를 초과했습니다. 3분 후 다시 시도하세요."
  | .sent _ _ => "인증번호가 발송되었습니다."
  | .incomplete => "전화번호와 인증번호를 입력해 주세요."
  | .noCode => "인증번호를 먼저 발송해 주세요."
  | .expired => "인증번호가 만료되었습니다. 다시 발송해 주세요."
  | .exceeded => "인증 시도 횟수를 초과했습니다."
  | .compared _ stored submitted left =>
      if stored = submitted then "인증이 완료되었습니다."
      else "인증번호가 일치하지 않습니다. (" ++ toString left ++ "회 남음)"
  | .cleaned => ""
  | .unreadable => "Internal server error"

namespace AuthController

/-! ## The handlers -/

/-- What the body has for a phone. -/
def phoneValue (body : JsValue) : JsValue := (body.get "phone").coalesce (.string "")

/-- `phone`: the digits of what the body has for it.  There are none where that has no text, on
which the handlers throw before they ask for the phone. -/
def phone (body : JsValue) : String :=
  if (phoneValue body).hasText then
    String.ofList <| (phoneValue body).toText.toList.filter Char.isDigit
  else ""

/-- `/^01[0-9]{8,9}$/`, on digits: the phone has been stripped of everything else before. -/
def isMobile (phone : String) : Bool :=
  match phone.toList with
  | '0' :: '1' :: rest => rest.length = 8 || rest.length = 9
  | _ => false

/-- What it has for a code. -/
def codeValue (body : JsValue) : JsValue := (body.get "code").coalesce (.string "")

/-- `code`, as submitted, without the white space around it. -/
def submittedCode (body : JsValue) : String :=
  String.ofList <| JsNumber.trim (codeValue body).toText.toList

/-- `code`, as generated: six digits, the first of which is no zero. -/
def generatedCode (draw : Fin 900000) : String := toString (100000 + draw.val)

theorem hasText_of_isMobile {body : JsValue} (h : isMobile (phone body) = true) :
    (phoneValue body).hasText = true := by
  by_contra htext
  rw [phone, if_neg htext] at h
  cases h

/-- A new code for a phone.  Whatever was stored for it is replaced, and with it the number of
attempts. -/
def issue (phone : String) (draw : Fin 900000) (now : ℤ) (otpStore : OtpStore) :
    OtpOutcome × OtpStore :=
  (.sent phone (generatedCode draw),
    otpStore.put phone (some ⟨generatedCode draw, now + 3 * 60000, 0, now⟩))

/-- A new code, unless the phone is none, its last code is less than a minute old, or that code has
been missed five times and is still valid. -/
def sendPhoneOtp (body : JsValue) (draw : Fin 900000) (now : ℤ) (otpStore : OtpStore) :
    OtpOutcome × OtpStore :=
  if ¬ (phoneValue body).hasText then (.unreadable, otpStore)
  else if isMobile (phone body) then
    match otpStore (phone body) with
    | none => issue (phone body) draw now otpStore
    | some existing =>
        if now - existing.lastSentAt < 60000 then
          -- rounded up to whole seconds
          (.coolingDown ((60000 - (now - existing.lastSentAt) + 999) / 1000), otpStore)
        else if existing.expiresAt > now ∧ existing.attempts ≥ 5 then (.lockedOut, otpStore)
        else issue (phone body) draw now otpStore
  else (.invalidPhone, otpStore)

/-- The submitted code against the stored one.  A comparison counts as an attempt before it is made;
a code is gone once it has been matched or found expired. -/
def verifyPhoneOtp (body : JsValue) (now : ℤ) (otpStore : OtpStore) : OtpOutcome × OtpStore :=
  if ¬ (phoneValue body).hasText ∨ ¬ (codeValue body).hasText then (.unreadable, otpStore)
  else if phone body = "" ∨ submittedCode body = "" then (.incomplete, otpStore)
  else
    match otpStore (phone body) with
    | none => (.noCode, otpStore)
    | some rec =>
        if now > rec.expiresAt then (.expired, otpStore.put (phone body) none)
        else if rec.attempts ≥ 5 then (.exceeded, otpStore)
        else
          (.compared (phone body) rec.code (submittedCode body) (5 - (rec.attempts + 1)),
            otpStore.put (phone body)
              (if rec.code = submittedCode body then none
                else some { rec with attempts := rec.attempts + 1 }))

/-- The timer.  It drops the codes that have expired, which the handlers would not accept anyway. -/
def cleanup (now : ℤ) (otpStore : OtpStore) : OtpOutcome × OtpStore :=
  (.cleaned, fun phone => (otpStore phone).filter fun rec => !decide (rec.expiresAt < now))

/-- The handler of an event. -/
def step : OtpEvent → OtpStore → OtpOutcome × OtpStore
  | .sendPhoneOtp body draw now => sendPhoneOtp body draw now
  | .verifyPhoneOtp body now => verifyPhoneOtp body now
  | .cleanup now => cleanup now

/-- What happened, and what came of it, in order. -/
abbrev Log := List (OtpEvent × OtpOutcome)

/-- The log of a process that starts with these events.  It starts without codes, as they are not
stored anywhere else. -/
def log (events : List OtpEvent) : Log := transcript step events fun _ => none

/-! ## What an event does to the codes -/

/-- What an event at a time makes of the stored codes: a phone gets a new code, a stored code is
compared with, or some expired codes are gone. -/
inductive Moves (otpStore : OtpStore) (now : ℤ) : OtpOutcome → OtpStore → Prop
  | sent (phone code : String)
      (h : ∀ existing, otpStore phone = some existing →
        60000 ≤ now - existing.lastSentAt ∧ (5 ≤ existing.attempts → existing.expiresAt ≤ now)) :
      Moves otpStore now (.sent phone code)
        (otpStore.put phone (some ⟨code, now + 3 * 60000, 0, now⟩))
  | compared (phone submitted : String) (rec : OtpRecord) (hrec : otpStore phone = some rec)
      (hexpiry : now ≤ rec.expiresAt) (hattempts : rec.attempts < 5) :
      Moves otpStore now (.compared phone rec.code submitted (5 - (rec.attempts + 1)))
        (otpStore.put phone
          (if rec.code = submitted then none else some { rec with attempts := rec.attempts + 1 }))
  | other (outcome : OtpOutcome) (otpStore' : OtpStore)
      (hquiet : outcome.isQuiet = true)
      (h : ∀ phone, otpStore' phone = otpStore phone ∨
        otpStore' phone = none ∧ ∃ rec, otpStore phone = some rec ∧ rec.expiresAt < now) :
      Moves otpStore now outcome otpStore'

theorem Moves.unchanged {otpStore : OtpStore} {now : ℤ} {outcome : OtpOutcome}
    (h : outcome.isQuiet = true) : Moves otpStore now outcome otpStore :=
  .other outcome otpStore h fun _ => .inl rfl

/-- A request for a code sends one, or changes nothing. -/
theorem moves_sendPhoneOtp {body : JsValue} {draw : Fin 900000} {now : ℤ}
    {otpStore otpStore' : OtpStore} {outcome : OtpOutcome}
    (h : sendPhoneOtp body draw now otpStore = (outcome, otpStore')) :
    Moves otpStore now outcome otpStore' := by
  unfold sendPhoneOtp issue at h
  split at h
  · cases h
    exact .unchanged rfl
  split at h
  · split at h
    · rename_i hnone
      cases h
      refine .sent _ _ fun existing hexisting => ?_
      rw [hnone] at hexisting
      cases hexisting
    · rename_i existing hexisting
      split at h
      · cases h
        exact .unchanged rfl
      · rename_i hcool
        split at h
        · cases h
          exact .unchanged rfl
        · rename_i hlock
          cases h
          refine .sent _ _ fun existing' hexisting' => ?_
          obtain rfl : existing = existing' := Option.some.inj (hexisting.symm.trans hexisting')
          refine ⟨by omega, fun hattempts => ?_⟩
          by_contra hlive
          exact hlock ⟨by omega, hattempts⟩
  · cases h
    exact .unchanged rfl

/-- A submitted code is compared, or a code that has expired is dropped, or nothing changes. -/
theorem moves_verifyPhoneOtp {body : JsValue} {now : ℤ} {otpStore otpStore' : OtpStore}
    {outcome : OtpOutcome} (h : verifyPhoneOtp body now otpStore = (outcome, otpStore')) :
    Moves otpStore now outcome otpStore' := by
  unfold verifyPhoneOtp at h
  split at h
  · cases h
    exact .unchanged rfl
  split at h
  · cases h
    exact .unchanged rfl
  · split at h
    · cases h
      exact .unchanged rfl
    · rename_i rec hrec
      split at h
      · rename_i hexpired
        cases h
        refine .other _ _ rfl fun p => ?_
        by_cases hp : p = phone body
        · subst hp
          exact .inr ⟨otpStore.put_self _, rec, hrec, hexpired⟩
        · exact .inl (otpStore.put_of_ne _ hp)
      · split at h
        · cases h
          exact .unchanged rfl
        · cases h
          exact .compared _ _ rec hrec (by omega) (by omega)

theorem moves_cleanup {now : ℤ} {otpStore otpStore' : OtpStore} {outcome : OtpOutcome}
    (h : cleanup now otpStore = (outcome, otpStore')) : Moves otpStore now outcome otpStore' := by
  cases h
  refine .other _ _ rfl fun phone => ?_
  cases hrec : otpStore phone with
  | none => exact .inl (by simp)
  | some rec =>
      by_cases hexpired : rec.expiresAt < now
      · exact .inr ⟨by simp [hexpired], rec, rfl, hexpired⟩
      · exact .inl (by simp [hexpired])

/-- **Everything an event does to the codes.** Later proofs only use this, and not the handlers. -/
theorem moves_step (event : OtpEvent) (otpStore : OtpStore) :
    Moves otpStore event.now (step event otpStore).1 (step event otpStore).2 := by
  cases event with
  | sendPhoneOtp body draw now =>
      rw [step]
      exact moves_sendPhoneOtp Prod.mk.eta.symm
  | verifyPhoneOtp body now =>
      rw [step]
      exact moves_verifyPhoneOtp Prod.mk.eta.symm
  | cleanup now =>
      rw [step]
      exact moves_cleanup Prod.mk.eta.symm

/-! ## The phones apart -/

/-- The event is for the phone; the timer is for all of them, and so concerns each. -/
def concerns (p : String) : OtpEvent → Bool
  | .sendPhoneOtp body _ _ => phone body = p
  | .verifyPhoneOtp body _ => phone body = p
  | .cleanup _ => true

/-- An action that reads and writes the code of one phone.  What it does there, `f`, does not see
the rest of the map. -/
def Local (p : String) (action : OtpStore → OtpOutcome × OtpStore) : Prop :=
  ∃ f : Option OtpRecord → OtpOutcome × Option OtpRecord,
    ∀ otpStore, action otpStore = ((f (otpStore p)).1, otpStore.put p (f (otpStore p)).2)

section Local

variable {p : String} {action : OtpStore → OtpOutcome × OtpStore} {s s' : OtpStore}

/-- Such an action leaves the codes of other phones. -/
theorem Local.other (h : Local p action) {q : String} (hq : q ≠ p) : (action s).2 q = s q := by
  obtain ⟨f, hf⟩ := h
  rw [hf]
  exact s.put_of_ne _ hq

/-- Its outcome depends on the code of the one phone only. -/
theorem Local.outcome (h : Local p action) (hs : s p = s' p) : (action s).1 = (action s').1 := by
  obtain ⟨f, hf⟩ := h
  rw [hf, hf, hs]

theorem Local.same (h : Local p action) (hs : s p = s' p) : (action s).2 p = (action s').2 p := by
  obtain ⟨f, hf⟩ := h
  simp only [hf, OtpStore.put_self, hs]

end Local

/-- A request for a code is about its phone only. -/
theorem local_sendPhoneOtp (body : JsValue) (draw : Fin 900000) (now : ℤ) :
    Local (phone body) (sendPhoneOtp body draw now) := by
  refine ⟨fun existing? => ((sendPhoneOtp body draw now fun _ => existing?).1,
    (sendPhoneOtp body draw now fun _ => existing?).2 (phone body)), fun otpStore => ?_⟩
  unfold sendPhoneOtp issue
  by_cases htext : (phoneValue body).hasText = true
  swap
  · simp [htext]
  by_cases hmobile : isMobile (phone body) = true
  · simp only [if_neg (not_not_intro htext), if_pos hmobile]
    cases hexisting : otpStore (phone body) with
    | none => simp
    | some existing =>
        by_cases hcool : now - existing.lastSentAt < 60000
        · simp [hcool, ← hexisting]
        · by_cases hlock : existing.expiresAt > now ∧ existing.attempts ≥ 5
          · simp [hcool, hlock, ← hexisting]
          · simp [hcool, hlock]
  · simp [htext, hmobile]

theorem local_verifyPhoneOtp (body : JsValue) (now : ℤ) :
    Local (phone body) (verifyPhoneOtp body now) := by
  refine ⟨fun rec? => ((verifyPhoneOtp body now fun _ => rec?).1,
    (verifyPhoneOtp body now fun _ => rec?).2 (phone body)), fun otpStore => ?_⟩
  unfold verifyPhoneOtp
  by_cases htext : ¬ (phoneValue body).hasText ∨ ¬ (codeValue body).hasText
  · simp only [if_pos htext, OtpStore.put_same]
  simp only [if_neg htext]
  by_cases hmissing : phone body = "" ∨ submittedCode body = ""
  · simp [hmissing]
  · simp only [if_neg hmissing]
    cases hrec : otpStore (phone body) with
    | none => simp [← hrec]
    | some rec =>
        by_cases hexpired : now > rec.expiresAt
        · simp [hexpired]
        · by_cases hexceeded : rec.attempts ≥ 5
          · simp [hexpired, hexceeded, ← hrec]
          · simp [hexpired, hexceeded]

/-- An event for one phone depends on that phone's code only, and changes no other. -/
theorem unwinding_step (p : String) :
    Unwinding step (fun event _ => concerns p event) (fun s s' => s p = s' p) where
  seen := fun _ => rfl
  hidden := by
    intro event s s' hhidden hs
    rw [← hs]
    cases event with
    | sendPhoneOtp body draw now =>
        rw [step]
        exact (local_sendPhoneOtp body draw now).other (Ne.symm (of_decide_eq_false hhidden))
    | verifyPhoneOtp body now =>
        rw [step]
        exact (local_verifyPhoneOtp body now).other (Ne.symm (of_decide_eq_false hhidden))
    | cleanup now => cases hhidden
  output := by
    intro event s s' hvisible hs
    cases event with
    | sendPhoneOtp body draw now =>
        cases of_decide_eq_true hvisible
        rw [step]
        exact (local_sendPhoneOtp body draw now).outcome hs
    | verifyPhoneOtp body now =>
        cases of_decide_eq_true hvisible
        rw [step]
        exact (local_verifyPhoneOtp body now).outcome hs
    | cleanup now => rfl
  kept := by
    intro event s s' hvisible hs
    cases event with
    | sendPhoneOtp body draw now =>
        cases of_decide_eq_true hvisible
        rw [step]
        exact (local_sendPhoneOtp body draw now).same hs
    | verifyPhoneOtp body now =>
        cases of_decide_eq_true hvisible
        rw [step]
        exact (local_verifyPhoneOtp body now).same hs
    | cleanup now => simp only [step, cleanup, hs]

/-- **The phones do not interfere.**  What a log has on a phone is the log of the events for
that phone. -/
theorem log_filter (p : String) (events : List OtpEvent) :
    (log events).filter (fun entry => concerns p entry.1) = log (events.filter (concerns p)) :=
  (unwinding_step p).transcript_filter events rfl

end AuthController

end ChickenOrder
