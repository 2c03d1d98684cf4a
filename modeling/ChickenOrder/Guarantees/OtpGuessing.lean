import ChickenOrder.Guarantees.OtpLifecycle
import ChickenOrder.Values.NumberText

/-!
# How often a phone's code can be guessed

Each code may be missed five times, and the count starts again with the next code.  The wrong
codes of any three minutes are at most five as long as no code follows a wrong one within three
minutes; as soon as one does, five more guesses are free.

`Bounded` is the invariant of a paced run and says why there are five: all wrong codes of a
window are in one book.  The other direction constructs a continuation, five guesses in a row at
the moment of the early code.
-/

namespace ChickenOrder

open Interaction

namespace AuthController

/-- The entry is in the three minutes from `w`. -/
def InWindow (w : ℤ) (entry : Entry) : Prop := w ≤ entry.1.now ∧ entry.1.now ≤ w + 180000

instance (w : ℤ) (entry : Entry) : Decidable (InWindow w entry) :=
  inferInstanceAs (Decidable (_ ∧ _))

/-- How many wrong codes are compared with the phone's code in the three minutes from `w`.  A guess
that is refused without a comparison is none. -/
def wrongIn (p : String) (w : ℤ) (log : Log) : ℕ :=
  log.countP fun entry => Fails p entry && decide (InWindow w entry)

/-- A request for a code is not turned away: the phone has no code, or its code is a minute old
and either over or not yet missed five times. -/
def Issuable (otpStore : OtpStore) (phone : String) (now : ℤ) : Prop :=
  ∀ existing, otpStore phone = some existing →
    60000 ≤ now - existing.lastSentAt ∧ (5 ≤ existing.attempts → existing.expiresAt ≤ now)

/-- The stored codes after a run. -/
def stored (events : List OtpEvent) : OtpStore := final step events fun _ => none

/-- Where a code is requested for the phone and not turned away, its last wrong code is more than
three minutes old. -/
def Paced (p : String) (events : List OtpEvent) : Prop :=
  ∀ before body draw now after, events = before ++ .sendPhoneOtp body draw now :: after →
    phone body = p → isMobile p = true → Issuable (stored before) p now →
    ∀ e ∈ log before, Fails p e = true → e.1.now + 180000 < now

/-! ## Sending a code -/

section Send

variable {body : JsValue} {draw : Fin 900000} {now : ℤ} {s : OtpStore}

/-- A request that is not turned away. -/
theorem sendPhoneOtp_of_issuable (hmobile : isMobile (phone body) = true)
    (h : Issuable s (phone body) now) :
    sendPhoneOtp body draw now s = issue (phone body) draw now s := by
  unfold sendPhoneOtp
  rw [if_neg (not_not_intro (hasText_of_isMobile hmobile)), if_pos hmobile]
  split
  · rfl
  · rename_i existing hexisting
    obtain ⟨hcool, hlock⟩ := h existing hexisting
    rw [if_neg (by omega), if_neg (by omega)]

/-- A code is sent only if the request is not turned away. -/
theorem issuable_of_sent {event : OtpEvent} {p code : String}
    (h : (step event s).1 = .sent p code) :
    ∃ body draw now, event = .sendPhoneOtp body draw now ∧ phone body = p ∧ isMobile p = true ∧
      Issuable s p now := by
  have hmoves := moves_step event s
  rw [h] at hmoves
  generalize (step event s).2 = s' at hmoves
  -- only `sendPhoneOtp` answers so, and only behind its check of the number
  cases hmoves with
  | other _ _ hquiet _ => cases hquiet
  | sent _ _ hfree =>
      cases event with
      | sendPhoneOtp body draw now =>
          rw [step] at h
          unfold sendPhoneOtp issue at h
          refine ⟨body, draw, now, rfl, ?_⟩
          split at h
          · cases h
          split at h
          · rename_i hmobile
            have hphone : phone body = p := by
              repeat' split at h
              all_goals first
                | cases h
                  done
                | cases h
                  rfl
            exact ⟨hphone, hphone ▸ hmobile, hfree⟩
          · cases h
      | verifyPhoneOtp body now =>
          rw [step] at h
          unfold verifyPhoneOtp at h
          repeat' split at h
          all_goals cases h
      | cleanup now => cases h

end Send

/-! ## Three minutes -/

/-- The number of wrong codes in a phone's book, that is since the code last sent. -/
def failures (p : String) (log : Log) : ℕ :=
  match account p log with
  | none => 0
  | some a => a.failures

section Windows

variable {p : String} {w : ℤ} {earlier : Log} {entry : Entry}

/-- One more entry counts if it is a wrong code in the window. -/
theorem wrongIn_concat : wrongIn p w (earlier ++ [entry]) =
    wrongIn p w earlier + if Fails p entry && decide (InWindow w entry) then 1 else 0 := by
  unfold wrongIn
  rw [List.countP_append, List.countP_singleton]

/-- An entry that neither misses nor issues a code of the phone leaves the count of its book. -/
theorem failures_concat_of_other (hfails : Fails p entry = false) (hissues : Issues p entry = false) :
    failures p (earlier ++ [entry]) = failures p earlier := by
  unfold failures
  rw [account_concat]
  obtain ⟨event, outcome⟩ := entry
  cases outcome with
  | sent phone code =>
      have hphone : phone ≠ p := of_decide_eq_false hissues
      simp [Account.next, hphone]
  | compared phone stored submitted left =>
      by_cases hphone : phone = p
      · have hright : stored = submitted := by simpa [Fails, hphone] using hfails
        cases account p earlier with
        | none => simp [Account.next]
        | some a => simp [Account.next, hphone, hright]
      · simp [Account.next, hphone]
  | _ => rfl

/-- A wrong code is counted, once there is a book. -/
theorem failures_concat_of_fails (hfails : Fails p entry = true) {a : Account}
    (ha : account p earlier = some a) :
    failures p (earlier ++ [entry]) = failures p earlier + 1 := by
  unfold failures
  rw [account_concat, ha]
  obtain ⟨event, outcome⟩ := entry
  cases outcome with
  | compared phone stored submitted left =>
      obtain ⟨hphone, hwrong⟩ : phone = p ∧ stored ≠ submitted := by simpa [Fails] using hfails
      simp [Account.next, hphone, hwrong]
  | _ => cases hfails

/-- The wrong codes of three minutes are in one book, or the three minutes are over.  A book never
counts more than five. -/
structure Bounded (p : String) (w : ℤ) (log : Log) : Prop where
  le_five : wrongIn p w log ≤ 5
  recent : wrongIn p w log ≤ failures p log ∨ ∃ e ∈ log, w + 180000 < e.1.now

variable {events : List OtpEvent} {later : Log}

theorem failures_le_five (h : log events = earlier ++ later) : failures p earlier ≤ 5 := by
  unfold failures
  cases ha : account p earlier with
  | none => exact Nat.zero_le _
  | some a =>
      have hbounds := account_bounds h ha
      show a.failures ≤ 5
      omega

/-- A wrong code. -/
theorem Bounded.fails (h : Bounded p w earlier) (hlog : log events = earlier ++ entry :: later)
    (hordered : (log events).Ordered) (hfails : Fails p entry = true) :
    Bounded p w (earlier ++ [entry]) := by
  have hcompares : Compares p entry = true := by
    obtain ⟨event, outcome⟩ := entry
    cases outcome with
    | compared phone stored submitted left =>
        have hboth : phone = p ∧ stored ≠ submitted := by simpa [Fails] using hfails
        exact decide_eq_true hboth.1
    | _ => cases hfails
  obtain ⟨stored, submitted, left, hentry⟩ := compares_eq_true hcompares
  obtain ⟨issuedAt, missed, haccount, -⟩ := account_of_compared hlog hentry
  -- a wrong code counts once for its issue, which allows five
  have hsucc := failures_concat_of_fails hfails haccount
  have hsplit : log events = (earlier ++ [entry]) ++ later := by
    rw [hlog]
    simp
  have hfive := failures_le_five (p := p) hsplit
  have hone : wrongIn p w (earlier ++ [entry]) ≤ wrongIn p w earlier + 1 := by
    rw [wrongIn_concat]
    split <;> omega
  rcases h.recent with hle | ⟨e, he, hover⟩
  · exact ⟨by omega, .inl (by omega)⟩
  · -- the entry is behind the window
    have hlate : e.1.now ≤ entry.1.now := Log.Ordered.le (hlog ▸ hordered) he
    have hsame : wrongIn p w (earlier ++ [entry]) = wrongIn p w earlier := by
      rw [wrongIn_concat, hfails, decide_eq_false (fun hin : InWindow w entry => by
        have := hin.2
        omega)]
      rfl
    exact ⟨hsame ▸ h.le_five, .inr ⟨e, List.mem_append_left _ he, hover⟩⟩

/-- Anything else. -/
theorem Bounded.other (h : Bounded p w earlier) (hfails : Fails p entry = false)
    (hpaced : Issues p entry = true → ∀ e ∈ earlier, Fails p e = true →
      e.1.now + 180000 < entry.1.now) : Bounded p w (earlier ++ [entry]) := by
  have hsame : wrongIn p w (earlier ++ [entry]) = wrongIn p w earlier := by
    rw [wrongIn_concat, hfails]
    rfl
  refine ⟨hsame ▸ h.le_five, ?_⟩
  rw [hsame]
  by_cases hissues : Issues p entry = true
  · -- the wrong codes before it are out of the window, if there are any in it
    by_cases hnone : wrongIn p w earlier = 0
    · exact .inl (hnone ▸ Nat.zero_le _)
    · obtain ⟨e, he, hwrong⟩ := List.countP_pos_iff.mp (Nat.pos_of_ne_zero hnone)
      obtain ⟨hwrong, hin⟩ := Bool.and_eq_true_iff.mp hwrong
      have hold := hpaced hissues e he hwrong
      have hfrom := (of_decide_eq_true hin).1
      exact .inr ⟨entry, by simp, by omega⟩
  · rcases h.recent with hle | ⟨e, he, hover⟩
    · rw [failures_concat_of_other hfails ((Bool.not_eq_true _).mp hissues)]
      exact .inl hle
    · exact .inr ⟨e, List.mem_append_left _ he, hover⟩

/-- In a paced run the wrong codes of any three minutes stay within one book: a new code starts a
new book only when the last wrong code has left every window. -/
theorem bounded_of_paced (hordered : (log events).Ordered) (hpaced : Paced p events) (w : ℤ)
    (hlog : log events = earlier ++ later) : Bounded p w earlier := by
  induction earlier using List.reverseRecOn generalizing later with
  | nil => exact ⟨Nat.zero_le _, .inl (Nat.zero_le _)⟩
  | append_singleton earlier entry ih =>
      rw [List.append_assoc] at hlog
      have hbefore := ih hlog
      by_cases hfails : Fails p entry = true
      · exact hbefore.fails hlog hordered hfails
      · refine hbefore.other ((Bool.not_eq_true _).mp hfails) fun hissues => ?_
        obtain ⟨code, hcode⟩ := issues_eq_true hissues
        rw [transcript_eq_append_cons step hlog] at hcode
        obtain ⟨body, draw, now, hevent, hphone, hmobile, hissuable⟩ := issuable_of_sent hcode
        have hevents : events = earlier.map Prod.fst ++ entry.1 :: later.map Prod.fst := by
          rw [← transcript_map_fst step events fun _ => none]
          show (log events).map Prod.fst = _
          rw [hlog]
          simp
        have hold := hpaced _ body draw now _ (hevent ▸ hevents) hphone hmobile hissuable
        have hearlier : log (earlier.map Prod.fst) = earlier := transcript_eq_append step hlog
        rw [hearlier] at hold
        rw [hevent]
        exact hold

end Windows

/-! ## Guessing on -/

section Guesses

/-- A guess that is wrong, since every code has six digits. -/
def guess (p : String) (now : ℤ) : OtpEvent :=
  .verifyPhoneOtp (.object [("phone", .string p), ("code", .string "0")]) now

variable {p : String} {now : ℤ} {s : OtpStore} {rec : OtpRecord}

theorem generatedCode_ne (draw : Fin 900000) : generatedCode draw ≠ "0" := by
  intro h
  have hdigits : Nat.toDigits 10 (100000 + draw.val) = Nat.toDigits 10 0 := by
    rw [← Nat.toList_repr, ← Nat.toList_repr]
    exact congrArg String.toList h
  have hread := Decimal.readDigits_toDigits_nil (100000 + draw.val)
  rw [hdigits, Decimal.readDigits_toDigits_nil, Prod.mk.injEq] at hread
  omega

/-- What is left of a text of digits when only its digits are kept. -/
theorem phone_phone (body : JsValue) (code : String) :
    phone (.object [("phone", .string (phone body)), ("code", .string code)]) = phone body := by
  have hvalue : phoneValue (.object [("phone", .string (phone body)), ("code", .string code)]) =
      .string (phone body) := by
    simp [phoneValue, JsValue.get, JsValue.coalesce, JsValue.isNullish]
  have hdigits : (phone body).toList.filter Char.isDigit = (phone body).toList := by
    unfold phone
    split <;> simp
  rw [phone, hvalue]
  simp only [JsValue.hasText, if_true, JsValue.toText, hdigits, String.ofList_toList]

theorem codeValue_guess :
    codeValue (.object [("phone", .string p), ("code", .string "0")]) = .string "0" := by
  simp [codeValue, JsValue.get, List.lookup_cons, JsValue.coalesce, JsValue.isNullish]

theorem submittedCode_guess :
    submittedCode (.object [("phone", .string p), ("code", .string "0")]) = "0" := by
  rw [submittedCode, codeValue_guess]
  decide

/-- A guess while attempts are left. -/
theorem step_guess {body : JsValue} (hphone : phone body = p) (hne : p ≠ "") (hrec : s p = some rec)
    (hexpiry : now ≤ rec.expiresAt) (hattempts : rec.attempts < 5) (hcode : rec.code ≠ "0") :
    step (guess p now) s = (.compared p rec.code "0" (5 - (rec.attempts + 1)),
      s.put p (some { rec with attempts := rec.attempts + 1 })) := by
  have hguess : phone (.object [("phone", .string p), ("code", .string "0")]) = p := by
    rw [← hphone]
    exact phone_phone body "0"
  have htext : ¬ (¬ (phoneValue (.object [("phone", .string p), ("code", .string "0")])).hasText ∨
      ¬ (codeValue (.object [("phone", .string p), ("code", .string "0")])).hasText) := by
    rw [codeValue_guess]
    simp [phoneValue, JsValue.get, JsValue.coalesce, JsValue.isNullish, JsValue.hasText]
  rw [guess, step, verifyPhoneOtp, if_neg htext, hguess, submittedCode_guess, if_neg (by simp [hne])]
  simp only [hrec]
  rw [if_neg (by omega), if_neg (by omega), if_neg hcode]

/-- As many guesses as there are attempts left are all compared. -/
theorem wrongIn_guesses {body : JsValue} (hphone : phone body = p) (hne : p ≠ "") {w : ℤ}
    (hw : w ≤ now ∧ now ≤ w + 180000) (k : ℕ) (hrec : s p = some rec) (hexpiry : now ≤ rec.expiresAt)
    (hattempts : rec.attempts + k ≤ 5) (hcode : rec.code ≠ "0") :
    wrongIn p w (transcript step (List.replicate k (guess p now)) s) = k := by
  induction k generalizing s rec with
  | zero => rfl
  | succ k ih =>
      have hstep : step (guess p now) s = _ := step_guess hphone hne hrec hexpiry (by omega) hcode
      have hattempted : (step (guess p now) s).2 p =
          some { rec with attempts := rec.attempts + 1 } := by
        rw [hstep]
        exact s.put_self _
      have hleft : rec.attempts + 1 + k ≤ 5 := by omega
      have hrest := ih hattempted hexpiry hleft hcode
      rw [List.replicate_succ, transcript, wrongIn, List.countP_cons]
      rw [wrongIn] at hrest
      rw [hrest, hstep]
      simp [Fails, InWindow, guess, OtpEvent.now, hcode, hw]

theorem wrongIn_append {w : ℤ} (earlier later : Log) :
    wrongIn p w (earlier ++ later) = wrongIn p w earlier + wrongIn p w later := List.countP_append

theorem ne_empty_of_isMobile (h : isMobile p = true) : p ≠ "" := by
  rintro rfl
  cases h

/-- **A code that follows a wrong one within three minutes** allows for more than five wrong codes
in three minutes: its own five, and the one before it. -/
theorem exceeds_of_early_code {before : List OtpEvent} {body : JsValue} {draw : Fin 900000}
    (hordered : InOrder (before ++ [.sendPhoneOtp body draw now]))
    (hmobile : isMobile (phone body) = true) (hissuable : Issuable (stored before) (phone body) now)
    {e : Entry} (he : e ∈ log before) (hfails : Fails (phone body) e = true)
    (hearly : now ≤ e.1.now + 180000) :
    InOrder (before ++ [.sendPhoneOtp body draw now] ++ List.replicate 5 (guess (phone body) now)) ∧
      5 < wrongIn (phone body) e.1.now
        (log (before ++ [.sendPhoneOtp body draw now] ++ List.replicate 5 (guess (phone body) now))) := by
  -- nothing before is later than the guesses, which are all made at once
  have hbefore : ∀ d ∈ before ++ [.sendPhoneOtp body draw now], d.now ≤ now := by
    intro d hd
    rcases List.mem_append.mp hd with hd | hd
    · exact (List.pairwise_append.mp hordered).2.2 d hd _ (List.mem_singleton_self _)
    · rw [List.mem_singleton.mp hd]
      exact Int.le_refl _
  constructor
  · refine List.pairwise_append.mpr ⟨hordered, ?_, fun d hd g hg => ?_⟩
    · exact List.pairwise_replicate.mpr (.inr (Int.le_refl _))
    · rw [(List.mem_replicate.mp hg).2]
      exact hbefore d hd
  · -- the wrong code before, and five with the new code
    -- the log of the whole run is that of the past, the new code, and the guesses
    have hlog : log (before ++ [.sendPhoneOtp body draw now] ++
        List.replicate 5 (guess (phone body) now)) =
        log before ++ ([(.sendPhoneOtp body draw now, .sent (phone body) (generatedCode draw))] ++
          transcript step (List.replicate 5 (guess (phone body) now))
            ((stored before).put (phone body)
              (some ⟨generatedCode draw, now + 3 * 60000, 0, now⟩))) := by
      have hstep : step (.sendPhoneOtp body draw now) (stored before) =
          (.sent (phone body) (generatedCode draw), (stored before).put (phone body)
            (some ⟨generatedCode draw, now + 3 * 60000, 0, now⟩)) := by
        rw [step, sendPhoneOtp_of_issuable hmobile hissuable, issue]
      have hfinal : final step before (fun _ => none) = stored before := rfl
      rw [log, transcript_append, transcript_append, final_append, hfinal, List.append_assoc,
        final_cons, final_nil, transcript, transcript, hstep]
      rfl
    -- the window starts at the old wrong code and still contains `now`
    have hold : 0 < wrongIn (phone body) e.1.now (log before) := by
      have hevent : e.1 ∈ before := by
        rw [← transcript_map_fst step before fun _ => none]
        exact List.mem_map_of_mem he
      have hin : InWindow e.1.now e := ⟨Int.le_refl _, by omega⟩
      exact List.countP_pos_iff.mpr ⟨e, he, by simp [hfails, hin]⟩
    have hnow : e.1.now ≤ now := by
      refine hbefore e.1 (List.mem_append_left _ ?_)
      rw [← transcript_map_fst step before fun _ => none]
      exact List.mem_map_of_mem he
    have hnew : wrongIn (phone body) e.1.now
        (transcript step (List.replicate 5 (guess (phone body) now))
          ((stored before).put (phone body)
            (some ⟨generatedCode draw, now + 3 * 60000, 0, now⟩))) = 5 :=
      wrongIn_guesses rfl (ne_empty_of_isMobile hmobile) ⟨hnow, hearly⟩ 5
        (OtpStore.put_self _ _) (by show now ≤ now + 3 * 60000; omega) (by simp)
        (generatedCode_ne draw)
    rw [hlog, wrongIn_append, wrongIn_append, hnew]
    omega

end Guesses

/-- **How often a phone's code can be guessed.**  In every run with non-decreasing times in which
no code follows a wrong one within three minutes, at most five wrong codes are compared in any
three minutes.  A run in which one does could have been continued with five guesses from that
code on, to more than five in three minutes. -/
theorem guessing_bounded (p : String) :
    (∀ events : List OtpEvent, InOrder events → Paced p events →
      ∀ w, wrongIn p w (log events) ≤ 5) ∧
    ∀ events : List OtpEvent, InOrder events → ¬ Paced p events →
      ∃ before now, before <+: events ∧
        InOrder (before ++ List.replicate 5 (guess p now)) ∧
        ∃ w, 5 < wrongIn p w (log (before ++ List.replicate 5 (guess p now))) := by
  constructor
  · intro events hordered hpaced w
    exact (bounded_of_paced (ordered_log hordered) hpaced w (List.append_nil _).symm).le_five
  · intro events hordered hpaced
    unfold Paced at hpaced
    push Not at hpaced
    obtain ⟨before, body, draw, now, after, rfl, rfl, hmobile, hissuable, e, he, hfails, hearly⟩ :=
      hpaced
    have hinitial : before ++ [.sendPhoneOtp body draw now] <+:
        before ++ .sendPhoneOtp body draw now :: after := ⟨after, by simp⟩
    obtain ⟨hrun, hmore⟩ := exceeds_of_early_code (hordered.sublist hinitial.sublist) hmobile hissuable
      he hfails hearly
    exact ⟨_, now, hinitial, hrun, e.1.now, hmore⟩

theorem guessing_bounded_oneCode :
    wrongIn "01012345678" 0
      (log [.sendPhoneOtp phoneBody 0 0, guess "01012345678" 1000, guess "01012345678" 2000]) ≤ 5 := by
  refine (guessing_bounded "01012345678").1 _ (by simp [InOrder, OtpEvent.now, guess]) ?_ 0
  -- the only request for a code is the first event
  intro before body draw now after h _ _ _ e he
  cases before with
  | nil => cases he
  | cons first before =>
      have hmem : .sendPhoneOtp body draw now ∈ [guess "01012345678" 1000, guess "01012345678" 2000] := by
        rw [(List.cons.inj h).2]
        exact List.mem_append_right _ List.mem_cons_self
      simp [guess] at hmem

/-- Four wrong codes, a new code after a minute, and two more. -/
def guessedTwice : List OtpEvent :=
  [.sendPhoneOtp phoneBody 0 0] ++ List.replicate 4 (guess "01012345678" 1000) ++
    [.sendPhoneOtp phoneBody 0 60000] ++ List.replicate 2 (guess "01012345678" 61000)

theorem not_bounded_of_guessedTwice : ¬ ∀ events : List OtpEvent, InOrder events →
    ∀ w, wrongIn "01012345678" w (log events) ≤ 5 := by
  intro h
  have hordered : InOrder guessedTwice := by
    simp [InOrder, guessedTwice, OtpEvent.now, guess, phoneBody]
  have hsix : wrongIn "01012345678" 0 (log guessedTwice) = 6 := by decide +kernel
  have hfive := h guessedTwice hordered 0
  omega

end AuthController

end ChickenOrder
