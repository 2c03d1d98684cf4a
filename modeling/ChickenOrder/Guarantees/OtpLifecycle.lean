import ChickenOrder.Services.PhoneOtp

/-!
# The life of a one-time password

A log of `AuthController` is read as a book that is kept per phone: the code last sent to it,
when that was, and how many submitted codes have been compared since, with which result.  The
stored records agree with the books (`Tracks`), up to codes that were used or have run out.

`moves_step` in `ChickenOrder.Services.PhoneOtp` is all that is used of the two handlers and the
timer.  From it the invariant `Tracks` follows entry by entry, and every clause of the lifecycle
is read off the book before an entry (`account_of_compared`, `account_bounds`,
`le_now_of_sent`).
-/

namespace ChickenOrder

open Interaction

namespace AuthController

/-! ## What a log has on a phone -/

/-- An event and what came of it. -/
abbrev Entry := OtpEvent × OtpOutcome

section Entries

variable (p : String)

/-- A code is sent to the phone. -/
def Issues (entry : Entry) : Bool :=
  match entry.2 with
  | .sent phone _ => phone = p
  | _ => false

/-- A submitted code is compared with the phone's code. -/
def Compares (entry : Entry) : Bool :=
  match entry.2 with
  | .compared phone _ _ _ => phone = p
  | _ => false

/-- The comparison verifies the phone. -/
def Succeeds (entry : Entry) : Bool :=
  match entry.2 with
  | .compared phone stored submitted _ => phone = p ∧ stored = submitted
  | _ => false

/-- A wrong code is compared. -/
def Fails (entry : Entry) : Bool :=
  match entry.2 with
  | .compared phone stored submitted _ => phone = p ∧ stored ≠ submitted
  | _ => false

/-- A comparison succeeds or fails. -/
theorem countP_compares (entries : List Entry) :
    entries.countP (Compares p) = entries.countP (Fails p) + entries.countP (Succeeds p) := by
  induction entries with
  | nil => rfl
  | cons entry entries ih =>
      obtain ⟨event, outcome⟩ := entry
      simp only [List.countP_cons, ih]
      cases outcome with
      | compared phone stored submitted left =>
          by_cases hphone : phone = p
          · by_cases hright : stored = submitted
            · simp [Compares, Fails, Succeeds, hphone, hright]
              omega
            · simp [Compares, Fails, Succeeds, hphone, hright]
              omega
          · simp [Compares, Fails, Succeeds, hphone]
      | _ => simp [Compares, Fails, Succeeds]

theorem issues_eq_true {p : String} {entry : Entry} (h : Issues p entry = true) :
    ∃ code, entry.2 = .sent p code := by
  obtain ⟨event, outcome⟩ := entry
  cases outcome with
  | sent phone code => exact ⟨code, by simpa [Issues] using h⟩
  | _ => cases h

theorem compares_eq_true {p : String} {entry : Entry} (h : Compares p entry = true) :
    ∃ stored submitted left, entry.2 = .compared p stored submitted left := by
  obtain ⟨event, outcome⟩ := entry
  cases outcome with
  | compared phone stored submitted left => exact ⟨stored, submitted, left, by simpa [Compares] using h⟩
  | _ => cases h

theorem succeeds_eq_true {p : String} {entry : Entry} (h : Succeeds p entry = true) :
    ∃ code left, entry.2 = .compared p code code left := by
  obtain ⟨event, outcome⟩ := entry
  cases outcome with
  | compared phone stored submitted left =>
      obtain ⟨rfl, rfl⟩ : phone = p ∧ stored = submitted := by simpa [Succeeds] using h
      exact ⟨stored, left, rfl⟩
  | _ => cases h

end Entries

/-- The times do not decrease. -/
def InOrder (events : List OtpEvent) : Prop := events.Pairwise fun d e => d.now ≤ e.now

/-- The times of a log do not run backwards. -/
def Log.Ordered (log : Log) : Prop := log.Pairwise fun d e => d.1.now ≤ e.1.now

theorem ordered_log {events : List OtpEvent} (h : InOrder events) : (log events).Ordered := by
  unfold InOrder at h
  rw [← transcript_map_fst step events fun _ => none, List.pairwise_map] at h
  exact h

/-- What is logged before an entry was not later. -/
theorem Log.Ordered.le {earlier later : Log} {entry e : Entry}
    (h : Log.Ordered (earlier ++ entry :: later)) (he : e ∈ earlier) : e.1.now ≤ entry.1.now :=
  (List.pairwise_append.mp h).2.2 e he entry List.mem_cons_self

/-! ## The books -/

/-- What became of the code last sent to a phone: when it was sent, how often it was missed and how
often used.  This is the abstract view of a record. -/
structure Account where
  code : String
  issuedAt : ℤ
  failures : ℕ
  successes : ℕ

/-- The book is brought up to date. -/
def Account.next (p : String) (account : Option Account) (entry : Entry) : Option Account :=
  match entry.2 with
  | .sent phone code => if phone = p then some ⟨code, entry.1.now, 0, 0⟩ else account
  | .compared phone stored submitted _ =>
      if phone = p then
        account.map fun a =>
          if stored = submitted then { a with successes := a.successes + 1 }
          else { a with failures := a.failures + 1 }
      else account
  | _ => account

/-- What a phone's log comes to. -/
def account (p : String) (log : Log) : Option Account := log.foldl (Account.next p) none

section Account

variable {p : String}

theorem account_append (earlier later : Log) :
    account p (earlier ++ later) = later.foldl (Account.next p) (account p earlier) :=
  List.foldl_append

@[simp] theorem account_concat (earlier : Log) (entry : Entry) :
    account p (earlier ++ [entry]) = Account.next p (account p earlier) entry :=
  account_append earlier [entry]

/-- What neither sends nor compares changes no book. -/
theorem next_of_isQuiet {a : Option Account} {entry : Entry} (h : entry.2.isQuiet = true) :
    Account.next p a entry = a := by
  obtain ⟨event, outcome⟩ := entry
  cases outcome with
  | sent phone code => cases h
  | compared phone stored submitted left => cases h
  | _ => rfl

/-- Up to the next code, a book counts the comparisons. -/
theorem foldl_next_of_not_issues {since : Log} (h : ∀ e ∈ since, Issues p e = false) (a : Account) :
    since.foldl (Account.next p) (some a) = some
      { a with
        failures := a.failures + since.countP (Fails p)
        successes := a.successes + since.countP (Succeeds p) } := by
  induction since generalizing a with
  | nil => rfl
  | cons entry since ih =>
      rw [List.forall_mem_cons] at h
      obtain ⟨hentry, hsince⟩ := h
      obtain ⟨event, outcome⟩ := entry
      rw [List.foldl_cons, List.countP_cons, List.countP_cons]
      cases outcome with
      | sent phone code =>
          have hphone : phone ≠ p := of_decide_eq_false hentry
          simp [Account.next, hphone, ih hsince, Fails, Succeeds]
      | compared phone stored submitted left =>
          by_cases hphone : phone = p
          · by_cases hright : stored = submitted
            · simp [Account.next, hphone, hright, ih hsince, Fails, Succeeds]
              omega
            · simp [Account.next, hphone, hright, ih hsince, Fails, Succeeds]
              omega
          · simp [Account.next, hphone, ih hsince, Fails, Succeeds]
      | _ => simp [Account.next, ih hsince, Fails, Succeeds]

/-- The book since a code was sent. -/
theorem account_of_issue {earlier since : Log} {issue : Entry} {code : String}
    (hissue : issue.2 = .sent p code) (h : ∀ e ∈ since, Issues p e = false) :
    account p (earlier ++ issue :: since) =
      some ⟨code, issue.1.now, since.countP (Fails p), since.countP (Succeeds p)⟩ := by
  rw [account_append, List.foldl_cons]
  have hnext : Account.next p (account p earlier) issue = some ⟨code, issue.1.now, 0, 0⟩ := by
    simp [Account.next, hissue]
  rw [hnext, foldl_next_of_not_issues h, Nat.zero_add, Nat.zero_add]

/-- A book begins with a code. -/
theorem exists_issue_of_account {log : Log} {a : Account} (h : account p log = some a) :
    ∃ earlier issue since code, log = earlier ++ issue :: since ∧ issue.2 = .sent p code ∧
      ∀ e ∈ since, Issues p e = false := by
  -- on the log from its end, so that the last issue is met first
  induction log using List.reverseRecOn generalizing a with
  | nil => cases h
  | append_singleton log entry ih =>
      rw [account_concat] at h
      by_cases hissue : Issues p entry = true
      · obtain ⟨code, hcode⟩ := issues_eq_true hissue
        exact ⟨log, entry, [], code, rfl, hcode, nofun⟩
      · -- the book was begun before this entry
        have hbegun : ∃ a', account p log = some a' := by
          obtain ⟨event, outcome⟩ := entry
          rw [← Option.isSome_iff_exists]
          cases outcome with
          | sent phone code =>
              have hphone : phone ≠ p := fun hphone => hissue (decide_eq_true hphone)
              simp only [Account.next, if_neg hphone] at h
              exact Option.isSome_of_eq_some h
          | compared phone stored submitted left =>
              simp only [Account.next] at h
              split at h
              · obtain ⟨a', ha', -⟩ := Option.map_eq_some_iff.mp h
                exact Option.isSome_of_eq_some ha'
              · exact Option.isSome_of_eq_some h
          | _ => exact Option.isSome_of_eq_some h
        obtain ⟨a', ha'⟩ := hbegun
        obtain ⟨earlier, issue, since, code, rfl, hcode, hsince⟩ := ih ha'
        refine ⟨earlier, issue, since ++ [entry], code, by simp, hcode, fun e he => ?_⟩
        rcases List.mem_append.mp he with he | he
        · exact hsince e he
        · rw [List.mem_singleton.mp he]
          exact (Bool.not_eq_true _).mp hissue

end Account

/-! ## The books agree with the stored codes -/

/-- The stored code of a phone is the one in its book, with as many attempts as there were wrong
codes.  A code that is not stored any more was used, or its time is over. -/
structure Tracks (p : String) (log : Log) (otpStore : OtpStore) : Prop where
  live : ∀ rec, otpStore p = some rec →
    account p log = some ⟨rec.code, rec.lastSentAt, rec.attempts, 0⟩ ∧
      rec.expiresAt = rec.lastSentAt + 180000 ∧ rec.attempts ≤ 5
  gone : ∀ a, otpStore p = none → account p log = some a →
    a.failures ≤ 5 ∧ (a.successes = 1 ∧ a.failures < 5 ∨
      a.successes = 0 ∧ ∃ e ∈ log, a.issuedAt + 180000 < e.1.now)

section Tracks

variable {p : String} {earlier : Log} {s : OtpStore}

/-- Nothing happened to the phone's code. -/
theorem Tracks.same (h : Tracks p earlier s) {s' : OtpStore} {entry : Entry} (hs : s' p = s p)
    (hnext : Account.next p (account p earlier) entry = account p earlier) :
    Tracks p (earlier ++ [entry]) s' := by
  constructor
  · intro rec hrec
    rw [account_concat, hnext]
    exact h.live rec (hs ▸ hrec)
  · intro a hnone ha
    rw [account_concat, hnext] at ha
    obtain ⟨hfailures, hused | ⟨hunused, e, he, hover⟩⟩ := h.gone a (hs ▸ hnone) ha
    · exact ⟨hfailures, .inl hused⟩
    · exact ⟨hfailures, .inr ⟨hunused, e, List.mem_append_left _ he, hover⟩⟩

/-- The code has run out. -/
theorem Tracks.expire (h : Tracks p earlier s) {s' : OtpStore} {entry : Entry} {rec : OtpRecord}
    (hrec : s p = some rec) (hexpired : rec.expiresAt < entry.1.now) (hs : s' p = none)
    (hnext : Account.next p (account p earlier) entry = account p earlier) :
    Tracks p (earlier ++ [entry]) s' := by
  obtain ⟨haccount, hexpiry, hattempts⟩ := h.live rec hrec
  constructor
  · intro rec' hrec'
    rw [hs] at hrec'
    cases hrec'
  · intro a _ ha
    rw [account_concat, hnext, haccount] at ha
    cases ha
    refine ⟨hattempts, .inr ⟨rfl, entry, by simp, ?_⟩⟩
    rw [← hexpiry]
    exact hexpired

/-- A step keeps the books. -/
theorem Tracks.moves (h : Tracks p earlier s) {event : OtpEvent} {outcome : OtpOutcome}
    {s' : OtpStore} (hmoves : Moves s event.now outcome s') :
    Tracks p (earlier ++ [(event, outcome)]) s' := by
  -- by what the event does to the store: it issues, compares, or lets entries go
  cases hmoves with
  | sent phone code hfree =>
      by_cases hphone : p = phone
      · subst hphone
        constructor
        · intro rec hrec
          rw [OtpStore.put_self] at hrec
          cases hrec
          exact ⟨by simp [Account.next], by simp, Nat.zero_le _⟩
        · intro a hnone
          rw [OtpStore.put_self] at hnone
          cases hnone
      · exact h.same (s.put_of_ne _ hphone) (by simp [Account.next, Ne.symm hphone])
  | compared phone submitted rec hrec hexpiry hattempts =>
      by_cases hphone : p = phone
      · subst hphone
        obtain ⟨haccount, hexpiresAt, -⟩ := h.live rec hrec
        by_cases hright : rec.code = submitted
        · -- the code is used
          constructor
          · intro rec' hrec'
            rw [OtpStore.put_self, if_pos hright] at hrec'
            cases hrec'
          · intro a _ ha
            rw [account_concat, haccount] at ha
            simp only [Account.next, if_true, if_pos hright, Option.map_some, Option.some.injEq] at ha
            subst ha
            exact ⟨Nat.le_of_lt hattempts, .inl ⟨rfl, hattempts⟩⟩
        · -- one more attempt
          constructor
          · intro rec' hrec'
            rw [OtpStore.put_self, if_neg hright] at hrec'
            cases hrec'
            refine ⟨?_, hexpiresAt, hattempts⟩
            rw [account_concat, haccount]
            simp [Account.next, hright]
          · intro a hnone
            rw [OtpStore.put_self, if_neg hright] at hnone
            cases hnone
      · exact h.same (s.put_of_ne _ hphone) (by simp [Account.next, Ne.symm hphone])
  -- an expired entry leaves the account open, with nothing that can be compared any more
  | other outcome s' hquiet hothers =>
      have hnext : Account.next p (account p earlier) (event, outcome) = account p earlier :=
        next_of_isQuiet hquiet
      rcases hothers p with hsame | ⟨hnone, rec, hrec, hexpired⟩
      · exact h.same hsame hnext
      · exact h.expire hrec hexpired hnone hnext

/-- **The books agree with the stored codes** after every run: a record has the code and the count
of its book, and a book without a record is of a code that was used or is over. -/
theorem tracks_log (p : String) (events : List OtpEvent) :
    Tracks p (log events) (final step events fun _ => none) := by
  refine transcript_invariant step (Q := fun _ => True) ?_ ?_ ?_ events trivial
  · exact fun _ _ _ => trivial
  · exact ⟨nofun, fun _ _ h => by cases h⟩
  · exact fun earlier s event _ h => h.moves (moves_step event s)

end Tracks

/-! ## What an entry says about the book before it -/

section Entry

variable {p : String} {events : List OtpEvent} {earlier later : Log} {entry : Entry}

/-- The stored codes before an entry, which decide about it. -/
theorem exists_moves (h : log events = earlier ++ entry :: later) :
    ∃ s s', Tracks p earlier s ∧ Moves s entry.1.now entry.2 s' := by
  have htracks := tracks_log p (earlier.map Prod.fst)
  have hearlier : log (earlier.map Prod.fst) = earlier := transcript_eq_append step h
  have houtcome := transcript_eq_append_cons step h
  have hmoves := moves_step entry.1 (final step (earlier.map Prod.fst) fun _ => none)
  rw [hearlier] at htracks
  rw [← houtcome] at hmoves
  exact ⟨_, _, htracks, hmoves⟩

/-- A submitted code is compared with the code last sent, which is neither used nor over, and has
not been missed five times.  So a code is never compared once it is done with. -/
theorem account_of_compared (h : log events = earlier ++ entry :: later) {stored submitted : String}
    {left : ℤ} (hentry : entry.2 = .compared p stored submitted left) :
    ∃ issuedAt failures, account p earlier = some ⟨stored, issuedAt, failures, 0⟩ ∧
      failures < 5 ∧ entry.1.now ≤ issuedAt + 180000 := by
  obtain ⟨s, s', htracks, hmoves⟩ := exists_moves (p := p) h
  rw [hentry] at hmoves
  cases hmoves with
  | compared _ _ rec hrec hexpiry hattempts =>
      obtain ⟨haccount, hexpiresAt, -⟩ := htracks.live rec hrec
      exact ⟨rec.lastSentAt, rec.attempts, haccount, hattempts, hexpiresAt ▸ hexpiry⟩
  | other _ _ hquiet _ => cases hquiet

/-- No code follows one that was missed five times before its time is over. -/
theorem le_now_of_sent (h : log events = earlier ++ entry :: later)
    (hordered : (log events).Ordered) {code : String} (hentry : entry.2 = .sent p code) {a : Account}
    (ha : account p earlier = some a) (hfailures : 5 ≤ a.failures) :
    a.issuedAt + 180000 ≤ entry.1.now := by
  obtain ⟨s, s', htracks, hmoves⟩ := exists_moves (p := p) h
  rw [hentry] at hmoves
  cases hmoves with
  | sent _ _ hfree =>
      cases hrec : s p with
      | some rec =>
          obtain ⟨haccount, hexpiresAt, -⟩ := htracks.live rec hrec
          rw [haccount] at ha
          cases ha
          rw [← hexpiresAt]
          exact (hfree rec hrec).2 hfailures
      | none =>
          obtain ⟨-, ⟨-, hfew⟩ | ⟨-, e, he, hover⟩⟩ := htracks.gone a hrec ha
          · omega
          · have hle : e.1.now ≤ entry.1.now := Log.Ordered.le (h ▸ hordered) he
            omega
  | other _ _ hquiet _ => cases hquiet

/-- A code is missed at most five times, and used at most once. -/
theorem account_bounds (h : log events = earlier ++ later) {a : Account}
    (ha : account p earlier = some a) : a.failures + a.successes ≤ 5 ∧ a.successes ≤ 1 := by
  have htracks := tracks_log p (earlier.map Prod.fst)
  have hearlier : log (earlier.map Prod.fst) = earlier := transcript_eq_append step h
  rw [hearlier] at htracks
  generalize final step (earlier.map Prod.fst) (fun _ => none) = s at htracks
  cases hrec : s p with
  | some rec =>
      obtain ⟨haccount, -, hattempts⟩ := htracks.live rec hrec
      rw [haccount] at ha
      cases ha
      exact ⟨hattempts, Nat.zero_le _⟩
  | none =>
      obtain ⟨hfailures, ⟨hused, hfew⟩ | ⟨hunused, -⟩⟩ := htracks.gone a hrec ha
      · omega
      · omega

end Entry

/-! ## The lifecycle -/

/-- What holds of a code sent to a phone at a time, given what is logged from then to the next
code, or for any shorter while, and what is logged after that. -/
structure Lifecycle (p code : String) (issuedAt : ℤ) (since later : Log) : Prop where
  /-- Submitted codes are compared with this code. -/
  against : ∀ e ∈ since, ∀ stored submitted left, e.2 = .compared p stored submitted left →
    stored = code
  comparisons : since.countP (Compares p) ≤ 5
  successes : since.countP (Succeeds p) ≤ 1
  inTime : ∀ e ∈ since, Succeeds p e = true →
    (∃ left, e.2 = .compared p code code left) ∧ e.1.now ≤ issuedAt + 180000
  locked : since.countP (Compares p) = 5 → since.countP (Succeeds p) = 0 →
    ∀ e ∈ later, e.1.now < issuedAt + 180000 → Succeeds p e = false ∧ Issues p e = false

section Lifecycle

variable {p code : String} {events : List OtpEvent} {earlier since later : Log} {issue : Entry}

/-- A comparison after a code is with this code, while it is the last one sent. -/
theorem compared_since (h : log events = earlier ++ issue :: (since ++ later))
    (hissue : issue.2 = .sent p code) (hsince : ∀ e ∈ since, Issues p e = false) {e : Entry}
    {rest : Log} (hlater : later = e :: rest) {stored submitted : String} {left : ℤ}
    (he : e.2 = .compared p stored submitted left) :
    stored = code ∧ since.countP (Fails p) < 5 ∧ since.countP (Succeeds p) = 0 ∧
      e.1.now ≤ issue.1.now + 180000 := by
  have hsplit : log events = (earlier ++ issue :: since) ++ e :: rest := by
    rw [h, hlater]
    simp
  obtain ⟨issuedAt, failures, haccount, hfew, hnow⟩ := account_of_compared hsplit he
  rw [account_of_issue hissue hsince, Option.some.injEq, Account.mk.injEq] at haccount
  obtain ⟨hcode, rfl, rfl, hunused⟩ := haccount
  exact ⟨hcode.symm, hfew, hunused, hnow⟩

/-- After five wrong codes there is neither a comparison nor another code in time. -/
theorem not_compares_of_locked (h : log events = earlier ++ issue :: (since ++ later))
    (hordered : (log events).Ordered) (hissue : issue.2 = .sent p code)
    (hsince : ∀ e ∈ since, Issues p e = false) (hfive : 5 ≤ since.countP (Fails p)) {e : Entry}
    (he : e ∈ later) (hnow : e.1.now < issue.1.now + 180000) :
    Compares p e = false ∧ Issues p e = false := by
  -- the first code after these five would come too early
  have hnone : ∀ e ∈ later, e.1.now < issue.1.now + 180000 → Issues p e = false := by
    intro e he hnow
    by_contra hissues
    rw [Bool.not_eq_false] at hissues
    cases hfind : later.find? (Issues p) with
    | none => exact absurd hissues (List.find?_eq_none.mp hfind e he)
    | some first =>
        obtain ⟨hfirst, mid, rest, rfl, hmid⟩ := List.find?_eq_some_iff_append.mp hfind
        obtain ⟨code', hcode'⟩ := issues_eq_true hfirst
        have hsplit : log events = (earlier ++ issue :: (since ++ mid)) ++ first :: rest := by
          rw [h]
          simp
        have hmid' : ∀ e ∈ since ++ mid, Issues p e = false := by
          intro e he
          rcases List.mem_append.mp he with he | he
          · exact hsince e he
          · simpa using hmid e he
        have hfive' : 5 ≤ (since ++ mid).countP (Fails p) := by
          rw [List.countP_append]
          omega
        have hle : issue.1.now + 180000 ≤ first.1.now :=
          le_now_of_sent hsplit hordered hcode' (account_of_issue hissue hmid') hfive'
        -- and what is logged after it is later still
        have hfirst_le : first.1.now ≤ e.1.now := by
          rcases List.mem_append.mp he with he | he
          · have hquiet := hmid e he
            rw [hissues] at hquiet
            cases hquiet
          · rcases List.mem_cons.mp he with rfl | he
            · exact Int.le_refl _
            · rw [Log.Ordered, hsplit, List.pairwise_append] at hordered
              exact (List.pairwise_cons.mp hordered.2.1).1 e he
        omega
  refine ⟨?_, hnone e he hnow⟩
  by_contra hcompares
  rw [Bool.not_eq_false] at hcompares
  obtain ⟨stored, submitted, left, hcompared⟩ := compares_eq_true hcompares
  obtain ⟨mid, rest, rfl⟩ := List.append_of_mem he
  have hmid : ∀ e ∈ since ++ mid, Issues p e = false := by
    intro e' he'
    rcases List.mem_append.mp he' with he' | he'
    · exact hsince e' he'
    · refine hnone e' (List.mem_append_left _ he') ?_
      have hsplit : log events = (earlier ++ issue :: (since ++ mid)) ++ e :: rest := by
        rw [h]
        simp
      have hle : e'.1.now ≤ e.1.now := Log.Ordered.le (hsplit ▸ hordered) (by simp [he'])
      omega
  have hsplit : log events = earlier ++ issue :: ((since ++ mid) ++ e :: rest) := by
    rw [h]
    simp
  obtain ⟨-, hfew, -⟩ := compared_since hsplit hissue hmid rfl hcompared
  rw [List.countP_append] at hfew
  omega

theorem lifecycle_of_issue (h : log events = earlier ++ issue :: (since ++ later))
    (hordered : (log events).Ordered) (hissue : issue.2 = .sent p code)
    (hsince : ∀ e ∈ since, Issues p e = false) :
    Lifecycle p code issue.1.now since later := by
  -- no code was issued since, so every comparison is with this one
  have hcompared : ∀ e ∈ since, ∀ stored submitted left,
      e.2 = .compared p stored submitted left →
        stored = code ∧ e.1.now ≤ issue.1.now + 180000 := by
    intro e he stored submitted left hentry
    obtain ⟨mid, rest, rfl⟩ := List.append_of_mem he
    rw [List.append_assoc, List.cons_append] at h
    obtain ⟨hstored, -, -, hnow⟩ :=
      compared_since h hissue (fun e he => hsince e (List.mem_append_left _ he)) rfl hentry
    exact ⟨hstored, hnow⟩
  -- the account counts the comparisons of the code
  have hbounds : since.countP (Fails p) + since.countP (Succeeds p) ≤ 5 ∧
      since.countP (Succeeds p) ≤ 1 := by
    have hsplit : log events = (earlier ++ issue :: since) ++ later := by
      rw [h]
      simp
    exact account_bounds hsplit (account_of_issue hissue hsince)
  constructor
  · exact fun e he stored submitted left hentry => (hcompared e he stored submitted left hentry).1
  · rw [countP_compares]
    exact hbounds.1
  · exact hbounds.2
  · intro e he hsucceeds
    obtain ⟨stored, left, hentry⟩ := succeeds_eq_true hsucceeds
    obtain ⟨rfl, hnow⟩ := hcompared e he stored stored left hentry
    exact ⟨⟨left, hentry⟩, hnow⟩
  · intro hfive hnone e he hnow
    rw [countP_compares] at hfive
    obtain ⟨hcompares, hissues⟩ :=
      not_compares_of_locked h hordered hissue hsince (by omega) he hnow
    refine ⟨?_, hissues⟩
    by_contra hsucceeds
    rw [Bool.not_eq_false] at hsucceeds
    obtain ⟨stored, left, hentry⟩ := succeeds_eq_true hsucceeds
    rw [Compares, hentry] at hcompares
    simp at hcompares

end Lifecycle

/-- **The lifecycle of a code.**  In every run with non-decreasing times, a code is compared with
at most five times and used at most once, in time and only if it was submitted; after five
wrong codes the phone is locked until the code's time is over.  Every comparison is with the code
last sent, and events for other phones change nothing. -/
theorem otp_lifecycle (events : List OtpEvent) (h : InOrder events) (p : String) :
    (∀ earlier issue since later code, log events = earlier ++ issue :: (since ++ later) →
      issue.2 = .sent p code → (∀ e ∈ since, Issues p e = false) →
      Lifecycle p code issue.1.now since later) ∧
    (∀ earlier entry later, log events = earlier ++ entry :: later → Compares p entry = true →
      ∃ before issue since code, earlier = before ++ issue :: since ∧
        issue.2 = .sent p code ∧ ∀ e ∈ since, Issues p e = false) ∧
    (log events).filter (fun entry => concerns p entry.1) = log (events.filter (concerns p)) := by
  refine ⟨?_, ?_, log_filter p events⟩
  · intro earlier issue since later code hlog hissue hsince
    exact lifecycle_of_issue hlog (ordered_log h) hissue hsince
  · intro earlier entry later hlog hcompares
    obtain ⟨stored, submitted, left, hentry⟩ := compares_eq_true hcompares
    obtain ⟨issuedAt, failures, haccount, -⟩ := account_of_compared hlog hentry
    exact exists_issue_of_account haccount

/-- A request for a phone, as the app sends it. -/
def phoneBody : JsValue := .object [("phone", .string "010-1234-5678")]

/-- The same with a code. -/
def codeBody (code : String) : JsValue :=
  .object [("phone", .string "010-1234-5678"), ("code", .string code)]

/-- A code that is missed once, and then used after the blank in front of it is gone. -/
theorem otp_lifecycle_secondTry :
    Lifecycle "01012345678" "100000" 1000
      [(.verifyPhoneOtp (codeBody "123456") 31000, .compared "01012345678" "100000" "123456" 4),
        (.verifyPhoneOtp (codeBody " 100000") 181000, .compared "01012345678" "100000" "100000" 3)]
      [(.cleanup 182000, .cleaned)] :=
  (otp_lifecycle
    [.sendPhoneOtp phoneBody 0 1000, .verifyPhoneOtp (codeBody "123456") 31000,
      .verifyPhoneOtp (codeBody " 100000") 181000, .cleanup 182000]
    (by simp [InOrder, OtpEvent.now]) "01012345678").1 []
    (.sendPhoneOtp phoneBody 0 1000, .sent "01012345678" "100000")
    _ _ "100000" rfl rfl (by simp [Issues])

end AuthController

end ChickenOrder
