import ChickenOrder.Values.Numerals

/-!
# Letter case

The `uuid` type reads hexadecimal digits in either case, so that texts which differ in letter
case only are the same UUID (`ofText?_of_sameLetters`).

The relation `SameLetters` compares two texts character by character.  It is about spelling
only: what reads both in the same way is said for each reader.
-/

namespace ChickenOrder

/-- Two texts that differ in letter case only. -/
def SameLetters (s s' : String) : Prop := s.toList.map Char.toLower = s'.toList.map Char.toLower

instance (s s' : String) : Decidable (SameLetters s s') := inferInstanceAs (Decidable (_ = _))

section Letters

/-- A capital letter is one of a few characters, and any other character is its own lower case. -/
theorem toLower_cases {p : Char → Char → Prop} (hself : ∀ c, p c c)
    (hletters : ∀ n, 65 ≤ n → n ≤ 90 → p (Char.ofNat n) (Char.ofNat n).toLower) (c : Char) :
    p c c.toLower := by
  by_cases hcapital : 65 ≤ c.toNat ∧ c.toNat ≤ 90
  · have hc := hletters c.toNat hcapital.1 hcapital.2
    rwa [Char.ofNat_toNat] at hc
  · have hsame : c.toLower = c := by
      unfold Char.toLower
      rw [dif_neg]
      exact hcapital
    rw [hsame]
    exact hself c

namespace Uuid

/-- A hexadecimal digit has the same value in either case. -/
theorem hexDigit?_toLower (c : Char) : hexDigit? c.toLower = hexDigit? c := by
  refine toLower_cases (p := fun c d => hexDigit? d = hexDigit? c) (fun _ => rfl) ?_ c
  intro n hlow hhigh
  interval_cases n <;> rfl

/-- What is no letter has no other case. -/
theorem toLower_eq_iff {d : Char} (hd : d ∈ ['-', '{', '}']) (c : Char) : c.toLower = d ↔ c = d := by
  refine toLower_cases (p := fun c e => e = d ↔ c = d) (fun _ => Iff.rfl) ?_ c
  intro n hlow hhigh
  simp only [List.mem_cons, List.not_mem_nil, or_false] at hd
  obtain rfl | rfl | rfl := hd
  · interval_cases n <;> decide
  · interval_cases n <;> decide
  · interval_cases n <;> decide

theorem afterByte_map_toLower (n : ℕ) (cs : List Char) :
    afterByte n (cs.map Char.toLower) = (afterByte n cs).map Char.toLower := by
  cases cs with
  | nil => rfl
  | cons c cs =>
      have hhyphen := toLower_eq_iff (d := '-') (by simp) c
      by_cases hc : c = '-'
      · subst hc
        by_cases hn : n % 2 = 0 ∧ 0 < n
        · rw [List.map_cons, hhyphen.mpr rfl, afterByte_hyphen hn, afterByte_hyphen hn]
        · rw [List.map_cons, hhyphen.mpr rfl]
          simp [afterByte, hn]
      · simp [afterByte, hc, hhyphen]

/-- Bytes are read alike in either case. -/
theorem readBytes_map_toLower (n acc : ℕ) (cs : List Char) :
    readBytes n acc (cs.map Char.toLower) =
      (readBytes n acc cs).map (Prod.map id (List.map Char.toLower)) := by
  induction n generalizing acc cs with
  | zero => rfl
  | succ n ih =>
      match cs with
      | [] => rfl
      | [c] => rfl
      | hi :: lo :: cs =>
          cases hx : hexDigit? hi with
          | none => simp [readBytes, hexDigit?_toLower, hx]
          | some x =>
              cases hy : hexDigit? lo with
              | none => simp [readBytes, hexDigit?_toLower, hx, hy]
              | some y =>
                  rw [List.map_cons, List.map_cons,
                    readBytes_succ ((hexDigit?_toLower hi).trans hx) ((hexDigit?_toLower lo).trans hy),
                    readBytes_succ hx hy, afterByte_map_toLower, ih]

/-- Characters without a case are only written as themselves. -/
theorem map_toLower_eq_iff {d : Char} (hd : d ∈ ['-', '{', '}']) (cs : List Char) :
    cs.map Char.toLower = [d] ↔ cs = [d] := by
  rw [List.map_eq_singleton_iff]
  simp only [toLower_eq_iff hd]
  constructor
  · rintro ⟨c, hcs, hc⟩
    rw [hcs, hc]
  · exact fun hcs => ⟨d, hcs, rfl⟩

/-- A text that no brace opens. -/
theorem ofText?_of_ne {cs : List Char} (h : ∀ rest, cs ≠ '{' :: rest) :
    ofText? (String.ofList cs) = (readBytes 16 0 cs).bind fun read =>
      if read.2 = [] then some ⟨BitVec.ofNat 128 read.1⟩ else none := by
  unfold ofText?
  rw [String.toList_ofList]
  split
  · exact absurd rfl (h _)
  · rcases readBytes 16 0 cs with - | ⟨n, - | ⟨c, rest⟩⟩
    · rfl
    · rfl
    · rfl

/-- **The `uuid` type reads a text alike in either case.** -/
theorem ofText?_toLower (cs : List Char) :
    ofText? (String.ofList (cs.map Char.toLower)) = ofText? (String.ofList cs) := by
  cases cs with
  | nil => rfl
  | cons c cs =>
      have hopen := toLower_eq_iff (d := '{') (by simp) c
      by_cases hc : c = '{'
      · subst hc
        unfold ofText?
        rw [String.toList_ofList, String.toList_ofList, List.map_cons, hopen.mpr rfl]
        simp only [readBytes_map_toLower]
        cases readBytes 16 0 cs with
        | none => rfl
        | some read =>
            obtain ⟨n, rest⟩ := read
            have hclose := map_toLower_eq_iff (d := '}') (by simp) rest
            by_cases hrest : rest = ['}']
            · subst hrest
              rfl
            · simp [hrest, hclose]
      · have hlower : ∀ rest, (c :: cs).map Char.toLower ≠ '{' :: rest := by
          intro rest hcons
          exact hc (hopen.mp (List.cons.inj hcons).1)
        rw [ofText?_of_ne hlower, ofText?_of_ne (fun rest hcons => hc (List.cons.inj hcons).1),
          readBytes_map_toLower, Option.bind_map]
        simp

/-- Texts that differ in the case of letters are the same UUID, or none. -/
theorem ofText?_of_sameLetters {s s' : String} (h : SameLetters s s') : ofText? s = ofText? s' := by
  have hlower : ofText? (String.ofList (s.toList.map Char.toLower)) =
      ofText? (String.ofList (s'.toList.map Char.toLower)) := by rw [h]
  rwa [ofText?_toLower, ofText?_toLower, String.ofList_toList, String.ofList_toList] at hlower

end Uuid

end Letters

end ChickenOrder
