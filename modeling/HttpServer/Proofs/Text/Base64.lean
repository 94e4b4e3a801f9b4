import HttpServer.Proofs.Text.Decoding
import HttpServer.Text.Base64

/-!
# Base 64 is read as it is written

The letters of the alphabet and the numbers below 64 stand for each other (`Base64.value?_letter`,
`Base64.letter_of_value?`), and so do groups of four letters and three bytes. A byte string has one
written form, with the padding it needs, and nothing but written forms is read
(`Base64.decode_eq_some_iff`).
-/

namespace HttpServer.Base64

open HttpServer.Utf8

/-- A number is read back from its letter. -/
theorem value?_letter {n : Nat} (h : n < 64) : value? (letter n) = some n := by
  have all : ∀ m : Fin 64, value? (letter m.val) = some m.val := by decide +kernel
  exact all ⟨n, h⟩

/-- The padding is no letter. -/
theorem letter_ne_pad {n : Nat} (h : n < 64) : letter n ≠ '=' := by
  intro hpad
  have hvalue := value?_letter h
  rw [hpad] at hvalue
  cases hvalue

/-- A letter that is read is that of its number. -/
theorem letter_of_value? {c : Char} {n : Nat} (h : value? c = some n) : n < 64 ∧ letter n = c := by
  have hupper : c.isUpper = true ↔ 65 ≤ c.toNat ∧ c.toNat ≤ 90 := decide_eq_true_iff
  have hlower : c.isLower = true ↔ 97 ≤ c.toNat ∧ c.toNat ≤ 122 :=
    (Bool.and_eq_true _ _).to_iff.trans (and_congr decide_eq_true_iff decide_eq_true_iff)
  have hdigit : c.isDigit = true ↔ 48 ≤ c.toNat ∧ c.toNat ≤ 57 :=
    (Bool.and_eq_true _ _).to_iff.trans (and_congr decide_eq_true_iff decide_eq_true_iff)
  have hback (m : Nat) (hm : m = c.toNat) : Char.ofNat m = c := by rw [hm, Char.ofNat_toNat]
  unfold value? at h
  split at h
  · rename_i hrange
    have := hupper.1 hrange
    cases h
    refine ⟨by omega, ?_⟩
    rw [letter, if_pos (by omega), hback _ (by omega)]
  split at h
  · rename_i hrange
    have := hlower.1 hrange
    cases h
    refine ⟨by omega, ?_⟩
    rw [letter, if_neg (by omega), if_pos (by omega), hback _ (by omega)]
  split at h
  · rename_i hrange
    have := hdigit.1 hrange
    cases h
    refine ⟨by omega, ?_⟩
    rw [letter, if_neg (by omega), if_neg (by omega), if_pos (by omega), hback _ (by omega)]
  split at h
  · rename_i hplus
    cases h
    exact ⟨by decide, hplus.symm⟩
  split at h
  · rename_i hslash
    cases h
    exact ⟨by decide, hslash.symm⟩
  · cases h

/-! ## Groups -/

section Group

variable {a b c d : Nat} (ha : a < 64) (hb : b < 64) (hc : c < 64) (hd : d < 64)

include ha hb

/-- Two letters with their padding are a byte. -/
theorem decode_twoLetters (hrest : b % 16 = 0) :
    decode [letter a, letter b, '=', '='] = some [(a * 4 + b / 16).toUInt8] := by
  rw [decode, decodeLast, value?_letter ha, value?_letter hb]
  simp [hrest]

/-- One byte is written in two letters, with padding. -/
theorem encode_oneByte (hrest : b % 16 = 0) :
    encode [(a * 4 + b / 16).toUInt8] = [letter a, letter b, '=', '='] := by
  have hhigh : (a * 4 + b / 16) / 4 = a := by omega
  have hlow : (a * 4 + b / 16) % 4 * 16 = b := by omega
  rw [encode, toNat_toUInt8 (by omega), hhigh, hlow]

include hc

/-- Three letters with their padding are two bytes. -/
theorem decode_threeLetters (hrest : c % 4 = 0) :
    decode [letter a, letter b, letter c, '='] =
      some [(a * 4 + b / 16).toUInt8, (b % 16 * 16 + c / 4).toUInt8] := by
  rw [decode, decodeLast, value?_letter ha, value?_letter hb]
  simp [value?_letter hc, letter_ne_pad hc, hrest]

/-- Two bytes are written in three letters, with padding. -/
theorem encode_twoBytes (hrest : c % 4 = 0) :
    encode [(a * 4 + b / 16).toUInt8, (b % 16 * 16 + c / 4).toUInt8] =
      [letter a, letter b, letter c, '='] := by
  have hhigh : (a * 4 + b / 16) / 4 = a := by omega
  have hmiddle : (a * 4 + b / 16) % 4 * 16 + (b % 16 * 16 + c / 4) / 16 = b := by omega
  have hlow : (b % 16 * 16 + c / 4) % 16 * 4 = c := by omega
  rw [encode, toNat_toUInt8 (by omega), toNat_toUInt8 (by omega), hhigh, hmiddle, hlow]

include hd

/-- Four letters stand for three bytes, whether or not others follow. -/
theorem decode_fourLetters (rest : List Char) :
    decode (letter a :: letter b :: letter c :: letter d :: rest) = (decode rest).map fun bytes =>
      (a * 4 + b / 16).toUInt8 :: (b % 16 * 16 + c / 4).toUInt8 :: (c % 4 * 64 + d).toUInt8 ::
        bytes := by
  cases rest with
  | nil =>
      change decodeLast (letter a) (letter b) (letter c) (letter d) = _
      rw [decodeLast, value?_letter ha, value?_letter hb]
      simp [decode, value?_letter hc, value?_letter hd, letter_ne_pad hc, letter_ne_pad hd]
  | cons next rest =>
      rw [decode, value?_letter ha, value?_letter hb, value?_letter hc, value?_letter hd]
      · cases decode (next :: rest) <;> rfl
      · simp

/-- Three bytes are written in four letters. -/
theorem encode_threeBytes (rest : Bytes) :
    encode ((a * 4 + b / 16).toUInt8 :: (b % 16 * 16 + c / 4).toUInt8 ::
      (c % 4 * 64 + d).toUInt8 :: rest) =
      letter a :: letter b :: letter c :: letter d :: encode rest := by
  have hfirst : (a * 4 + b / 16) / 4 = a := by omega
  have hsecond : (a * 4 + b / 16) % 4 * 16 + (b % 16 * 16 + c / 4) / 16 = b := by omega
  have hthird : (b % 16 * 16 + c / 4) % 16 * 4 + (c % 4 * 64 + d) / 64 = c := by omega
  have hfourth : (c % 4 * 64 + d) % 64 = d := by omega
  rw [encode, toNat_toUInt8 (by omega), toNat_toUInt8 (by omega), toNat_toUInt8 (by omega), hfirst,
    hsecond, hthird, hfourth]

end Group

/-! ## Byte strings -/

/-- **Writing and back.** -/
theorem decode_encode (bytes : Bytes) : decode (encode bytes) = some bytes := by
  induction bytes using encode.induct with
  | case1 => rfl
  | case2 a =>
      have ha := a.toNat_lt
      rw [encode, decode_twoLetters (by omega) (by omega) (by omega),
        toUInt8_eq (b := a) (by omega)]
  | case3 a b =>
      have ha := a.toNat_lt
      have hb := b.toNat_lt
      rw [encode, decode_threeLetters (by omega) (by omega) (by omega) (by omega),
        toUInt8_eq (b := a) (by omega), toUInt8_eq (b := b) (by omega)]
  | case4 a b c rest ih =>
      have ha := a.toNat_lt
      have hb := b.toNat_lt
      have hc := c.toNat_lt
      rw [encode, decode_fourLetters (by omega) (by omega) (by omega) (by omega), ih,
        toUInt8_eq (b := a) (by omega), toUInt8_eq (b := b) (by omega),
        toUInt8_eq (b := c) (by omega)]
      rfl

/-- What the last group stands for is written as this group. -/
theorem encode_of_decodeLast {w x y z : Char} {bytes : Bytes}
    (h : decodeLast w x y z = some bytes) : encode bytes = [w, x, y, z] := by
  rw [decodeLast] at h
  simp only [Option.bind_eq_bind, Option.bind_eq_some_iff] at h
  obtain ⟨a, hw, b, hx, h⟩ := h
  obtain ⟨ha, rfl⟩ := letter_of_value? hw
  obtain ⟨hb, rfl⟩ := letter_of_value? hx
  split at h
  · rename_i hy
    split at h
    · rename_i hpad
      cases h
      rw [hy, hpad.1, encode_oneByte ha hb hpad.2]
    · cases h
  replace h := Option.bind_eq_some_iff.1 h
  obtain ⟨c, hy, h⟩ := h
  obtain ⟨hc, rfl⟩ := letter_of_value? hy
  split at h
  · rename_i hz
    split at h
    · rename_i hrest
      cases h
      rw [hz, encode_twoBytes ha hb hc hrest]
    · cases h
  replace h := Option.bind_eq_some_iff.1 h
  obtain ⟨d, hz, h⟩ := h
  obtain ⟨hd, rfl⟩ := letter_of_value? hz
  cases h
  rw [encode_threeBytes ha hb hc hd, encode]

/-- Nothing but written forms is read. -/
theorem encode_of_decode {cs : List Char} {bytes : Bytes} (h : decode cs = some bytes) :
    encode bytes = cs := by
  induction cs using decode.induct generalizing bytes with
  | case1 =>
      cases h
      rfl
  | case2 w x y z => exact encode_of_decodeLast h
  | case3 w x y z rest hne ih =>
      rw [decode] at h
      · simp only [Option.bind_eq_bind, Option.bind_eq_some_iff] at h
        obtain ⟨a, hw, b, hx, c, hy, d, hz, tail, htail, h⟩ := h
        obtain ⟨ha, rfl⟩ := letter_of_value? hw
        obtain ⟨hb, rfl⟩ := letter_of_value? hx
        obtain ⟨hc, rfl⟩ := letter_of_value? hy
        obtain ⟨hd, rfl⟩ := letter_of_value? hz
        cases h
        rw [encode_threeBytes ha hb hc hd, ih htail]
      · exact hne
  | case4 cs hnil hlast hgroup =>
      rw [decode] at h
      · cases h
      · exact hnil
      · exact hlast
      · exact hgroup

/-- **Base 64 is exact**: a text is read as a byte string if it is the written form of it, and not
otherwise. -/
theorem decode_eq_some_iff {cs : List Char} {bytes : Bytes} :
    decode cs = some bytes ↔ cs = encode bytes := by
  constructor
  · intro h
    exact (encode_of_decode h).symm
  · rintro rfl
    exact decode_encode bytes

end HttpServer.Base64
