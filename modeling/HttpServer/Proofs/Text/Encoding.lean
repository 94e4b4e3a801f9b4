import HttpServer.Text.Utf8
import Mathlib.Tactic.IntervalCases

/-!
# Text survives the wire

Each character is read back from its bytes, whatever follows them (`Utf8.front_encodeChar`), so
strict reading undoes writing (`Utf8.toStringStrict_ofString`). A byte below 0x80 stands for nothing
but the character with its number (`Utf8.mem_ofString_iff`): a text without line breaks has no byte
of a line break either.
-/

namespace HttpServer

namespace Utf8

theorem toNat_toUInt8 {n : Nat} (h : n < 256) : n.toUInt8.toNat = n := by
  simp [Nat.mod_eq_of_lt h]

/-- A character is no surrogate, and not too large. -/
theorem toNat_valid (c : Char) : c.toNat < 0xD800 ∨ (0xDFFF < c.toNat ∧ c.toNat < 0x110000) :=
  c.valid

/-- Every number below 0x80 is that of a character. -/
theorem toNat_ofNat {n : Nat} (h : n < 0x80) : (Char.ofNat n).toNat = n := by
  have all : ∀ m : Fin 0x80, (Char.ofNat m.val).toNat = m.val := by decide
  exact all ⟨n, h⟩

/-- A leading byte and the first byte behind it, which has to be in the range that the leading one
allows, begin a character. -/
theorem front_of_lead {b low : Nat} {lead : Lead} (hb : 0x80 ≤ b ∧ b < 0x100)
    (hlead : Lead.ofByte? b = some lead) (hlow : low < 64)
    (hrange : lead.low ≤ 0x80 + low ∧ 0x80 + low ≤ lead.high) (bs : Bytes) :
    front b.toUInt8 ((0x80 + low).toUInt8 :: bs) =
      continued (lead.bits * 64 + low) 2 lead.more bs := by
  have hfirst : b.toUInt8.toNat = b := toNat_toUInt8 hb.2
  have hsecond : (0x80 + low).toUInt8.toNat = 0x80 + low := toNat_toUInt8 (by omega)
  simp only [front, hfirst, if_neg (Nat.not_lt.2 hb.1), hlead, hsecond, if_pos hrange,
    Nat.add_sub_cancel_left]

/-- A further byte adds its six bits to a character. -/
theorem continued_tail (bits width more : Nat) {low : Nat} (h : low < 64) (bs : Bytes) :
    continued bits width (more + 1) ((0x80 + low).toUInt8 :: bs) =
      continued (bits * 64 + low) (width + 1) more bs := by
  have hbyte : (0x80 + low).toUInt8.toNat = 0x80 + low := toNat_toUInt8 (by omega)
  have hrange : 0x80 ≤ 0x80 + low ∧ 0x80 + low ≤ 0xBF := by omega
  rw [continued, hbyte, if_pos hrange, Nat.add_sub_cancel_left]

/-- The leading bytes of characters in two bytes. -/
theorem ofByte?_two {m : Nat} (hlow : 2 ≤ m) (hhigh : m < 32) :
    Lead.ofByte? (0xC0 + m) = some ⟨m, 0, 0x80, 0xBF⟩ := by
  interval_cases m <;> rfl

/-- The leading bytes of characters in three bytes. The ranges leave out what would fit into two,
and the surrogates. -/
theorem ofByte?_three {m : Nat} (h : m < 16) :
    Lead.ofByte? (0xE0 + m) =
      some ⟨m, 1, if m = 0 then 0xA0 else 0x80, if m = 13 then 0x9F else 0xBF⟩ := by
  interval_cases m <;> rfl

/-- The leading bytes of characters in four bytes. The ranges leave out what would fit into three,
and what is no character. -/
theorem ofByte?_four {m : Nat} (h : m < 5) :
    Lead.ofByte? (0xF0 + m) =
      some ⟨m, 2, if m = 0 then 0x90 else 0x80, if m = 4 then 0x8F else 0xBF⟩ := by
  interval_cases m <;> rfl

/-- A character in two bytes is read back. -/
theorem front_two {n : Nat} (hlow : 0x80 ≤ n) (hhigh : n < 0x800) (rest : Bytes) :
    front (0xC0 + n / 64).toUInt8 ((0x80 + n % 64).toUInt8 :: rest) =
      .char (Char.ofNat n) rest := by
  have hlead := ofByte?_two (m := n / 64) (by omega) (by omega)
  have hrange : 0x80 ≤ 0x80 + n % 64 ∧ 0x80 + n % 64 ≤ 0xBF := by omega
  rw [front_of_lead (by omega) hlead (by omega) hrange, continued, Nat.div_add_mod']

/-- A character in three bytes is read back, for these are no surrogates. -/
theorem front_three {n : Nat} (hlow : 0x800 ≤ n) (hhigh : n < 0x10000)
    (hvalid : n < 0xD800 ∨ 0xDFFF < n) (rest : Bytes) :
    front (0xE0 + n / 4096).toUInt8
      ((0x80 + n / 64 % 64).toUInt8 :: (0x80 + n % 64).toUInt8 :: rest) =
      .char (Char.ofNat n) rest := by
  have hlead := ofByte?_three (m := n / 4096) (by omega)
  -- The least and the greatest second byte rule out short spellings and surrogates.
  have hrange : (if n / 4096 = 0 then 0xA0 else 0x80) ≤ 0x80 + n / 64 % 64 ∧
      0x80 + n / 64 % 64 ≤ (if n / 4096 = 13 then 0x9F else 0xBF) := by
    constructor
    · split <;> omega
    · split <;> omega
  have hnumber : (n / 4096 * 64 + n / 64 % 64) * 64 + n % 64 = n := by omega
  rw [front_of_lead (by omega) hlead (by omega) hrange, continued_tail _ _ _ (by omega), continued,
    hnumber]

/-- A character in four bytes is read back. -/
theorem front_four {n : Nat} (hlow : 0x10000 ≤ n) (hhigh : n < 0x110000) (rest : Bytes) :
    front (0xF0 + n / 262144).toUInt8
      ((0x80 + n / 4096 % 64).toUInt8 :: (0x80 + n / 64 % 64).toUInt8 ::
        (0x80 + n % 64).toUInt8 :: rest) = .char (Char.ofNat n) rest := by
  have hlead := ofByte?_four (m := n / 262144) (by omega)
  have hrange : (if n / 262144 = 0 then 0x90 else 0x80) ≤ 0x80 + n / 4096 % 64 ∧
      0x80 + n / 4096 % 64 ≤ (if n / 262144 = 4 then 0x8F else 0xBF) := by
    constructor
    · split <;> omega
    · split <;> omega
  have hnumber :
      ((n / 262144 * 64 + n / 4096 % 64) * 64 + n / 64 % 64) * 64 + n % 64 = n := by omega
  rw [front_of_lead (by omega) hlead (by omega) hrange, continued_tail _ _ _ (by omega),
    continued_tail _ _ _ (by omega), continued, hnumber]

/-- A character is read back from its bytes, and reading goes on behind them. -/
theorem front_encodeChar (c : Char) (rest : Bytes) :
    ∃ b bs, encodeChar c ++ rest = b :: bs ∧ front b bs = .char c rest := by
  have hvalid := toNat_valid c
  have hback : Char.ofNat c.toNat = c := Char.ofNat_toNat c
  simp only [encodeChar]
  generalize c.toNat = n at hvalid hback
  by_cases hone : n < 0x80
  · refine ⟨n.toUInt8, rest, by rw [if_pos hone]; rfl, ?_⟩
    have hbyte : n.toUInt8.toNat = n := toNat_toUInt8 (by omega)
    simp only [front, hbyte, if_pos hone, hback]
  by_cases htwo : n < 0x800
  · refine ⟨_, _, by rw [if_neg hone, if_pos htwo]; rfl, ?_⟩
    rw [List.append_eq, List.singleton_append, front_two (by omega) htwo, hback]
  by_cases hthree : n < 0x10000
  · refine ⟨_, _, by rw [if_neg hone, if_neg htwo, if_pos hthree]; rfl, ?_⟩
    exact (front_three (by omega) hthree (by omega) rest).trans (by rw [hback])
  · refine ⟨_, _, by rw [if_neg hone, if_neg htwo, if_neg hthree]; rfl, ?_⟩
    exact (front_four (by omega) (by omega) rest).trans (by rw [hback])

/-- A character that is written in front of anything is read as one piece. -/
theorem pieces_encodeChar (c : Char) (rest : Bytes) :
    pieces (encodeChar c ++ rest) = .char c :: pieces rest := by
  obtain ⟨b, bs, hbytes, hfront⟩ := front_encodeChar c rest
  rw [hbytes, pieces]
  split
  · rename_i h
    rw [hfront] at h
    cases h
    rfl
  · rename_i h
    rw [hfront] at h
    cases h
  · rename_i h
    rw [hfront] at h
    cases h

/-- A text is read in pieces of one character each. -/
theorem pieces_encode (cs : List Char) : pieces (encode cs) = cs.map .char := by
  induction cs with
  | nil => rw [encode, List.flatMap_nil, pieces, List.map_nil]
  | cons c cs ih =>
      rw [encode, List.flatMap_cons, ← encode, pieces_encodeChar, ih]
      rfl

/-- Pieces that are characters are put together without a fault. -/
theorem collect_map_char (index : Nat) (cs : List Char) :
    collect index (cs.map .char) = .ok cs := by
  induction cs generalizing index with
  | nil => rfl
  | cons c cs ih =>
      rw [List.map_cons, collect, ih]
      rfl

/-- **Writing and back.** The bytes of a text are read as this text. -/
theorem toStringStrict_ofString (s : String) : toStringStrict (ofString s) = .ok s := by
  rw [toStringStrict, ofString, decode, pieces_encode, collect_map_char]
  exact congrArg Except.ok String.ofList_toList

/-- A character is written as the byte of its number, or in bytes from 0x80 on alone. -/
theorem toNat_of_mem_encodeChar {b : UInt8} {c : Char} (h : b ∈ encodeChar c) :
    (c.toNat < 0x80 ∧ b.toNat = c.toNat) ∨ (0x80 ≤ c.toNat ∧ 0x80 ≤ b.toNat) := by
  have hvalid := toNat_valid c
  simp only [encodeChar] at h
  generalize c.toNat = n at h hvalid
  by_cases hone : n < 0x80
  · rw [if_pos hone, List.mem_singleton] at h
    exact .inl ⟨hone, by rw [h, toNat_toUInt8 (by omega)]⟩
  refine .inr ⟨Nat.not_lt.1 hone, ?_⟩
  have hbyte : ∀ m, 0x80 ≤ m → m < 0x100 → 0x80 ≤ m.toUInt8.toNat := by
    intro m hlow hhigh
    rw [toNat_toUInt8 hhigh]
    exact hlow
  rw [if_neg hone] at h
  split at h
  · rcases List.mem_cons.1 h with rfl | h
    · exact hbyte _ (by omega) (by omega)
    · rw [List.mem_singleton.1 h]
      exact hbyte _ (by omega) (by omega)
  split at h
  · simp only [List.mem_cons, List.not_mem_nil, or_false] at h
    rcases h with rfl | rfl | rfl <;> exact hbyte _ (by omega) (by omega)
  · simp only [List.mem_cons, List.not_mem_nil, or_false] at h
    rcases h with rfl | rfl | rfl | rfl <;> exact hbyte _ (by omega) (by omega)

/-- So only one character is written with a byte below 0x80. -/
theorem mem_encodeChar_iff {b : UInt8} (h : b.toNat < 0x80) (c : Char) :
    b ∈ encodeChar c ↔ c.toNat = b.toNat := by
  constructor
  · intro hmem
    rcases toNat_of_mem_encodeChar hmem with ⟨_, hsame⟩ | ⟨_, hlarge⟩
    · exact hsame.symm
    · omega
  · intro hsame
    rw [encodeChar, hsame, if_pos h, List.mem_singleton]
    exact UInt8.toNat_inj.1 (toNat_toUInt8 (by omega)).symm

/-- A byte below 0x80 occurs in the bytes of a text where the character with its number occurs. -/
theorem mem_ofString_iff {b : UInt8} (h : b.toNat < 0x80) (s : String) :
    b ∈ ofString s ↔ Char.ofNat b.toNat ∈ s.toList := by
  rw [ofString, encode, List.mem_flatMap]
  constructor
  · rintro ⟨c, hc, hmem⟩
    rw [← (mem_encodeChar_iff h c).1 hmem, Char.ofNat_toNat]
    exact hc
  · intro hmem
    refine ⟨_, hmem, (mem_encodeChar_iff h _).2 ?_⟩
    exact toNat_ofNat h

/-- Texts are written one after the other. -/
theorem ofString_append (s t : String) : ofString (s ++ t) = ofString s ++ ofString t := by
  rw [ofString, ofString, ofString, encode, String.toList_append, List.flatMap_append]
  rfl

end Utf8

end HttpServer
