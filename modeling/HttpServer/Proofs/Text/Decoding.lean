import HttpServer.Proofs.Text.Encoding

/-!
# Text read off the wire is what was written

Strict reading accepts nothing but the bytes of a text: what it reads as a character are the bytes
of this character (`Utf8.encodeChar_append_of_front`), so a byte string that spells a text is the
one that writing this text gives (`Utf8.toStringStrict_eq_ok_iff`). Lenient reading loses no bytes
altogether: only the empty byte string is read as the empty text
(`Utf8.toStringLossy_eq_empty_iff`). Nor does it make up characters, but for the replacement
character (`Utf8.mem_of_mem_decodeLossy`).
-/

namespace HttpServer

namespace Utf8

/-- The number of a character that is neither a surrogate nor too large. -/
theorem toNat_ofNat_of_valid {n : Nat} (h : n < 0xD800 ∨ (0xDFFF < n ∧ n < 0x110000)) :
    (Char.ofNat n).toNat = n := by
  have hvalid : n.isValidChar := h
  rw [Char.ofNat, dif_pos hvalid]
  rfl

theorem toUInt8_eq {n : Nat} {b : UInt8} (h : b.toNat = n) : n.toUInt8 = b := by
  rw [← h]
  simp

/-- The first byte of a character announces its bits, how many bytes follow, and which second bytes
are allowed. -/
theorem of_ofByte? {b : Nat} {lead : Lead} (h : Lead.ofByte? b = some lead) :
    (lead.more = 0 ∧ b = 0xC0 + lead.bits ∧ 2 ≤ lead.bits ∧ lead.bits < 32 ∧
      lead.low = 0x80 ∧ lead.high = 0xBF) ∨
    (lead.more = 1 ∧ b = 0xE0 + lead.bits ∧ lead.bits < 16 ∧
      lead.low = (if lead.bits = 0 then 0xA0 else 0x80) ∧
      lead.high = (if lead.bits = 13 then 0x9F else 0xBF)) ∨
    (lead.more = 2 ∧ b = 0xF0 + lead.bits ∧ lead.bits < 5 ∧
      lead.low = (if lead.bits = 0 then 0x90 else 0x80) ∧
      lead.high = (if lead.bits = 4 then 0x8F else 0xBF)) := by
  unfold Lead.ofByte? at h
  repeat' split at h
  all_goals simp only [reduceCtorEq, Option.some.injEq] at h
  all_goals
    subst h
    dsimp only
  · exact .inl ⟨rfl, by omega, by omega, by omega, rfl, rfl⟩
  · exact .inr (.inl ⟨rfl, by omega, by omega, rfl, rfl⟩)
  · exact .inr (.inl ⟨rfl, by omega, by omega, rfl, rfl⟩)
  · exact .inr (.inl ⟨rfl, by omega, by omega, by rw [if_neg (by omega)],
      by rw [if_neg (by omega)]⟩)
  · exact .inr (.inr ⟨rfl, by omega, by omega, rfl, rfl⟩)
  · exact .inr (.inr ⟨rfl, by omega, by omega, by rw [if_neg (by omega)],
      by rw [if_neg (by omega)]⟩)
  · exact .inr (.inr ⟨rfl, by omega, by omega, rfl, rfl⟩)

/-- A character is complete when no more bytes are due. -/
theorem of_continued_zero {bits width : Nat} {bs rest : Bytes} {c : Char}
    (h : continued bits width 0 bs = .char c rest) : c = Char.ofNat bits ∧ bs = rest := by
  rw [continued] at h
  cases h
  exact ⟨rfl, rfl⟩

/-- While more are due, the next byte is one that goes on. -/
theorem of_continued_succ {bits width more : Nat} {bs rest : Bytes} {c : Char}
    (h : continued bits width (more + 1) bs = .char c rest) :
    ∃ b tail, bs = b :: tail ∧ 0x80 ≤ b.toNat ∧ b.toNat ≤ 0xBF ∧
      continued (bits * 64 + (b.toNat - 0x80)) (width + 1) more tail = .char c rest := by
  cases bs with
  | nil => cases h
  | cons b tail =>
      rw [continued] at h
      split at h
      · rename_i hrange
        exact ⟨b, tail, rfl, hrange.1, hrange.2, h⟩
      · cases h

/-- A character in two bytes is written in those that it was read from. -/
theorem encodeChar_two {n : Nat} {a b : UInt8} (hn : 0x80 ≤ n ∧ n < 0x800)
    (ha : a.toNat = 0xC0 + n / 64) (hb : b.toNat = 0x80 + n % 64) :
    encodeChar (Char.ofNat n) = [a, b] := by
  rw [encodeChar, toNat_ofNat_of_valid (by omega)]
  rw [if_neg (by omega), if_pos hn.2, toUInt8_eq ha, toUInt8_eq hb]

theorem encodeChar_three {n : Nat} {a b c : UInt8} (hn : 0x800 ≤ n ∧ n < 0x10000)
    (hvalid : n < 0xD800 ∨ 0xDFFF < n) (ha : a.toNat = 0xE0 + n / 4096)
    (hb : b.toNat = 0x80 + n / 64 % 64) (hc : c.toNat = 0x80 + n % 64) :
    encodeChar (Char.ofNat n) = [a, b, c] := by
  rw [encodeChar, toNat_ofNat_of_valid (by omega)]
  rw [if_neg (by omega), if_neg (by omega), if_pos hn.2, toUInt8_eq ha, toUInt8_eq hb,
    toUInt8_eq hc]

theorem encodeChar_four {n : Nat} {a b c d : UInt8} (hn : 0x10000 ≤ n ∧ n < 0x110000)
    (ha : a.toNat = 0xF0 + n / 262144) (hb : b.toNat = 0x80 + n / 4096 % 64)
    (hc : c.toNat = 0x80 + n / 64 % 64) (hd : d.toNat = 0x80 + n % 64) :
    encodeChar (Char.ofNat n) = [a, b, c, d] := by
  rw [encodeChar, toNat_ofNat_of_valid (by omega)]
  rw [if_neg (by omega), if_neg (by omega), if_neg (by omega), toUInt8_eq ha, toUInt8_eq hb,
    toUInt8_eq hc, toUInt8_eq hd]

/-- **What is read as a character are the bytes of this character.** -/
theorem encodeChar_append_of_front {b : UInt8} {bs rest : Bytes} {c : Char}
    (h : front b bs = .char c rest) : encodeChar c ++ rest = b :: bs := by
  unfold front at h
  split at h
  · rename_i hb
    cases h
    rw [encodeChar, toNat_ofNat hb, if_pos hb, toUInt8_eq rfl]
    rfl
  split at h
  · cases h
  · cases h
  rename_i lead second tail hlead
  split at h
  swap
  · cases h
  -- How many bytes follow the second one is told by the first one.
  rename_i hsecond
  rcases of_ofByte? hlead with ⟨hmore, hb, hleast, hmost, hlow, hhigh⟩ |
    ⟨hmore, hb, hmost, hlow, hhigh⟩ | ⟨hmore, hb, hmost, hlow, hhigh⟩
  · rw [hmore] at h
    obtain ⟨hc, hrest⟩ := of_continued_zero h
    rw [hc, hrest, encodeChar_two (a := b) (b := second) (by omega) (by omega) (by omega)]
    rfl
  · rw [hmore] at h
    obtain ⟨third, last, rfl, hleast, hmost', h⟩ := of_continued_succ h
    obtain ⟨hc, hrest⟩ := of_continued_zero h
    rw [hc, hrest]
    split at hlow <;> split at hhigh <;>
      rw [encodeChar_three (a := b) (b := second) (c := third) (by omega) (by omega) (by omega)
        (by omega) (by omega)] <;> rfl
  · rw [hmore] at h
    obtain ⟨third, last, rfl, hleast, hmost', h⟩ := of_continued_succ h
    obtain ⟨fourth, last, rfl, hleast', hmost'', h⟩ := of_continued_succ h
    obtain ⟨hc, hrest⟩ := of_continued_zero h
    rw [hc, hrest]
    split at hlow <;> split at hhigh <;>
      rw [encodeChar_four (a := b) (b := second) (c := third) (d := fourth) (by omega) (by omega)
        (by omega) (by omega) (by omega)] <;> rfl

/-- Some piece is read of any bytes. -/
theorem pieces_cons_ne_nil (b : UInt8) (bs : Bytes) : pieces (b :: bs) ≠ [] := by
  rw [pieces]
  split <;> simp

/-- **Pieces without a fault spell what was read**, by induction on them. -/
theorem encode_of_collect {bs : Bytes} {index : Nat} {cs : List Char}
    (h : collect index (pieces bs) = .ok cs) : encode cs = bs := by
  induction bs using pieces.induct generalizing index cs with
  | case1 =>
      rw [pieces] at h
      cases h
      rfl
  | case2 b bs c rest hfront ih =>
      have hpieces : pieces (b :: bs) = .char c :: pieces rest := by
        rw [pieces]
        split <;> simp_all
      rw [hpieces, collect] at h
      cases hrest : collect (index + (encodeChar c).length) (pieces rest) with
      | error e =>
          rw [hrest] at h
          cases h
      | ok tail =>
          rw [hrest] at h
          cases h
          rw [encode, List.flatMap_cons, ← encode, ih hrest]
          exact encodeChar_append_of_front hfront
  | case3 b bs width rest hfront ih =>
      rw [pieces] at h
      split at h <;> simp_all [collect]
  | case4 b bs hfront =>
      rw [pieces] at h
      split at h <;> simp_all [collect]

/-- Bytes are read as a text exactly if they are those in which it is written. -/
theorem decode_eq_ok_iff {bs : Bytes} {cs : List Char} : decode bs = .ok cs ↔ bs = encode cs := by
  constructor
  · intro h
    exact (encode_of_collect h).symm
  · rintro rfl
    rw [decode, pieces_encode, collect_map_char]

/-- **Reading and back.** A byte string spells a text exactly if it consists of the bytes of this
text. -/
theorem toStringStrict_eq_ok_iff {bs : Bytes} {s : String} :
    toStringStrict bs = .ok s ↔ bs = ofString s := by
  constructor
  · intro h
    rw [toStringStrict] at h
    cases hdecode : decode bs with
    | error e =>
        rw [hdecode] at h
        cases h
    | ok cs =>
        rw [hdecode] at h
        cases h
        rw [ofString, String.toList_ofList, encode_of_collect hdecode]
  · rintro rfl
    exact toStringStrict_ofString s

/-- The bytes of a text are read leniently as this text. -/
theorem toStringLossy_encode (cs : List Char) : toStringLossy (encode cs) = String.ofList cs := by
  rw [toStringLossy, decodeLossy, pieces_encode, List.map_map]
  exact congrArg String.ofList (List.map_id cs)

/-- Only nothing is read as the empty text. -/
theorem toStringLossy_eq_empty_iff {bs : Bytes} : toStringLossy bs = "" ↔ bs = [] := by
  cases bs with
  | nil =>
      refine iff_of_true ?_ rfl
      rw [toStringLossy, decodeLossy, pieces]
      rfl
  | cons b bs =>
      refine iff_of_false (fun h => pieces_cons_ne_nil b bs ?_) (List.cons_ne_nil b bs)
      have hchars : decodeLossy (b :: bs) = [] := by
        rw [← String.toList_ofList (l := decodeLossy (b :: bs))]
        exact congrArg String.toList h
      exact List.map_eq_nil_iff.1 hchars

/-- Reading a character takes bytes from the front alone. -/
theorem suffix_rest_continued (bits width more : Nat) (bs : Bytes) :
    (continued bits width more bs).rest <:+ bs := by
  induction more generalizing bits width bs with
  | zero => exact List.suffix_refl bs
  | succ more ih =>
      cases bs with
      | nil => exact List.suffix_refl []
      | cons b bs =>
          rw [continued]
          split
          · exact (ih _ _ bs).trans (List.suffix_cons b bs)
          · exact List.suffix_refl (b :: bs)

theorem suffix_rest_front (b : UInt8) (bs : Bytes) : (front b bs).rest <:+ bs := by
  unfold front
  split
  · exact List.suffix_refl bs
  split
  · exact List.suffix_refl _
  · exact List.suffix_refl []
  split
  · exact (suffix_rest_continued _ _ _ _).trans (List.suffix_cons _ _)
  · exact List.suffix_refl _

/-- Lenient reading makes up no character but the replacement character: the bytes of all others
were there. -/
theorem mem_of_mem_decodeLossy {bs : Bytes} {c : Char} (h : c ∈ decodeLossy bs) :
    c = replacement ∨ ∀ b ∈ encodeChar c, b ∈ bs := by
  rw [decodeLossy, List.mem_map] at h
  obtain ⟨piece, hmem, hpiece⟩ := h
  induction bs using pieces.induct with
  | case1 =>
      rw [pieces] at hmem
      cases hmem
  | case2 b bs first rest hfront ih =>
      have hpieces : pieces (b :: bs) = .char first :: pieces rest := by
        rw [pieces]
        split <;> simp_all
      have hbytes := encodeChar_append_of_front hfront
      rw [hpieces, List.mem_cons] at hmem
      rcases hmem with rfl | hmem
      · refine .inr fun other hother => ?_
        rw [← hpiece] at hother
        rw [← hbytes]
        exact List.mem_append_left _ hother
      · refine (ih hmem).imp id fun hall other hother => ?_
        rw [← hbytes]
        exact List.mem_append_right _ (hall other hother)
  | case3 b bs width rest hfront ih =>
      have hpieces : pieces (b :: bs) = .malformed width :: pieces rest := by
        rw [pieces]
        split <;> simp_all
      have hrest : rest <:+ bs := by simpa [hfront, Front.rest] using suffix_rest_front b bs
      rw [hpieces, List.mem_cons] at hmem
      rcases hmem with rfl | hmem
      · exact .inl hpiece.symm
      · refine (ih hmem).imp id fun hall other hother => ?_
        exact List.mem_cons_of_mem b (hrest.mem (hall other hother))
  | case4 b bs hfront =>
      have hpieces : pieces (b :: bs) = [.truncated] := by
        rw [pieces]
        split <;> simp_all
      rw [hpieces, List.mem_singleton] at hmem
      rw [hmem] at hpiece
      exact .inl hpiece.symm

end Utf8

end HttpServer
