import HttpServer.Proofs.Text.Decoding
import HttpServer.Text.Form
import Mathlib.Data.List.Forall2

/-!
# Escaped text

A byte can be written as it is or by its number: a percent sign and two hexadecimal digits in either
case (`Percent.ByNumber`). A path must write by number what would end it, and a form what would end
a name or a value; beyond that the writer is free (`Percent.InPath`, `Form.InForm`), and in a form
it may also write the space as a plus sign. Reading undoes every such writing: the text of a path
comes back (`Percent.decodeText_of_written`), and so do the pairs of a form in their order
(`Form.decode_of_spells`).
-/

namespace HttpServer

/-- Each byte is written in one of the ways that are allowed for it. -/
def Written (way : UInt8 → Bytes → Prop) (bs text : Bytes) : Prop :=
  ∃ pieces, List.Forall₂ way bs pieces ∧ text = pieces.flatten

namespace Written

variable {way : UInt8 → Bytes → Prop}

theorem nil : Written way [] [] := ⟨[], .nil, rfl⟩

/-- A byte more is written in one of its ways. -/
theorem cons {b : UInt8} {piece bs text : Bytes} (hpiece : way b piece) (h : Written way bs text) :
    Written way (b :: bs) (piece ++ text) := by
  obtain ⟨pieces, hpieces, rfl⟩ := h
  exact ⟨piece :: pieces, .cons hpiece hpieces, rfl⟩

/-- What is written byte by byte satisfies what each way of writing does. -/
theorem forall_mem {good : UInt8 → Prop} {bs text : Bytes} (h : Written way bs text)
    (hway : ∀ b piece, way b piece → ∀ c ∈ piece, good c) : ∀ c ∈ text, good c := by
  obtain ⟨pieces, hpieces, rfl⟩ := h
  induction hpieces with
  | nil => nofun
  | cons hpiece _ ih =>
      intro c hc
      rw [List.flatten_cons, List.mem_append] at hc
      rcases hc with hc | hc
      · exact hway _ _ hpiece c hc
      · exact ih c hc

/-- A text that is written one byte after the other, each by the same rule. -/
theorem flatMap {f : UInt8 → Bytes} (hf : ∀ b, way b (f b)) (bs : Bytes) :
    Written way bs (bs.flatMap f) := by
  induction bs with
  | nil => exact nil
  | cons b bs ih => exact cons (hf b) ih

end Written

namespace Percent

/-- The hexadecimal digit for a number below sixteen, in both cases. -/
def digitsFor (n : Nat) : Bytes := [n.digitChar.toNat.toUInt8, n.digitChar.toUpper.toNat.toUInt8]

/-- The byte is written by its number. -/
def ByNumber (b : UInt8) (piece : Bytes) : Prop :=
  ∃ high ∈ digitsFor (b.toNat / 16), ∃ low ∈ digitsFor (b.toNat % 16), piece = [0x25, high, low]

instance (b : UInt8) (piece : Bytes) : Decidable (ByNumber b piece) := by
  unfold ByNumber
  infer_instance

/-- The byte is written by its number or, if it need not be hidden, as it is. -/
def Escapes (hidden : List UInt8) (b : UInt8) (piece : Bytes) : Prop :=
  (b ∉ hidden ∧ piece = [b]) ∨ ByNumber b piece

instance (hidden : List UInt8) (b : UInt8) (piece : Bytes) : Decidable (Escapes hidden b piece) :=
  inferInstanceAs (Decidable (_ ∨ _))

/-- A path hides the percent sign, the question mark and the number sign. -/
def InPath : UInt8 → Bytes → Prop := Escapes [0x25, 0x3F, 0x23]

instance (b : UInt8) (piece : Bytes) : Decidable (InPath b piece) :=
  inferInstanceAs (Decidable (Escapes _ _ _))

/-- A digit is read in either case. -/
theorem digit?_of_mem_digitsFor {n : Nat} (hn : n < 16) {d : UInt8} (hd : d ∈ digitsFor n) :
    digit? d = some n := by
  have all : ∀ m : Fin 16, ∀ d ∈ digitsFor m.val, digit? d = some m.val := by
    decide +kernel
  exact all ⟨n, hn⟩ d hd

/-- The signs that have a meaning of their own in a path or a form. -/
def specialSigns : Bytes := [0x20, 0x23, 0x25, 0x26, 0x2B, 0x3D, 0x3F]

/-- No digit is a sign that means anything else. -/
theorem not_mem_of_mem_digitsFor {n : Nat} (hn : n < 16) {d : UInt8} (hd : d ∈ digitsFor n) :
    d ∉ specialSigns ∧ d.toNat < 0x80 := by
  have all : ∀ m : Fin 16, ∀ d ∈ digitsFor m.val, d ∉ specialSigns ∧ d.toNat < 0x80 := by
    decide +kernel
  exact all ⟨n, hn⟩ d hd

theorem toNat_div_lt (b : UInt8) : b.toNat / 16 < 16 := by
  have := b.toNat_lt
  omega

theorem toNat_mod_lt (b : UInt8) : b.toNat % 16 < 16 := Nat.mod_lt _ (by omega)

/-- What is written by number is a percent sign and digits. -/
theorem ByNumber.mem {b c : UInt8} {piece : Bytes} (h : ByNumber b piece) (hc : c ∈ piece) :
    c = 0x25 ∨ (c ∉ specialSigns ∧ c.toNat < 0x80) := by
  obtain ⟨high, hhigh, low, hlow, rfl⟩ := h
  simp only [List.mem_cons, List.not_mem_nil, or_false] at hc
  rcases hc with rfl | rfl | rfl
  · exact .inl rfl
  · exact .inr (not_mem_of_mem_digitsFor (toNat_div_lt b) hhigh)
  · exact .inr (not_mem_of_mem_digitsFor (toNat_mod_lt b) hlow)

/-- What is not among the signs to hide is none of them. -/
theorem ne_of_plain {hidden : List UInt8} {b c : UInt8} (hplain : b ∉ hidden)
    (hc : hidden.contains c = true) : b ≠ c := by
  rintro rfl
  exact hplain (List.contains_iff_mem.1 hc)

/-! ## Reading -/

/-- A byte is read back from its two digits. -/
theorem byte?_of_digits {b high low : UInt8} (hhigh : high ∈ digitsFor (b.toNat / 16))
    (hlow : low ∈ digitsFor (b.toNat % 16)) : byte? high low = some b := by
  have hnumber : (b.toNat / 16 * 16 + b.toNat % 16).toUInt8 = b :=
    Utf8.toUInt8_eq (Nat.div_add_mod' _ _).symm
  rw [byte?, digit?_of_mem_digitsFor (toNat_div_lt b) hhigh,
    digit?_of_mem_digitsFor (toNat_mod_lt b) hlow]
  exact congrArg some hnumber

/-- A byte that is no percent sign stands for itself. -/
theorem decode_cons_of_ne {b : UInt8} (h : b ≠ sign) (bs : Bytes) :
    decode (b :: bs) = b :: decode bs := by
  match bs with
  | [] => rfl
  | [_] => rfl
  | _ :: _ :: _ => rw [decode, if_neg h]

/-- A byte that is written by number is read back, whatever follows. -/
theorem decode_byNumber {b : UInt8} {piece : Bytes} (h : ByNumber b piece) (rest : Bytes) :
    decode (piece ++ rest) = b :: decode rest := by
  obtain ⟨high, hhigh, low, hlow, rfl⟩ := h
  have hsign : (0x25 : UInt8) = sign := rfl
  simp only [List.cons_append, List.nil_append]
  rw [decode, if_pos hsign, byte?_of_digits hhigh hlow]

/-- Reading undoes writing where it undoes each way of writing a byte. What is written may be
changed on the way, as where a plus sign becomes a space. -/
theorem decode_of_written {way : UInt8 → Bytes → Prop} {change : UInt8 → UInt8}
    (hway : ∀ b piece rest, way b piece → decode (piece.map change ++ rest) = b :: decode rest)
    {bs text : Bytes} (h : Written way bs text) : decode (text.map change) = bs := by
  obtain ⟨pieces, hpieces, rfl⟩ := h
  induction hpieces with
  | nil => rfl
  | cons hpiece _ ih => rw [List.flatten_cons, List.map_append, hway _ _ _ hpiece, ih]

/-- **Reading a path undoes every way of writing it.** -/
theorem decodeText_of_written {s text : String}
    (h : Written InPath (Utf8.ofString s) (Utf8.ofString text)) : decodeText text = s := by
  have hdecode : decode ((Utf8.ofString text).map id) = Utf8.ofString s := by
    apply decode_of_written _ h
    intro b piece rest hpiece
    rw [List.map_id]
    rcases hpiece with ⟨hplain, rfl⟩ | hnumber
    · exact decode_cons_of_ne (ne_of_plain hplain rfl) rest
    · exact decode_byNumber hnumber rest
  rw [List.map_id] at hdecode
  rw [decodeText, hdecode, Utf8.toStringStrict_ofString]

/-- A written path holds nothing that would end it. -/
theorem border_not_mem_of_written {bs text : Bytes} (h : Written InPath bs text) :
    ∀ c ∈ text, c ≠ 0x3F ∧ c ≠ 0x23 := by
  refine h.forall_mem fun b piece hpiece c hc => ?_
  rcases hpiece with ⟨hplain, rfl⟩ | hnumber
  · rw [List.mem_singleton] at hc
    subst hc
    exact ⟨ne_of_plain hplain rfl, ne_of_plain hplain rfl⟩
  · rcases hnumber.mem hc with rfl | ⟨hsafe, -⟩
    · decide
    · exact ⟨ne_of_plain hsafe rfl, ne_of_plain hsafe rfl⟩

/-! ## Writing -/

/-- A byte that must be escaped is written by number. -/
theorem byNumber_encodeByte (b : UInt8) : ByNumber b (encodeByte b) := by
  have all : ∀ m : Fin 16, digit m.val ∈ digitsFor m.val := by decide
  exact ⟨_, all ⟨_, toNat_div_lt b⟩, _, all ⟨_, toNat_mod_lt b⟩, rfl⟩

/-- Writing by number what must be hidden, and anything else, is one of the ways. -/
theorem written_encode {hidden : List UInt8} {chosen : UInt8 → Bool}
    (h : hidden.all chosen = true) (bs : Bytes) :
    Written (Escapes hidden) bs (encode chosen bs) := by
  apply Written.flatMap
  intro b
  split
  · exact .inr (byNumber_encodeByte b)
  · rename_i hplain
    exact .inl ⟨fun hmem => hplain (List.all_eq_true.1 h b hmem), rfl⟩

end Percent

namespace Form

open Percent

/-- A form hides what separates its parts, the percent sign and the number sign, and the space in
one of two ways. -/
def InForm (b : UInt8) (piece : Bytes) : Prop :=
  Escapes [0x20, 0x25, 0x26, 0x3D, 0x2B, 0x23] b piece ∨ (b = 0x20 ∧ piece = [0x2B])

instance (b : UInt8) (piece : Bytes) : Decidable (InForm b piece) :=
  inferInstanceAs (Decidable (_ ∨ _))

/-- A name and a value, around an equals sign. -/
def SpellsPair (pair : String × String) (text : Bytes) : Prop :=
  ∃ name value, Written InForm (Utf8.ofString pair.1) name ∧
    Written InForm (Utf8.ofString pair.2) value ∧ text = name ++ 0x3D :: value

/-- Pairs joined by ampersands. -/
def Spells (ps : List (String × String)) (text : Bytes) : Prop :=
  ∃ texts, List.Forall₂ SpellsPair ps texts ∧ text = List.intercalate [0x26] texts

/-! ## Reading -/

/-- A written name or value holds no separator and nothing that would end the form. -/
theorem border_not_mem_of_written {bs text : Bytes} (h : Written InForm bs text) :
    ∀ c ∈ text, c ≠ 0x26 ∧ c ≠ 0x3D ∧ c ≠ 0x23 := by
  refine h.forall_mem fun b piece hpiece c hc => ?_
  rcases hpiece with (⟨hplain, rfl⟩ | hnumber) | ⟨-, rfl⟩
  · rw [List.mem_singleton] at hc
    subst hc
    exact ⟨ne_of_plain hplain rfl, ne_of_plain hplain rfl, ne_of_plain hplain rfl⟩
  · rcases hnumber.mem hc with rfl | ⟨hsafe, -⟩
    · decide
    · exact ⟨ne_of_plain hsafe rfl, ne_of_plain hsafe rfl, ne_of_plain hsafe rfl⟩
  · rw [List.mem_singleton] at hc
    subst hc
    decide

/-- Where a byte is written by number there is no plus sign to be replaced. -/
theorem map_plusToSpace_byNumber {b : UInt8} {piece : Bytes} (h : ByNumber b piece) :
    piece.map plusToSpace = piece := by
  have hplus : ∀ c ∈ piece, c ≠ 0x2B := by
    intro c hc
    rcases h.mem hc with rfl | ⟨hsafe, -⟩
    · decide
    · exact ne_of_plain hsafe rfl
  calc piece.map plusToSpace = piece.map id := List.map_congr_left fun c hc => if_neg (hplus c hc)
    _ = piece := List.map_id piece

/-- **Reading a name or a value undoes every way of writing it.** -/
theorem decodePart_of_written {s : String} {text : Bytes}
    (h : Written InForm (Utf8.ofString s) text) : decodePart text = s := by
  have hdecode : Percent.decode (text.map plusToSpace) = Utf8.ofString s := by
    apply decode_of_written _ h
    intro b piece rest hpiece
    rcases hpiece with (⟨hplain, rfl⟩ | hnumber) | ⟨rfl, rfl⟩
    · have hplus : plusToSpace b = b := if_neg (ne_of_plain hplain rfl)
      rw [List.map_singleton, hplus]
      exact decode_cons_of_ne (ne_of_plain hplain rfl) rest
    · rw [map_plusToSpace_byNumber hnumber]
      exact decode_byNumber hnumber rest
    · exact decode_cons_of_ne (by decide) rest
  rw [decodePart, hdecode, Utf8.ofString, Utf8.toStringLossy_encode, String.ofList_toList]

/-- **A pair is read back**: the first equals sign is the one between its parts. -/
theorem decodePair_of_spellsPair {pair : String × String} {text : Bytes}
    (h : SpellsPair pair text) : decodePair text = pair := by
  obtain ⟨name, value, hname, hvalue, rfl⟩ := h
  have hclean : ∀ c ∈ name, decide (c ≠ 0x3D) = true := by
    intro c hc
    exact decide_eq_true (border_not_mem_of_written hname c hc).2.1
  have htake : (name ++ 0x3D :: value).takeWhile (· ≠ 0x3D) = name := by
    rw [List.takeWhile_append_of_pos hclean]
    exact List.append_nil name
  have hdrop : ((name ++ 0x3D :: value).dropWhile (· ≠ 0x3D)).drop 1 = value := by
    rw [List.dropWhile_append_of_pos hclean]
    rfl
  rw [decodePair, htake, hdrop, decodePart_of_written hname, decodePart_of_written hvalue]

/-- A pair is never written as nothing: it has its equals sign. -/
theorem SpellsPair.ne_nil {pair : String × String} {text : Bytes} (h : SpellsPair pair text) :
    text ≠ [] := by
  obtain ⟨name, value, -, -, rfl⟩ := h
  exact List.append_ne_nil_of_right_ne_nil _ (List.cons_ne_nil _ _)

/-- A written pair holds nothing that would end it or the form. -/
theorem SpellsPair.mem {pair : String × String} {text : Bytes} (h : SpellsPair pair text) :
    ∀ c ∈ text, c ≠ 0x26 ∧ c ≠ 0x23 := by
  obtain ⟨name, value, hname, hvalue, rfl⟩ := h
  intro c hc
  rcases List.mem_append.1 hc with hc | hc
  · obtain ⟨hamp, -, hnumber⟩ := border_not_mem_of_written hname c hc
    exact ⟨hamp, hnumber⟩
  rcases List.mem_cons.1 hc with rfl | hc
  · decide
  · obtain ⟨hamp, -, hnumber⟩ := border_not_mem_of_written hvalue c hc
    exact ⟨hamp, hnumber⟩

/-- Pairs are what stands between the ampersands. -/
theorem pairs_eq_splitOn (bs : Bytes) : pairs bs = bs.splitOn 0x26 := by
  induction bs with
  | nil => rfl
  | cons b bs ih =>
      rw [pairs, ih, List.splitOn_cons_eq_if_modifyHead]
      by_cases hb : b = 0x26
      · rw [if_pos hb, if_pos (beq_iff_eq.2 hb)]
      · rw [if_neg hb, if_neg (fun hamp => hb (beq_iff_eq.1 hamp))]
        cases hparts : bs.splitOn 0x26 with
        | nil => exact absurd hparts (List.splitOn_ne_nil _ _)
        | cons first rest => rfl

/-- Pairs are read back one by one. -/
theorem map_decodePair_of_forall₂ {ps : List (String × String)} {texts : List Bytes}
    (h : List.Forall₂ SpellsPair ps texts) : (texts.filter (· ≠ [])).map decodePair = ps := by
  induction h with
  | nil => rfl
  | cons hpair _ ih =>
      rw [List.filter_cons_of_pos (by simpa using hpair.ne_nil), List.map_cons,
        decodePair_of_spellsPair hpair, ih]

/-- In what a pair is written in, nothing ends it or the form. -/
theorem border_not_mem_of_forall₂ {ps : List (String × String)} {texts : List Bytes}
    (h : List.Forall₂ SpellsPair ps texts) : ∀ text ∈ texts, ∀ c ∈ text, c ≠ 0x26 ∧ c ≠ 0x23 := by
  induction h with
  | nil => nofun
  | cons hpair _ ih => exact List.forall_mem_cons.2 ⟨hpair.mem, ih⟩

/-- What stands in a joined text stands in one of its parts or between them. -/
theorem mem_intercalate {c : UInt8} {separator : Bytes} {texts : List Bytes}
    (h : c ∈ List.intercalate separator texts) : c ∈ separator ∨ ∃ text ∈ texts, c ∈ text := by
  induction texts with
  | nil => cases h
  | cons text texts ih =>
      cases texts with
      | nil =>
          rw [List.intercalate_singleton] at h
          exact .inr ⟨text, List.mem_cons_self, h⟩
      | cons next texts =>
          rw [List.intercalate_cons_cons, List.mem_append, List.mem_append] at h
          rcases h with (h | h) | h
          · exact .inr ⟨text, List.mem_cons_self, h⟩
          · exact .inl h
          · rcases ih h with h | ⟨other, hother, h⟩
            · exact .inl h
            · exact .inr ⟨other, List.mem_cons_of_mem _ hother, h⟩

/-- **Reading a form undoes every way of writing it.** -/
theorem decode_of_spells {ps : List (String × String)} {query : String}
    (h : Spells ps (Utf8.ofString query)) : Form.decode query = ps := by
  obtain ⟨texts, htexts, hquery⟩ := h
  rw [Form.decode, hquery, pairs_eq_splitOn]
  by_cases hnil : texts = []
  · subst hnil
    cases htexts
    rfl
  · have hclean : ∀ text ∈ texts, (0x26 : UInt8) ∉ text := by
      intro text htext hamp
      exact (border_not_mem_of_forall₂ htexts text htext _ hamp).1 rfl
    rw [List.splitOn_intercalate 0x26 hclean hnil]
    exact map_decodePair_of_forall₂ htexts

/-- A written form holds nothing that would end it. -/
theorem Spells.numberSign_not_mem {ps : List (String × String)} {text : Bytes}
    (h : Spells ps text) : ∀ c ∈ text, c ≠ 0x23 := by
  obtain ⟨texts, htexts, rfl⟩ := h
  intro c hc
  rcases mem_intercalate hc with hc | ⟨piece, hpiece, hc⟩
  · rw [List.mem_singleton] at hc
    subst hc
    decide
  · exact (border_not_mem_of_forall₂ htexts piece hpiece c hc).2

/-! ## Writing -/

/-- The way that the library writes is one of the ways. -/
theorem written_encodePart (s : String) : Written InForm (Utf8.ofString s) (encodePart s) := by
  apply Written.flatMap
  intro b
  split
  · rename_i hspace
    exact .inr ⟨hspace, rfl⟩
  split
  · exact .inl (.inr (byNumber_encodeByte b))
  · rename_i hspace hplain
    refine .inl (.inl ⟨fun hmem => hplain ?_, rfl⟩)
    have all : [0x20, 0x25, 0x26, 0x3D, 0x2B, 0x23].all isWrittenByNumber = true := rfl
    exact List.all_eq_true.1 all b hmem

/-- One pair, with a number for all but letters, digits and a few signs. -/
def encodePair (pair : String × String) : Bytes := encodePart pair.1 ++ 0x3D :: encodePart pair.2

/-- Pairs are joined with ampersands between them. -/
theorem encode_eq_intercalate (ps : List (String × String)) :
    encode ps = List.intercalate [0x26] (ps.map encodePair) := by
  induction ps with
  | nil => rfl
  | cons pair ps ih =>
      cases ps with
      | nil => exact List.intercalate_singleton.symm
      | cons next ps =>
          rw [List.map_cons, List.map_cons, List.intercalate_cons_cons, ← List.map_cons, ← ih,
            List.append_assoc]
          rfl

/-- Writing by number all but letters, digits and a few signs is one of the ways. -/
theorem spells_encode (ps : List (String × String)) : Spells ps (encode ps) := by
  refine ⟨ps.map encodePair, ?_, encode_eq_intercalate ps⟩
  apply List.forall₂_map_right_iff.2
  apply List.forall₂_same.2
  intro pair _
  exact ⟨_, _, written_encodePart pair.1, written_encodePart pair.2, rfl⟩

/-! The bytes of that way are those of ASCII. -/

theorem toNat_lt_of_mem_escaped {b c : UInt8}
    (h : c ∈ if isWrittenByNumber b then encodeByte b else [b]) : c.toNat < 0x80 := by
  split at h
  · rcases (byNumber_encodeByte b).mem h with rfl | ⟨-, hlow⟩
    · decide
    · exact hlow
  · rename_i hplain
    rw [List.mem_singleton] at h
    subst h
    by_contra hhigh
    apply hplain
    simp only [isWrittenByNumber, Bool.not_eq_true', Bool.or_eq_false_iff, Bool.and_eq_false_iff,
      decide_eq_false_iff_not, beq_eq_false_iff_ne]
    omega

theorem toNat_lt_of_mem_encodePart {s : String} {c : UInt8} (h : c ∈ encodePart s) :
    c.toNat < 0x80 := by
  obtain ⟨b, -, hc⟩ := List.mem_flatMap.1 h
  split at hc
  · rw [List.mem_singleton] at hc
    subst hc
    decide
  · exact toNat_lt_of_mem_escaped hc

theorem toNat_lt_of_mem_encode {ps : List (String × String)} {c : UInt8} (h : c ∈ encode ps) :
    c.toNat < 0x80 := by
  rw [encode_eq_intercalate] at h
  rcases mem_intercalate h with h | ⟨text, htext, h⟩
  · rw [List.mem_singleton] at h
    subst h
    decide
  · obtain ⟨pair, -, rfl⟩ := List.mem_map.1 htext
    rcases List.mem_append.1 h with h | h
    · exact toNat_lt_of_mem_encodePart h
    rcases List.mem_cons.1 h with rfl | h
    · decide
    · exact toNat_lt_of_mem_encodePart h

end Form

end HttpServer
