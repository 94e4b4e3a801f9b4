import HttpServer.Proofs.Response.HeaderLines

/-!
# When a header is written

What a header must be like to be written, said of the characters and bytes of its pieces
(`ResponseHeader.Writable`). Such a header goes behind what the buffer holds, line by line. Any
other is refused for the first piece that is wrong, wherever that stands, and then nothing is
written (`ResponseHeader.writeTo_all_or_nothing`). A name needs no strange character to be refused:
it may be too long (`ResponseHeader.longNamed_refused`).
-/

namespace HttpServer

/-- A text of ASCII characters has as many bytes as characters. -/
theorem Utf8.length_ofString_of_ascii {s : String} (h : ∀ c ∈ s.toList, c.toNat < 0x80) :
    (ofString s).length = s.toList.length := by
  have hone : ∀ c ∈ s.toList, (encodeChar c).length = 1 := by
    intro c hc
    rw [encodeChar, if_pos (h c hc)]
    rfl
  rw [ofString, encode, List.length_flatMap, List.map_congr_left hone, List.map_const',
    List.sum_replicate_nat, Nat.mul_one]

namespace ResponseHeader

/-- The marks that may occur in a token. -/
def tokenMarks : List Char :=
  ['!', '#', '$', '%', '&', '\x27', '*', '+', '-', '.', '^', '_', '\x60', '|', '~']

/-- A character of a token: an ASCII letter, a digit or a mark. -/
def IsTokenSign (c : Char) : Prop :=
  ('A' ≤ c ∧ c ≤ 'Z') ∨ ('a' ≤ c ∧ c ≤ 'z') ∨ ('0' ≤ c ∧ c ≤ '9') ∨ c ∈ tokenMarks

/-- A token that is not too long for the name of a field. -/
structure FieldName (name : String) : Prop where
  nonempty : name ≠ ""
  signs : ∀ c ∈ name.toList, IsTokenSign c
  short : (Utf8.ofString name).length ≤ 65535

/-- A text without controls but tabs. -/
def FieldText (value : String) : Prop :=
  ∀ b ∈ Utf8.ofString value, b = 0x09 ∨ (0x20 ≤ b ∧ b ≠ 0x7F)

/-- Every piece of the header may stand where it stands. -/
structure Writable (h : ResponseHeader) : Prop where
  message : ∀ c ∈ h.message.toList, c ≠ '\r' ∧ c ≠ '\n'
  fields : ∀ field ∈ h.fields, FieldName field.1 ∧ FieldText field.2
  cookies : ∀ cookie ∈ h.cookies, FieldText cookie.render

instance (c : Char) : Decidable (IsTokenSign c) := inferInstanceAs (Decidable (_ ∨ _))

/-! ## What is checked -/

/-- Code points are compared for characters. -/
theorem between_iff (first last c : Char) :
    (decide (c.val ≥ first.val) && decide (c.val ≤ last.val)) = true ↔ first ≤ c ∧ c ≤ last := by
  rw [Bool.and_eq_true, decide_eq_true_eq, decide_eq_true_eq]
  rfl

/-- The check that is run for each character of a name. -/
theorem isTokenChar_iff (c : Char) : isTokenChar c = true ↔ IsTokenSign c := by
  have hupper : c.isUpper = true ↔ 'A' ≤ c ∧ c ≤ 'Z' := decide_eq_true_iff
  have hlower : c.isLower = true ↔ 'a' ≤ c ∧ c ≤ 'z' := between_iff 'a' 'z' c
  have hdigit : c.isDigit = true ↔ '0' ≤ c ∧ c ≤ '9' := between_iff '0' '9' c
  have hcases : isTokenChar c = (c.isUpper || c.isLower || c.isDigit || tokenMarks.contains c) :=
    rfl
  rw [hcases, Bool.or_eq_true, Bool.or_eq_true, Bool.or_eq_true, List.contains_iff_mem,
    hupper, hlower, hdigit, or_assoc, or_assoc]
  rfl

/-- Names are ASCII, so their length can be counted in characters. -/
theorem toNat_lt_of_isTokenSign {c : Char} (h : IsTokenSign c) : c.toNat < 0x80 := by
  have hbelow {last : Char} (hlast : last.toNat < 0x80) (hc : c ≤ last) : c.toNat < 0x80 :=
    Nat.lt_of_le_of_lt hc hlast
  rcases h with ⟨_, hc⟩ | ⟨_, hc⟩ | ⟨_, hc⟩ | hmark
  · exact hbelow (by decide) hc
  · exact hbelow (by decide) hc
  · exact hbelow (by decide) hc
  · have all : tokenMarks.all (fun mark => mark.toNat < 0x80) = true := rfl
    exact of_decide_eq_true (List.all_eq_true.1 all c hmark)

/-- **A name passes** exactly if it is a text of such characters, neither empty nor too long. -/
theorem isToken_iff (name : String) : isToken name = true ↔ FieldName name := by
  have hsigns : name.toList.all isTokenChar = true ↔ ∀ c ∈ name.toList, IsTokenSign c := by
    simp only [List.all_eq_true, isTokenChar_iff]
  rw [isToken, Bool.and_eq_true, Bool.and_eq_true, hsigns, bne_iff_ne, ne_eq,
    String.toList_eq_nil_iff, decide_eq_true_eq]
  constructor
  · rintro ⟨⟨hne, hsigns⟩, hshort⟩
    have hlength := Utf8.length_ofString_of_ascii fun c hc => toNat_lt_of_isTokenSign (hsigns c hc)
    exact ⟨hne, hsigns, hlength.trans_le hshort⟩
  · rintro ⟨hne, hsigns, hshort⟩
    have hlength := Utf8.length_ofString_of_ascii fun c hc => toNat_lt_of_isTokenSign (hsigns c hc)
    exact ⟨⟨hne, hsigns⟩, hlength.symm.trans_le hshort⟩

/-- A byte of a value is a tab or no control. -/
theorem isValueByte_iff (b : UInt8) : isValueByte b = true ↔ b = 0x09 ∨ (0x20 ≤ b ∧ b ≠ 0x7F) := by
  rw [isValueByte, Bool.or_eq_true, Bool.and_eq_true, decide_eq_true_eq, bne_iff_ne, beq_iff_eq,
    UInt8.le_iff_toNat_le, ne_eq, ne_eq, ← UInt8.toNat_inj, ← UInt8.toNat_inj]
  exact or_comm

/-- **A value passes** exactly if it has no controls but tabs. -/
theorem isValue_iff (value : String) : isValue value = true ↔ FieldText value := by
  simp only [isValue, List.all_eq_true, isValueByte_iff]
  rfl

/-- The name of the lines for cookies is always right, and the fields come first. -/
theorem forall_lines_iff (h : ResponseHeader) : (∀ line ∈ h.lines, LineFits line) ↔
    (∀ field ∈ h.fields, FieldName field.1 ∧ FieldText field.2) ∧
      ∀ cookie ∈ h.cookies, FieldText cookie.render := by
  have hcookie : FieldName cookieField := (isToken_iff _).1 (by decide)
  simp only [lines, List.forall_mem_append, List.forall_mem_map, LineFits, hcookie, true_and,
    isToken_iff, isValue_iff]

/-- The pieces of a header are in order exactly if nothing is found at fault with it. -/
theorem writable_iff (h : ResponseHeader) : h.Writable ↔ h.fault? = none := by
  rw [fault?_eq_none_iff, forall_lines_iff]
  constructor
  · rintro ⟨hmessage, hfields, hcookies⟩
    exact ⟨⟨fun hmem => (hmessage _ hmem).1 rfl, fun hmem => (hmessage _ hmem).2 rfl⟩,
      hfields, hcookies⟩
  · rintro ⟨⟨hcr, hlf⟩, hfields, hcookies⟩
    refine ⟨fun c hc => ⟨?_, ?_⟩, hfields, hcookies⟩
    · rintro rfl
      exact hcr hc
    · rintro rfl
      exact hlf hc

instance (h : ResponseHeader) : Decidable h.Writable := decidable_of_iff _ h.writable_iff.symm

/-! ## What is written -/

/-- A text as a line of its own. -/
def textLine (text : String) : Bytes := Utf8.ofString text ++ [0x0D, 0x0A]

/-- A header line by line: the status, the fields in their order, the cookies in theirs, and the
empty line. -/
def written (h : ResponseHeader) : Bytes :=
  textLine ("HTTP/" ++ h.version ++ " " ++ decimal h.code ++ " " ++ h.message) ++
    h.fields.flatMap (fun field => textLine (field.1 ++ ": " ++ field.2)) ++
    h.cookies.flatMap (fun cookie => textLine ("Set-Cookie: " ++ cookie.render)) ++ textLine ""

/-- The bytes of a header are its lines one after the other, and an empty one. -/
theorem toBytes_eq_written (h : ResponseHeader) : h.toBytes = h.written := by
  have hcookies : h.cookies.flatMap (fun cookie => textLine ("Set-Cookie: " ++ cookie.render)) =
      (h.cookies.map fun cookie => (cookieField, cookie.render)).flatMap fun line =>
        textLine (line.1 ++ ": " ++ line.2) := by
    rw [List.flatMap_map]
    rfl
  rw [written, hcookies, List.append_assoc (textLine _), ← List.flatMap_append]
  rfl

/-- The first piece that is wrong: the message, or else a line with only right ones before it. -/
inductive FirstFault (h : ResponseHeader) : HeaderFault → Prop
  | message (hbreak : '\r' ∈ h.message.toList ∨ '\n' ∈ h.message.toList) :
      FirstFault h (.statusMessage h.message)
  | name {before after : FieldList} {name value : String}
      (hlines : h.lines = before ++ (name, value) :: after)
      (hbefore : ∀ line ∈ before, FieldName line.1 ∧ FieldText line.2) (hname : ¬ FieldName name) :
      FirstFault h (.fieldName name)
  | value {before after : FieldList} {name value : String}
      (hlines : h.lines = before ++ (name, value) :: after)
      (hbefore : ∀ line ∈ before, FieldName line.1 ∧ FieldText line.2) (hname : FieldName name)
      (hvalue : ¬ FieldText value) : FirstFault h (.fieldValue name)

/-- What is at fault with a line is its name, or its value under a name in order. -/
theorem cases_lineFault? {name value : String} {fault : HeaderFault}
    (h : lineFault? name value = some fault) :
    (¬ FieldName name ∧ fault = .fieldName name) ∨
      (FieldName name ∧ ¬ FieldText value ∧ fault = .fieldValue name) := by
  unfold lineFault? at h
  split at h
  · rename_i hname
    cases h
    refine .inl ⟨fun hright => ?_, rfl⟩
    rw [(isToken_iff name).2 hright] at hname
    cases hname
  · rename_i hname
    split at h
    · rename_i hvalue
      cases h
      refine .inr ⟨(isToken_iff name).1 (by simpa using hname), fun hright => ?_, rfl⟩
      rw [(isValue_iff value).2 hright] at hvalue
      cases hvalue
    · cases h

/-- **What is reported of a header** is the first piece of it that is wrong, in the order in which
the pieces would be written. -/
theorem firstFault_of_fault? {h : ResponseHeader} {fault : HeaderFault}
    (hfault : h.fault? = some fault) : h.FirstFault fault := by
  unfold fault? at hfault
  split at hfault
  · rename_i hmessage
    cases hfault
    obtain ⟨c, hc, hends⟩ := List.any_eq_true.1 hmessage
    apply FirstFault.message
    rcases Bool.or_eq_true_iff.1 hends with hends | hends
    · exact .inl (eq_of_beq hends ▸ hc)
    · exact .inr (eq_of_beq hends ▸ hc)
  · obtain ⟨before, ⟨name, value⟩, after, hlines, hline, hnone⟩ :=
      List.findSome?_eq_some_iff.1 hfault
    have hbefore : ∀ line ∈ before, FieldName line.1 ∧ FieldText line.2 := by
      intro line hmem
      obtain ⟨hname, hvalue⟩ := lineFits_of_lineFault? (hnone line hmem)
      exact ⟨(isToken_iff _).1 hname, (isValue_iff _).1 hvalue⟩
    rcases cases_lineFault? hline with ⟨hname, rfl⟩ | ⟨hname, hvalue, rfl⟩
    · exact .name hlines hbefore hname
    · exact .value hlines hbefore hname hvalue

/-- A header can be written exactly if all pieces of it are in order. -/
theorem writeTo_ok_iff (h : ResponseHeader) (buffer : Bytes) :
    (h.writeTo buffer).2 = .ok () ↔ h.Writable := by
  rw [writable_iff, writeTo]
  cases h.fault? with
  | none => exact iff_of_true rfl rfl
  | some fault =>
      constructor
      · intro hok
        cases hok
      · intro hnone
        cases hnone

/-- **A header is written whole or not at all.** It is written exactly if all of its pieces are
right, and then the buffer holds it behind what it held. Otherwise the first piece that is wrong is
reported, however many right ones stand before it, and the buffer holds what it held. -/
theorem writeTo_all_or_nothing (h : ResponseHeader) (buffer : Bytes) :
    ((h.writeTo buffer).2 = .ok () ↔ h.Writable) ∧
    (h.Writable → (h.writeTo buffer).1 = buffer ++ h.written) ∧
    (¬ h.Writable →
      ∃ fault, h.FirstFault fault ∧
        h.writeTo buffer = (buffer, .error (.invalidHeader fault))) := by
  refine ⟨h.writeTo_ok_iff buffer, fun hwritable => ?_, fun hnot => ?_⟩
  · rw [writeTo, h.writable_iff.1 hwritable, toBytes_eq_written]
  · obtain ⟨fault, hfault⟩ := Option.ne_none_iff_exists'.1 (mt h.writable_iff.2 hnot)
    refine ⟨fault, firstFault_of_fault? hfault, ?_⟩
    rw [writeTo, hfault]

/-- A redirection whose last cookie would add a line. -/
def brokenRedirection : ResponseHeader :=
  redirection.addCookie { name := "seen", value := "1\r\nX-Evil: 1" }

theorem writeTo_all_or_nothing_redirection :
    (redirection.writeTo [0x41]).1 = 0x41 :: redirection.written ∧
      (brokenRedirection.writeTo [0x41]).1 = [0x41] := by
  obtain ⟨-, hwritten, -⟩ := writeTo_all_or_nothing redirection [0x41]
  obtain ⟨-, -, hrefused⟩ := writeTo_all_or_nothing brokenRedirection [0x41]
  obtain ⟨fault, -, hwrite⟩ := hrefused (by decide +kernel)
  exact ⟨hwritten (by decide +kernel), congrArg Prod.fst hwrite⟩

/-- A name of letters alone. -/
def letters (n : Nat) : String := String.ofList (List.replicate n 'a')

theorem length_letters (n : Nat) : (letters n).toList.length = n := by
  rw [letters, String.toList_ofList, List.length_replicate]

/-- All letters of the long name are the same. -/
theorem eq_of_mem_letters {n : Nat} {c : Char} (h : c ∈ (letters n).toList) : c = 'a' := by
  rw [letters, String.toList_ofList] at h
  exact List.eq_of_mem_replicate h

theorem isTokenSign_of_mem_letters {n : Nat} {c : Char} (h : c ∈ (letters n).toList) :
    IsTokenSign c := by
  rw [eq_of_mem_letters h]
  decide

/-- Beyond the longest name that is allowed no text is one. -/
theorem not_fieldName_letters {n : Nat} (h : 65535 < n) : ¬ FieldName (letters n) := by
  intro hname
  have hlength : (Utf8.ofString (letters n)).length = n := by
    rw [Utf8.length_ofString_of_ascii, length_letters]
    exact fun c hc => toNat_lt_of_isTokenSign (isTokenSign_of_mem_letters hc)
  exact Nat.not_lt.2 (hlength ▸ hname.short) h

def longNamed : ResponseHeader := (HeaderChange.setField (letters 65536) "1").apply {}

/-- **To be a token is not enough** for the name of a field. -/
theorem longNamed_refused :
    ¬ ((longNamed.writeTo []).2 = .ok () ↔
      (∀ c ∈ longNamed.message.toList, c ≠ '\r' ∧ c ≠ '\n') ∧
      (∀ field ∈ longNamed.fields,
        field.1 ≠ "" ∧ (∀ c ∈ field.1.toList, IsTokenSign c) ∧ FieldText field.2) ∧
      ∀ cookie ∈ longNamed.cookies, FieldText cookie.render) := by
  intro hiff
  have hnonempty : letters 65536 ≠ "" := by
    intro hempty
    have hlength := length_letters 65536
    rw [hempty] at hlength
    cases hlength
  have hclean : longNamed.message.toList.all (fun c => c != '\r' && c != '\n') = true := rfl
  have hmessage : ∀ c ∈ longNamed.message.toList, c ≠ '\r' ∧ c ≠ '\n' := by
    intro c hc
    rw [List.all_eq_true] at hclean
    exact (Bool.and_eq_true_iff.1 (hclean c hc)).imp bne_iff_ne.1 bne_iff_ne.1
  have hwritable : longNamed.Writable := by
    rw [← writeTo_ok_iff longNamed [], hiff]
    refine ⟨hmessage, List.forall_mem_singleton.2 ⟨hnonempty, ?_, (isValue_iff _).1 rfl⟩, nofun⟩
    exact fun c hc => isTokenSign_of_mem_letters hc
  have hname : FieldName (letters 65536) := (hwritable.fields _ List.mem_cons_self).1
  exact not_fieldName_letters (by decide) hname

end ResponseHeader

end HttpServer
