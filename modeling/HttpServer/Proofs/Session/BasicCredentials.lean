import HttpServer.Proofs.Request.Grammar
import HttpServer.Proofs.Text.Base64
import HttpServer.Session.Credentials

/-!
# What a value of basic authentication says

A value has a scheme and something behind the first space, or it is malformed
(`Credentials.HasParts`). Under the basic scheme it says the credentials whose text it holds in
base 64, with blanks around at most (`Credentials.SaidBy`), and each step of reading undoes one step
of that writing. So the credentials that are read are those the value says, another scheme is told
apart from a fault, and whatever is neither is refused (`Credentials.decode_exact`), for the reason
that holds of it (`Credentials.decode_eq_error_iff`).
-/

namespace HttpServer

/-- What is wrong with a text that should be credentials in base 64. -/
def CredentialFault.Spoils : CredentialFault → List Char → Prop
  | .malformedField, _ => False
  | .invalidBase64, cs => ∀ bytes, cs ≠ Base64.encode bytes
  | .notText, cs => ∃ bytes, cs = Base64.encode bytes ∧ ∀ text, bytes ≠ Utf8.encode text
  | .missingColon, cs => ∃ text, cs = Base64.encode (Utf8.encode text) ∧ ':' ∉ text

namespace Credentials

/-! ## Text and base 64 -/

/-- User and password with the colon between them. -/
def text (c : Credentials) : String := c.user ++ ":" ++ c.password

/-- The user stands in front of the first colon of the text, the password behind it. -/
theorem toList_text (c : Credentials) :
    c.text.toList = c.user.toList ++ ':' :: c.password.toList := by
  rw [text, String.toList_append, String.toList_append, List.append_assoc]
  rfl

/-- Credentials are read from a text exactly if it is theirs and the user has no colon. -/
theorem ofText_eq_ok_iff {cs : List Char} {c : Credentials} :
    ofText cs = .ok c ↔ ':' ∉ c.user.toList ∧ cs = c.text.toList := by
  rw [ofText, toList_text, ← splitFirst?_eq_some_iff]
  cases splitFirst? (· == ':') cs with
  | none => simp
  | some parts =>
      obtain ⟨user, password⟩ := parts
      obtain ⟨u, p⟩ := c
      simp only [Except.ok.injEq, Credentials.mk.injEq, Option.some.injEq, Prod.mk.injEq]
      rw [← String.toList_inj, ← String.toList_inj, String.toList_ofList, String.toList_ofList]

/-- A text is refused exactly if it has no colon. -/
theorem ofText_eq_error_iff {cs : List Char} {fault : CredentialFault} :
    ofText cs = .error fault ↔ fault = .missingColon ∧ ':' ∉ cs := by
  rw [ofText, ← splitFirst?_eq_none_iff]
  cases splitFirst? (· == ':') cs <;> simp [eq_comm]

/-- What is not written in base 64 is refused as that. -/
theorem ofBase64_of_not_base64 {cs : List Char} (h : ∀ bytes, cs ≠ Base64.encode bytes) :
    ofBase64 cs = .error .invalidBase64 := by
  rw [ofBase64]
  cases hbytes : Base64.decode cs with
  | none => rfl
  | some bytes => exact absurd (Base64.decode_eq_some_iff.1 hbytes) (h bytes)

/-- Bytes that are no text are refused as that. -/
theorem ofBase64_of_not_text {bytes : Bytes} (h : ∀ text, bytes ≠ Utf8.encode text) :
    ofBase64 (Base64.encode bytes) = .error .notText := by
  rw [ofBase64, Base64.decode_encode]
  cases htext : Utf8.decode bytes with
  | error e => simp only [htext]
  | ok text => exact absurd (Utf8.decode_eq_ok_iff.1 htext) (h text)

/-- A text is read back from its base 64. -/
theorem ofBase64_of_text (text : List Char) :
    ofBase64 (Base64.encode (Utf8.encode text)) = ofText text := by
  rw [ofBase64, Base64.decode_encode]
  simp only [Utf8.decode_eq_ok_iff.2 rfl]

/-- What follows the scheme is no base 64, or no text, or a text. -/
theorem base64_cases (cs : List Char) :
    (∀ bytes, cs ≠ Base64.encode bytes) ∨
      (∃ bytes, cs = Base64.encode bytes ∧ ∀ text, bytes ≠ Utf8.encode text) ∨
      ∃ text, cs = Base64.encode (Utf8.encode text) := by
  by_cases hbytes : ∃ bytes, cs = Base64.encode bytes
  · obtain ⟨bytes, rfl⟩ := hbytes
    by_cases htext : ∃ text, bytes = Utf8.encode text
    · obtain ⟨text, rfl⟩ := htext
      exact .inr (.inr ⟨text, rfl⟩)
    · exact .inr (.inl ⟨bytes, rfl, not_exists.1 htext⟩)
  · exact .inl (not_exists.1 hbytes)

/-- **Base 64 of a text with a colon**, and nothing else, holds credentials. -/
theorem ofBase64_eq_ok_iff {cs : List Char} {c : Credentials} :
    ofBase64 cs = .ok c ↔
      ':' ∉ c.user.toList ∧ cs = Base64.encode (Utf8.ofString c.text) := by
  constructor
  · intro h
    rcases base64_cases cs with hcs | ⟨bytes, rfl, hbytes⟩ | ⟨text, rfl⟩
    · rw [ofBase64_of_not_base64 hcs] at h
      cases h
    · rw [ofBase64_of_not_text hbytes] at h
      cases h
    · rw [ofBase64_of_text] at h
      obtain ⟨hcolon, rfl⟩ := ofText_eq_ok_iff.1 h
      exact ⟨hcolon, rfl⟩
  · rintro ⟨hcolon, rfl⟩
    rw [Utf8.ofString, ofBase64_of_text]
    exact ofText_eq_ok_iff.2 ⟨hcolon, rfl⟩

/-- What is reported is what holds of the value, and only one of the faults can. -/
theorem ofBase64_eq_error_iff {cs : List Char} {fault : CredentialFault} :
    ofBase64 cs = .error fault ↔ fault.Spoils cs := by
  constructor
  · intro h
    rcases base64_cases cs with hcs | ⟨bytes, rfl, hbytes⟩ | ⟨text, rfl⟩
    · rw [ofBase64_of_not_base64 hcs] at h
      cases h
      exact hcs
    · rw [ofBase64_of_not_text hbytes] at h
      cases h
      exact ⟨bytes, rfl, hbytes⟩
    · rw [ofBase64_of_text] at h
      obtain ⟨rfl, hcolon⟩ := ofText_eq_error_iff.1 h
      exact ⟨text, rfl, hcolon⟩
  · intro h
    cases fault with
    | malformedField => cases h
    | invalidBase64 => exact ofBase64_of_not_base64 h
    | notText =>
        obtain ⟨bytes, rfl, hbytes⟩ := h
        exact ofBase64_of_not_text hbytes
    | missingColon =>
        obtain ⟨text, rfl, hcolon⟩ := h
        rw [ofBase64_of_text]
        exact ofText_eq_error_iff.2 ⟨rfl, hcolon⟩

/-! ## Values -/

/-- The scheme of a value and what stands behind the first space. -/
structure HasParts (value scheme rest : String) : Prop where
  eq : value = scheme ++ " " ++ rest
  noSpace : ' ' ∉ scheme.toList
  ne_nil : rest ≠ ""

theorem toList_joined (scheme rest : String) :
    (scheme ++ " " ++ rest).toList = scheme.toList ++ ' ' :: rest.toList := by
  rw [String.toList_append, String.toList_append, List.append_assoc]
  rfl

/-- A value without a scheme and something behind it is malformed. -/
theorem decode_of_not_hasParts {value : String} (h : ∀ scheme rest, ¬ HasParts value scheme rest) :
    decode value = .error .malformedField := by
  rw [decode]
  cases hcut : splitFirst? (· == ' ') value.toList with
  | none => rfl
  | some parts =>
      obtain ⟨scheme, rest⟩ := parts
      obtain ⟨hspace, hvalue⟩ := splitFirst?_eq_some_iff.1 hcut
      have hnil : rest = [] := by
        by_contra hne
        refine h (String.ofList scheme) (String.ofList rest) ⟨?_, ?_, ?_⟩
        · rw [← String.toList_inj, toList_joined, String.toList_ofList,
            String.toList_ofList, hvalue]
        · rwa [String.toList_ofList]
        · simpa using hne
      exact if_pos hnil

/-- The scheme decides whether what stands behind it is read. -/
theorem decode_of_hasParts {value scheme rest : String} (h : HasParts value scheme rest) :
    decode value =
      if scheme ≠ "Basic" then .ok none else (ofBase64 (trim rest.toList)).map some := by
  obtain ⟨rfl, hspace, hrest⟩ := h
  have hcut := splitFirst?_eq_some_iff.2 ⟨hspace, toList_joined scheme rest⟩
  have hne : rest.toList ≠ [] := fun hnil => hrest (String.toList_eq_nil_iff.1 hnil)
  have hscheme : scheme.toList ≠ "Basic".toList ↔ scheme ≠ "Basic" := not_congr String.toList_inj
  simp only [decode, hcut, if_neg hne, hscheme]

/-- The value is for another scheme. -/
def IsOtherScheme (value : String) : Prop :=
  ∃ scheme rest, HasParts value scheme rest ∧ scheme ≠ "Basic"

/-- Another scheme is no fault, and no credentials either. -/
theorem decode_of_isOtherScheme {value : String} (h : IsOtherScheme value) :
    decode value = .ok none := by
  obtain ⟨scheme, rest, hparts, hscheme⟩ := h
  rw [decode_of_hasParts hparts, if_pos hscheme]

/-- Under the basic scheme what stands behind it is read without the blanks around. -/
theorem decode_of_basic {value rest : String} (h : HasParts value "Basic" rest) :
    decode value = (ofBase64 (trim rest.toList)).map some :=
  decode_of_hasParts h

/-- A value is malformed, of another scheme, or of the basic one. -/
theorem value_cases (value : String) :
    (∀ scheme rest, ¬ HasParts value scheme rest) ∨ IsOtherScheme value ∨
      ∃ rest, HasParts value "Basic" rest := by
  by_cases hparts : ∃ scheme rest, HasParts value scheme rest
  · obtain ⟨scheme, rest, hparts⟩ := hparts
    by_cases hscheme : scheme = "Basic"
    · exact .inr (.inr ⟨rest, hscheme ▸ hparts⟩)
    · exact .inr (.inl ⟨scheme, rest, hparts, hscheme⟩)
  · exact .inl fun scheme rest h => hparts ⟨scheme, rest, h⟩

/-- The value says these credentials under the basic scheme. -/
def SaidBy (c : Credentials) (value : String) : Prop :=
  ':' ∉ c.user.toList ∧ ∃ encoded, value = "Basic " ++ encoded ∧
    trim encoded.toList = Base64.encode (Utf8.ofString c.text)

/-- Not even credentials without user and password are written as nothing. -/
theorem ofBase64_nil : ofBase64 [] = .error .missingColon := ofBase64_of_text []

/-- A value says the credentials exactly if reading it undoes writing them. -/
theorem saidBy_iff {c : Credentials} {value : String} :
    c.SaidBy value ↔ ∃ rest, HasParts value "Basic" rest ∧ ofBase64 (trim rest.toList) = .ok c := by
  constructor
  · rintro ⟨hcolon, encoded, rfl, hencoded⟩
    have hresult := ofBase64_eq_ok_iff.2 ⟨hcolon, hencoded⟩
    refine ⟨encoded, ⟨rfl, by decide, ?_⟩, hresult⟩
    rintro rfl
    cases ofBase64_nil.symm.trans hresult
  · rintro ⟨rest, ⟨rfl, _, _⟩, hrest⟩
    obtain ⟨hcolon, hencoded⟩ := ofBase64_eq_ok_iff.1 hrest
    exact ⟨hcolon, rest, rfl, hencoded⟩

/-- **The credentials that are read** are those that the value says. -/
theorem decode_eq_ok_some_iff {value : String} {c : Credentials} :
    decode value = .ok (some c) ↔ c.SaidBy value := by
  rw [saidBy_iff]
  constructor
  · intro h
    rcases value_cases value with hparts | hother | ⟨rest, hrest⟩
    · rw [decode_of_not_hasParts hparts] at h
      cases h
    · rw [decode_of_isOtherScheme hother] at h
      cases h
    · rw [decode_of_basic hrest] at h
      cases hresult : ofBase64 (trim rest.toList) with
      | error fault =>
          rw [hresult] at h
          cases h
      | ok found =>
          rw [hresult] at h
          cases h
          exact ⟨rest, hrest, hresult⟩
  · rintro ⟨rest, hrest, hresult⟩
    rw [decode_of_basic hrest, hresult]
    rfl

/-- No credentials are read exactly from values of other schemes. -/
theorem decode_eq_ok_none_iff {value : String} :
    decode value = .ok none ↔ IsOtherScheme value := by
  refine ⟨fun h => ?_, decode_of_isOtherScheme⟩
  rcases value_cases value with hparts | hother | ⟨rest, hrest⟩
  · rw [decode_of_not_hasParts hparts] at h
    cases h
  · exact hother
  · rw [decode_of_basic hrest] at h
    cases hresult : ofBase64 (trim rest.toList) <;> rw [hresult] at h <;> cases h

/-- **The fault of a value** is that it lacks a part, or what spoils its credentials. -/
theorem decode_eq_error_iff {value : String} {fault : CredentialFault} :
    decode value = .error fault ↔
      (fault = .malformedField ∧ ∀ scheme rest, ¬ HasParts value scheme rest) ∨
        ∃ rest, HasParts value "Basic" rest ∧ fault.Spoils (trim rest.toList) := by
  constructor
  · intro h
    rcases value_cases value with hparts | hother | ⟨rest, hrest⟩
    · rw [decode_of_not_hasParts hparts] at h
      cases h
      exact .inl ⟨rfl, hparts⟩
    · rw [decode_of_isOtherScheme hother] at h
      cases h
    · rw [decode_of_basic hrest] at h
      cases hresult : ofBase64 (trim rest.toList) with
      | error found =>
          rw [hresult] at h
          cases h
          exact .inr ⟨rest, hrest, ofBase64_eq_error_iff.1 hresult⟩
      | ok c =>
          rw [hresult] at h
          cases h
  · rintro (⟨rfl, hparts⟩ | ⟨rest, hrest, hspoils⟩)
    · exact decode_of_not_hasParts hparts
    · rw [decode_of_basic hrest, ofBase64_eq_error_iff.2 hspoils]
      rfl

/-- **The credentials of a value** are those it says and no others, a value for another scheme has
none, and every other value is refused. -/
theorem decode_exact (value : String) :
    (∀ c, decode value = .ok (some c) ↔ c.SaidBy value) ∧
      (decode value = .ok none ↔ IsOtherScheme value) ∧
      ((∃ fault, decode value = .error fault) ↔
        ¬ IsOtherScheme value ∧ ∀ c : Credentials, ¬ c.SaidBy value) := by
  refine ⟨fun c => decode_eq_ok_some_iff, decode_eq_ok_none_iff, ?_, ?_⟩
  · rintro ⟨fault, hfault⟩
    refine ⟨fun hother => ?_, fun c hsaid => ?_⟩
    · rw [decode_eq_ok_none_iff.2 hother] at hfault
      cases hfault
    · rw [decode_eq_ok_some_iff.2 hsaid] at hfault
      cases hfault
  · rintro ⟨hother, hsaid⟩
    cases hresult : decode value with
    | error fault => exact ⟨fault, rfl⟩
    | ok found =>
        cases found with
        | none => exact absurd (decode_eq_ok_none_iff.1 hresult) hother
        | some c => exact absurd (decode_eq_ok_some_iff.1 hresult) (hsaid c)

end Credentials

end HttpServer
