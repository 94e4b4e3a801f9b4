/-!
# Names without case

Field names, cookie tokens and content codings are compared without regard to the case of ASCII
letters; all other characters count as they are. Two names agree when their lower-case forms do
(`sameName_iff`), so agreement is an equivalence.
-/

namespace HttpServer

/-- The lower-case form of a name: ASCII capitals become small letters. -/
def lowerCase (name : String) : List Char := name.toList.map Char.toLower

/-- Two names are the same but for the case of ASCII letters. -/
def sameName (a b : String) : Bool := lowerCase a == lowerCase b

theorem sameName_iff {a b : String} : sameName a b = true ↔ lowerCase a = lowerCase b := by
  simp [sameName]

@[simp] theorem sameName_refl (a : String) : sameName a a = true := by simp [sameName]

theorem sameName_comm (a b : String) : sameName a b = sameName b a := by
  rw [Bool.eq_iff_iff, sameName_iff, sameName_iff]
  exact eq_comm

end HttpServer
