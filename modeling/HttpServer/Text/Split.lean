/-!
# Cutting text at separators

`splitAll` cuts at every separator and always yields at least one part; `splitFirst?` cuts at the
first one only. Joining the parts again gives the text back (`join_splitAll`,
`append_of_splitFirst?`).
-/

namespace HttpServer

/-- Cuts a text at every character of a class. -/
def splitAll (isSeparator : Char → Bool) : List Char → List (List Char)
  | [] => [[]]
  | c :: cs =>
    if isSeparator c then [] :: splitAll isSeparator cs
    else match splitAll isSeparator cs with
      | [] => [[c]]
      | part :: parts => (c :: part) :: parts

/-- Cuts a text at the first character of a class, which is dropped. -/
def splitFirst? (isSeparator : Char → Bool) : List Char → Option (List Char × List Char)
  | [] => none
  | c :: cs =>
    if isSeparator c then some ([], cs)
    else (splitFirst? isSeparator cs).map fun (before, after) => (c :: before, after)

/-- Joins parts with a separator between any two. -/
def joinWith (separator : List Char) : List (List Char) → List Char
  | [] => []
  | [part] => part
  | part :: parts => part ++ separator ++ joinWith separator parts

theorem splitAll_ne_nil (isSeparator : Char → Bool) (cs : List Char) :
    splitAll isSeparator cs ≠ [] := by
  cases cs with
  | nil => simp [splitAll]
  | cons c cs =>
    unfold splitAll
    split
    · simp
    · split <;> simp

theorem join_splitAll (separator : Char) (cs : List Char) :
    joinWith [separator] (splitAll (· == separator) cs) = cs := by
  induction cs with
  | nil => rfl
  | cons c cs ih =>
    cases hs : splitAll (· == separator) cs with
    | nil => exact absurd hs (splitAll_ne_nil _ _)
    | cons part parts =>
      rw [hs] at ih
      by_cases hc : c = separator
      · simp [splitAll, hs, hc, joinWith, ih]
      · cases parts with
        | nil =>
          have hpart : part = cs := ih
          simp [splitAll, hs, hc, joinWith, hpart]
        | cons next parts =>
          have hjoin : part ++ [separator] ++ joinWith [separator] (next :: parts) = cs := ih
          simpa [splitAll, hs, hc, joinWith] using hjoin

theorem append_of_splitFirst? {separator : Char} {cs before after : List Char}
    (h : splitFirst? (· == separator) cs = some (before, after)) :
    cs = before ++ separator :: after := by
  induction cs generalizing before with
  | nil => simp [splitFirst?] at h
  | cons c cs ih =>
    unfold splitFirst? at h
    split at h
    · rename_i hc
      have : c = separator := by simpa using hc
      simp_all
    · obtain ⟨⟨first, second⟩, hsplit, hpair⟩ := Option.map_eq_some_iff.1 h
      cases hpair
      simp [ih hsplit]

end HttpServer
