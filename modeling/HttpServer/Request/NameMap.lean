import HttpServer.Text.Caseless

/-!
# Named values

A `NameMap` keeps one value per name, in the order in which the names first came; a later value for
a known name takes the place of the earlier one. Names count as they are written. Header fields are
also found under another spelling (`NameMap.field?`): the exact name first, else the first name that
differs in case alone.
-/

namespace HttpServer

/-- Puts a value under a name: in its old place, or at the end. -/
def putPair (name value : String) : List (String × String) → List (String × String)
  | [] => [(name, value)]
  | (key, old) :: rest =>
    if key = name then (key, value) :: rest else (key, old) :: putPair name value rest

/-- A value is put under one name, and all the other names stay. -/
theorem mem_names_putPair {name value other : String} {pairs : List (String × String)} :
    other ∈ (putPair name value pairs).map Prod.fst ↔
      other = name ∨ other ∈ pairs.map Prod.fst := by
  induction pairs with
  | nil => simp [putPair]
  | cons pair rest ih =>
    obtain ⟨key, old⟩ := pair
    unfold putPair
    split
    · rename_i h
      subst h
      simp
    · simp only [List.map_cons, List.mem_cons, ih]
      constructor
      · rintro (h | h | h)
        · exact .inr (.inl h)
        · exact .inl h
        · exact .inr (.inr h)
      · rintro (h | h | h)
        · exact .inr (.inl h)
        · exact .inl h
        · exact .inr (.inr h)

/-- Names stay distinct, as `NameMap` asks for. -/
theorem nodup_names_putPair {name value : String} {pairs : List (String × String)}
    (h : (pairs.map Prod.fst).Nodup) : ((putPair name value pairs).map Prod.fst).Nodup := by
  induction pairs with
  | nil => simp [putPair]
  | cons pair rest ih =>
    obtain ⟨key, old⟩ := pair
    rw [List.map_cons, List.nodup_cons] at h
    unfold putPair
    split
    · rw [List.map_cons, List.nodup_cons]
      exact h
    · rename_i hne
      rw [List.map_cons, List.nodup_cons, mem_names_putPair]
      exact ⟨fun hkey => hkey.elim hne h.1, ih h.2⟩

/-- One value per name. -/
structure NameMap where
  /-- The pairs, oldest name first. -/
  entries : List (String × String) := []
  /-- No name occurs twice. -/
  nodup_names : (entries.map Prod.fst).Nodup := by simp
  deriving DecidableEq

namespace NameMap

def empty : NameMap := {}

/-- Puts a value under a name, replacing an earlier one. -/
def insert (m : NameMap) (name value : String) : NameMap where
  entries := putPair name value m.entries
  nodup_names := nodup_names_putPair m.nodup_names

def get? (m : NameMap) (name : String) : Option String :=
  (m.entries.find? fun pair => pair.1 = name).map Prod.snd

theorem find?_putPair (name value other : String) (pairs : List (String × String)) :
    ((putPair name value pairs).find? fun pair => pair.1 = other) =
      if name = other then some (name, value) else pairs.find? fun pair => pair.1 = other := by
  induction pairs with
  | nil => by_cases hname : name = other <;> simp [putPair, hname]
  | cons pair rest ih =>
    obtain ⟨key, old⟩ := pair
    by_cases hkey : key = name
    · subst hkey
      by_cases hother : key = other <;> simp [putPair, hother]
    · by_cases hother : key = other
      · have hname : name ≠ other := fun h => hkey (hother.trans h.symm)
        simp [putPair, hother, hname, hname.symm]
      · simp [putPair, hkey, hother, ih]

/-- The value just put under a name is found there, and every other name keeps its value. -/
theorem get?_insert (m : NameMap) (name value other : String) :
    (m.insert name value).get? other = if name = other then some value else m.get? other := by
  rw [get?, insert, find?_putPair]
  split <;> rfl

def erase (m : NameMap) (name : String) : NameMap where
  entries := m.entries.filter fun pair => pair.1 != name
  nodup_names := m.nodup_names.sublist (List.filter_sublist.map Prod.fst)

/-- The value under a name, or under the first name that differs from it in case alone. -/
def field? (m : NameMap) (name : String) : Option String :=
  (m.get? name).orElse fun _ =>
    (m.entries.find? fun pair => sameName pair.1 name).map Prod.snd

/-- The map of the given pairs; of several values for a name the last one stays. -/
def ofList (pairs : List (String × String)) : NameMap :=
  pairs.foldl (fun m pair => m.insert pair.1 pair.2) empty

end NameMap

end HttpServer
