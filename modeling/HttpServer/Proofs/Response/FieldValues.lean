import HttpServer.Response.Change

/-!
# The values of a field

All values that stand under a name in the lines of a header, whatever the case of the name
(`ResponseHeader.values`). Setting a field replaces the first of them, appending extends it, and
removing the field drops it; the values under any other name stay as they are. So a header keeps
what it says under a name through all changes that do not name it (`HeaderChange.values_applyAll`).
-/

namespace HttpServer

/-- Names that differ in case alone are the same for every other name. -/
theorem sameName_congr {a b : String} (h : sameName a b = true) (name : String) :
    sameName a name = sameName b name := by
  rw [sameName_iff] at h
  rw [sameName, sameName, h]

namespace FieldList

/-- The values under a name, whatever its case, in order. -/
def values (fields : FieldList) (name : String) : List String :=
  (fields.filter fun field => sameName field.1 name).map Prod.snd

/-- The values under a name, one line after the other. -/
theorem values_cons (key value : String) (fields : FieldList) (name : String) :
    values ((key, value) :: fields) name =
      if sameName key name then value :: fields.values name else fields.values name := by
  rw [values, List.filter_cons]
  dsimp only
  split
  · rfl
  · rfl

theorem values_concat (fields more : FieldList) (name : String) :
    values (fields ++ more) name = fields.values name ++ more.values name := by
  rw [values, List.filter_append, List.map_append]
  rfl

/-- There are values under a name exactly if the field is there. -/
theorem values_eq_nil_iff (fields : FieldList) (name : String) :
    fields.values name = [] ↔ fields.has name = false := by
  rw [values, List.map_eq_nil_iff, List.filter_eq_nil_iff, has, get?, Option.isSome_map,
    ← Bool.not_eq_true, List.find?_isSome]
  simp

/-- A name that agrees with one of two that differ does not agree with the other. -/
theorem not_sameName_of_ne {key other name : String} (hne : ¬ sameName key other = true)
    (hkey : sameName key name = true) : ¬ sameName other name = true := by
  intro hother
  rw [sameName_comm] at hother
  rw [sameName_congr hkey, hother] at hne
  exact hne rfl

/-- Gives a field a value made from its old one: where it stands, or at the end. -/
def alter (name : String) (value : Option String → String) : FieldList → FieldList
  | [] => [(name, value none)]
  | (key, old) :: rest =>
    if sameName key name then (key, value (some old)) :: rest
    else (key, old) :: alter name value rest

/-- Setting a field puts its value in the place of any that it had. -/
theorem set_eq_alter (name value : String) (fields : FieldList) :
    fields.set name value = fields.alter name fun _ => value := by
  induction fields with
  | nil => rfl
  | cons field fields ih => rw [set, alter, ih]

/-- A value behind those that are there. -/
def joined (value : String) : Option String → String
  | none => value
  | some old => old ++ ", " ++ value

/-- Appending joins its value to the one that it had. -/
theorem append_eq_alter (name value : String) (fields : FieldList) :
    fields.append name value = fields.alter name (joined value) := by
  induction fields with
  | nil => rfl
  | cons field fields ih => rw [append, alter, ih, joined]

/-- Altering a field replaces the first of its values and nothing else. -/
theorem values_alter (key : String) (value : Option String → String) (fields : FieldList)
    (name : String) :
    values (fields.alter key value) name =
      if sameName key name then value (fields.values name).head? :: (fields.values name).tail
      else fields.values name := by
  induction fields with
  | nil => exact values_cons key (value none) [] name
  | cons field fields ih =>
      obtain ⟨found, old⟩ := field
      rw [alter]
      by_cases hfound : sameName found key = true
      · rw [if_pos hfound, values_cons, values_cons, sameName_congr hfound]
        split
        · rfl
        · rfl
      · rw [if_neg hfound, values_cons, values_cons, ih]
        by_cases hname : sameName found name = true
        · rw [if_pos hname, if_pos hname, if_neg (not_sameName_of_ne hfound hname),
            if_neg (not_sameName_of_ne hfound hname)]
        · rw [if_neg hname, if_neg hname]

/-- **Setting a field** replaces the first of its values and nothing else. -/
theorem values_set (key value : String) (fields : FieldList) (name : String) :
    values (fields.set key value) name =
      if sameName key name then value :: (fields.values name).tail else fields.values name := by
  rw [set_eq_alter]
  exact values_alter key (fun _ => value) fields name

theorem not_has_cons {field : String × String} {fields : FieldList} {name : String} :
    has (field :: fields) name = false ↔
      ¬ sameName field.1 name = true ∧ fields.has name = false := by
  rw [← values_eq_nil_iff, ← values_eq_nil_iff, values_cons]
  split
  · rename_i hname
    exact iff_of_false (List.cons_ne_nil _ _) fun h => h.1 hname
  · rename_i hname
    exact (and_iff_right hname).symm

/-- Fields of other names in front stay as they are. -/
theorem alter_append {name : String} {fields : FieldList} (h : fields.has name = false)
    (value : Option String → String) (rest : FieldList) :
    alter name value (fields ++ rest) = fields ++ rest.alter name value := by
  induction fields with
  | nil => rfl
  | cons field fields ih =>
      obtain ⟨hname, hothers⟩ := not_has_cons.1 h
      rw [List.cons_append, alter, if_neg hname, ih hothers, List.cons_append]

/-- A field is removed where it stands first. -/
theorem remove_append {name : String} {fields : FieldList} (h : fields.has name = false)
    (rest : FieldList) : remove name (fields ++ rest) = fields ++ rest.remove name := by
  induction fields with
  | nil => rfl
  | cons field fields ih =>
      obtain ⟨hname, hothers⟩ := not_has_cons.1 h
      rw [List.cons_append, remove, if_neg hname, ih hothers, List.cons_append]

/-- A field is found where it stands first. -/
theorem get?_append {name : String} {fields : FieldList} (h : fields.has name = false)
    (rest : FieldList) : get? (fields ++ rest) name = rest.get? name := by
  rw [has, get?, Option.isSome_map, Option.isSome_eq_false_iff, Option.isNone_iff_eq_none] at h
  rw [get?, List.find?_append, h]
  rfl

/-- A field that is not there goes to the end. -/
theorem alter_of_not_has {name : String} {fields : FieldList} (h : fields.has name = false)
    (value : Option String → String) :
    fields.alter name value = fields ++ [(name, value none)] := by
  have hend := alter_append h value []
  rw [List.append_nil] at hend
  exact hend

/-- A field that is not there is put at the end. -/
theorem set_of_not_has {name : String} {fields : FieldList} (h : fields.has name = false)
    (value : String) : fields.set name value = fields ++ [(name, value)] := by
  rw [set_eq_alter, alter_of_not_has h]

/-- Appending to a field leaves the values under all other names alone. -/
theorem values_append_of_ne {key name : String} (h : sameName key name = false) (value : String)
    (fields : FieldList) : values (fields.append key value) name = fields.values name := by
  rw [append_eq_alter, values_alter, h]
  rfl

/-- **Removing a field** drops the first of its values and nothing else. -/
theorem values_remove (key : String) (fields : FieldList) (name : String) :
    values (fields.remove key) name =
      if sameName key name then (fields.values name).tail else fields.values name := by
  induction fields with
  | nil =>
      rw [remove]
      split
      · rfl
      · rfl
  | cons field fields ih =>
      obtain ⟨found, old⟩ := field
      rw [remove]
      by_cases hfound : sameName found key = true
      · rw [if_pos hfound, values_cons, sameName_congr hfound]
        split
        · rfl
        · rfl
      · rw [if_neg hfound, values_cons, values_cons, ih]
        by_cases hname : sameName found name = true
        · rw [if_pos hname, if_pos hname, if_neg (not_sameName_of_ne hfound hname),
            if_neg (not_sameName_of_ne hfound hname)]
        · rw [if_neg hname, if_neg hname]

end FieldList

namespace ResponseHeader

/-- The values under a name in the lines of a header, those of the cookies included. -/
def values (h : ResponseHeader) (name : String) : List String := h.lines.values name

variable {name : String} (h : ResponseHeader)

/-- Cookies have lines of their own name alone. -/
theorem values_eq (hname : sameName cookieField name = false) :
    h.values name = h.fields.values name := by
  have hcookies (cookies : List Cookie) :
      FieldList.values (cookies.map fun cookie => (cookieField, cookie.render)) name = [] := by
    induction cookies with
    | nil => rfl
    | cons cookie cookies ih => rw [List.map_cons, FieldList.values_cons, hname, ih]; rfl
  rw [values, lines, FieldList.values_concat, hcookies, List.append_nil]

/-- In a header, too, there are values under a name exactly if the field is there, for its cookies
are under a name of their own. -/
theorem values_eq_nil_iff (hname : sameName cookieField name = false) :
    h.values name = [] ↔ h.hasField name = false := by
  rw [h.values_eq hname]
  exact h.fields.values_eq_nil_iff name

/-- **Setting a field** replaces its first value and touches no other name. -/
theorem values_setField (hname : sameName cookieField name = false) (key value : String) :
    (h.setField key value).values name =
      if sameName key name then value :: (h.values name).tail else h.values name := by
  rw [values_eq _ hname, values_eq _ hname]
  exact FieldList.values_set key value h.fields name

/-- **Removing a field** drops its first value and touches no other name. -/
theorem values_removeField (hname : sameName cookieField name = false) (key : String) :
    (h.removeField key).values name =
      if sameName key name then (h.values name).tail else h.values name := by
  rw [values_eq _ hname, values_eq _ hname]
  exact FieldList.values_remove key h.fields name

/-- To set a field if it is not there touches no other name either. -/
theorem values_trySetField_of_ne (hname : sameName cookieField name = false) {key : String}
    (hkey : sameName key name = false) (value : String) :
    (h.trySetField key value).values name = h.values name := by
  unfold trySetField
  split
  · rfl
  · rw [values_setField _ hname, hkey]
    rfl

/-- A field that is there keeps its values, and otherwise it gets this one. -/
theorem values_trySetField (hname : sameName cookieField name = false) (value : String) :
    (h.trySetField name value).values name =
      if h.values name = [] then [value] else h.values name := by
  unfold trySetField
  by_cases hfield : h.hasField name = true
  · have hvalues : ¬ h.values name = [] := by
      rw [h.values_eq_nil_iff hname, hfield]
      exact Bool.noConfusion
    rw [if_pos hfield, if_neg hvalues]
  · have hvalues : h.values name = [] := (h.values_eq_nil_iff hname).2 (by simpa using hfield)
    rw [if_neg hfield, if_pos hvalues, values_setField _ hname, sameName_refl, if_pos rfl, hvalues]
    rfl

/-- A cookie adds a line under the name of cookies alone. -/
theorem values_addCookie (hname : sameName cookieField name = false) (cookie : Cookie) :
    (h.addCookie cookie).values name = h.values name := by
  rw [values_eq _ hname, values_eq _ hname]
  rfl

end ResponseHeader

namespace HeaderChange

/-- The field that a change names. -/
def field? : HeaderChange → Option String
  | .setField name _ => some name
  | .trySetField name _ => some name
  | .appendField name _ => some name
  | .removeField name => some name
  | _ => none

/-- The change does not name this field, in any case of its letters. -/
def Spares (c : HeaderChange) (name : String) : Prop :=
  (c.field?.any fun field => sameName field name) = false

instance (c : HeaderChange) (name : String) : Decidable (c.Spares name) :=
  inferInstanceAs (Decidable (_ = _))

/-- **What a change does not name it leaves alone.** -/
theorem values_apply {c : HeaderChange} {name : String} (h : c.Spares name)
    (hname : sameName ResponseHeader.cookieField name = false) (header : ResponseHeader) :
    (c.apply header).values name = header.values name := by
  cases c with
  | setCode code => rfl
  | setMessage message => rfl
  | setVersion version => rfl
  | addCookie cookie => exact header.values_addCookie hname cookie
  | setField field value =>
      have hfield : sameName field name = false := h
      rw [apply, header.values_setField hname, hfield]
      rfl
  | trySetField field value => exact header.values_trySetField_of_ne hname h value
  | appendField field value =>
      rw [ResponseHeader.values_eq _ hname, ResponseHeader.values_eq _ hname]
      exact FieldList.values_append_of_ne h value header.fields
  | removeField field =>
      have hfield : sameName field name = false := h
      rw [apply, header.values_removeField hname, hfield]
      rfl

/-- Makes changes one after the other. -/
def applyAll (changes : List HeaderChange) (header : ResponseHeader) : ResponseHeader :=
  changes.foldl (fun header change => change.apply header) header

/-- **Changes that do not name a field** leave its values, by induction on the changes. -/
theorem values_applyAll {changes : List HeaderChange} {name : String}
    (h : ∀ c ∈ changes, c.Spares name) (hname : sameName ResponseHeader.cookieField name = false)
    (header : ResponseHeader) : (applyAll changes header).values name = header.values name := by
  induction changes generalizing header with
  | nil => rfl
  | cons c changes ih =>
      have hfirst := values_apply (h c List.mem_cons_self) hname header
      have hrest := ih (fun other hmem => h other (List.mem_cons_of_mem _ hmem)) (c.apply header)
      exact hrest.trans hfirst

end HeaderChange

end HttpServer
