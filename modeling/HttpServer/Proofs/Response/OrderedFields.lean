import HttpServer.Proofs.Response.FieldValues
import Mathlib.Data.List.Nodup
import Mathlib.Logic.Function.Basic

/-!
# Fields as an ordered map

The names of the fields of a header, in lower case, are the keys of a map that remembers in which
order they came (`OrderedFields`). Under a key stands one entry: the spelling that the field came
with, and its value. All changes to a header are changes of this map
(`HeaderChange.built_ordered_map`), so no two fields of a header ever have names that differ in case
alone.
-/

namespace HttpServer

/-- Fields by their names in lower case, in the order of insertion. -/
structure OrderedFields where
  order : List (List Char)
  /-- The spelling and the value under a key. -/
  entry : List Char → Option (String × String)
  nodup : order.Nodup
  mem_iff : ∀ key, key ∈ order ↔ (entry key).isSome = true
  spelled : ∀ key field, entry key = some field → lowerCase field.1 = key

namespace OrderedFields

def empty : OrderedFields where
  order := []
  entry _ := none
  nodup := .nil
  mem_iff _ := by simp
  spelled := nofun

/-- The value of a field, under any spelling. -/
def get? (m : OrderedFields) (name : String) : Option String :=
  (m.entry (lowerCase name)).map Prod.snd

/-- The fields in order, as they are spelled. -/
def toList (m : OrderedFields) : FieldList := m.order.filterMap m.entry

variable (m : OrderedFields) {key : List Char}

/-- A key without an entry has no place in the order. -/
theorem not_mem_order (h : m.entry key = none) : key ∉ m.order := by
  rw [m.mem_iff, h]
  exact nofun

/-- A new entry under a key is spelled right if it has the key of its name. -/
theorem spelled_update {entry : Option (String × String)}
    (h : ∀ field, entry = some field → lowerCase field.1 = key) (other : List Char)
    (found : String × String) (hfound : Function.update m.entry key entry other = some found) :
    lowerCase found.1 = other := by
  by_cases hother : other = key
  · rw [hother, Function.update_self] at hfound
    rw [hother]
    exact h found hfound
  · rw [Function.update_of_ne hother] at hfound
    exact m.spelled other found hfound

/-- A new value for a field that is there, which stays in its place and keeps its spelling. -/
def replace {field : String × String} (h : m.entry key = some field) (value : String) :
    OrderedFields where
  order := m.order
  entry := Function.update m.entry key (some (field.1, value))
  nodup := m.nodup
  mem_iff other := by
    rw [m.mem_iff]
    by_cases hother : other = key
    · rw [hother, Function.update_self, h]
      rfl
    · rw [Function.update_of_ne hother]
  spelled := by
    apply m.spelled_update
    rintro _ ⟨⟩
    exact m.spelled key field h

/-- A new field at the end. -/
def insert {name : String} (h : m.entry (lowerCase name) = none) (value : String) :
    OrderedFields where
  order := m.order.concat (lowerCase name)
  entry := Function.update m.entry (lowerCase name) (some (name, value))
  nodup := m.nodup.concat (m.not_mem_order h)
  mem_iff other := by
    rw [List.concat_eq_append, List.mem_append, List.mem_singleton, m.mem_iff]
    by_cases hother : other = lowerCase name
    · rw [hother, Function.update_self]
      exact iff_of_true (.inr rfl) rfl
    · rw [Function.update_of_ne hother]
      exact or_iff_left hother
  spelled := by
    apply m.spelled_update
    rintro _ ⟨⟩
    rfl

/-- Gives a field a value made from its old one: in its place, or at the end under this spelling. -/
def put (name : String) (value : Option String → String) : OrderedFields :=
  match h : m.entry (lowerCase name) with
  | some field => m.replace h (value (some field.2))
  | none => m.insert h (value none)

/-- Without the entry of a field. -/
def remove (name : String) : OrderedFields where
  order := m.order.filter (· ≠ lowerCase name)
  entry := Function.update m.entry (lowerCase name) none
  nodup := m.nodup.filter _
  mem_iff other := by
    rw [List.mem_filter, m.mem_iff, decide_eq_true_eq]
    by_cases hother : other = lowerCase name
    · rw [hother, Function.update_self]
      exact iff_of_false (fun h => h.2 rfl) nofun
    · rw [Function.update_of_ne hother]
      exact and_iff_left hother
  spelled := m.spelled_update nofun

/-- A change of the header as a change of the map. -/
def step (m : OrderedFields) : HeaderChange → OrderedFields
  | .setField name value => m.put name fun _ => value
  | .trySetField name value => if (m.get? name).isSome then m else m.put name fun _ => value
  | .appendField name value => m.put name (FieldList.joined value)
  | .removeField name => m.remove name
  | _ => m

/-- The map that changes lead to. -/
def ofChanges (changes : List HeaderChange) : OrderedFields := changes.foldl step empty

/-! ## Listing the entries -/

variable {m} {field : String × String}

/-- A field has a name if its key is the key of the name. -/
theorem sameName_iff_key (h : m.entry key = some field) (name : String) :
    sameName field.1 name = true ↔ key = lowerCase name := by
  rw [sameName_iff, m.spelled key field h]

/-- An entry that changes is seen only where its key is listed. -/
theorem filterMap_update {keys : List (List Char)} (h : key ∉ keys)
    (entry : Option (String × String)) :
    keys.filterMap (Function.update m.entry key entry) = keys.filterMap m.entry := by
  apply List.filterMap_congr
  intro other hother
  exact Function.update_of_ne (ne_of_mem_of_not_mem hother h) _ _

/-- Fields whose keys are not listed are not there. -/
theorem has_filterMap {name : String} {keys : List (List Char)} (h : lowerCase name ∉ keys) :
    FieldList.has (keys.filterMap m.entry) name = false := by
  rw [← FieldList.values_eq_nil_iff, FieldList.values, List.map_eq_nil_iff, List.filter_eq_nil_iff]
  intro field hfield
  obtain ⟨key, hkey, hentry⟩ := List.mem_filterMap.1 hfield
  rw [sameName_iff_key hentry]
  rintro rfl
  exact h hkey

/-- A field without an entry is not there. -/
theorem has_toList {name : String} (h : m.entry (lowerCase name) = none) :
    m.toList.has name = false := has_filterMap (m.not_mem_order h)

/-- The place of an entry. Its key stands nowhere else. -/
theorem exists_place (h : m.entry key = some field) :
    ∃ before after, m.order = before ++ key :: after ∧ key ∉ before ∧ key ∉ after ∧
      m.toList = before.filterMap m.entry ++ field :: after.filterMap m.entry := by
  have hmem : key ∈ m.order := by
    rw [m.mem_iff, h]
    rfl
  obtain ⟨before, after, horder⟩ := List.append_of_mem hmem
  have hnodup := m.nodup
  rw [horder, List.nodup_middle, List.nodup_cons, List.mem_append, not_or] at hnodup
  refine ⟨before, after, horder, hnodup.1.1, hnodup.1.2, ?_⟩
  rw [toList, horder, List.filterMap_append, List.filterMap_cons_some h]

/-- **Looking up a name** in the list finds what the map has under it. -/
theorem get?_toList (m : OrderedFields) (name : String) : m.toList.get? name = m.get? name := by
  rw [get?]
  cases hentry : m.entry (lowerCase name) with
  | none => exact Option.not_isSome_iff_eq_none.1 (Bool.eq_false_iff.1 (has_toList hentry))
  | some field =>
      obtain ⟨before, after, -, hbefore, -, hlist⟩ := exists_place hentry
      have hname : sameName field.1 name = true := (sameName_iff_key hentry name).2 rfl
      rw [hlist, FieldList.get?_append (has_filterMap hbefore), FieldList.get?,
        List.find?_cons, hname]

/-- **Names are pairwise different**, the case of letters aside. -/
theorem pairwise_toList (m : OrderedFields) :
    m.toList.Pairwise fun a b => sameName a.1 b.1 = false := by
  rw [toList, List.pairwise_filterMap]
  apply m.nodup.imp
  intro key other hne field hfield found hfound
  rw [← Bool.not_eq_true, sameName_iff_key hfield, m.spelled other found hfound]
  exact hne

/-! ## Changing an entry -/

/-- An entry is replaced in its place. -/
theorem toList_replace (h : m.entry key = some field) (value : String) :
    (m.replace h value).toList =
    m.order.filterMap (Function.update m.entry key (some (field.1, value))) := rfl

/-- A new one is put at the end. -/
theorem toList_insert {name : String} (h : m.entry (lowerCase name) = none) (value : String) :
    (m.insert h value).toList = m.toList ++ [(name, value)] := by
  have hlist : (m.insert h value).toList = (m.order.concat (lowerCase name)).filterMap
      (Function.update m.entry (lowerCase name) (some (name, value))) := rfl
  rw [hlist, List.concat_eq_append, List.filterMap_append, filterMap_update (m.not_mem_order h),
    List.filterMap_cons_some (Function.update_self _ _ _)]
  rfl

/-- An entry that is removed leaves the others in their order. -/
theorem toList_remove (m : OrderedFields) (name : String) :
    (m.remove name).toList = (m.order.filter (· ≠ lowerCase name)).filterMap m.entry := by
  have hgone : lowerCase name ∉ m.order.filter (· ≠ lowerCase name) := by simp
  exact filterMap_update hgone none

/-- A key that is not listed is not missed. -/
theorem filter_ne {keys : List (List Char)} (h : key ∉ keys) : keys.filter (· ≠ key) = keys :=
  List.filter_eq_self.2 fun _ hother => decide_eq_true (ne_of_mem_of_not_mem hother h)

/-- **Giving a field a value** in the list gives it in the map. -/
theorem alter_toList (m : OrderedFields) (name : String) (value : Option String → String) :
    m.toList.alter name value = (m.put name value).toList := by
  unfold put
  split
  · rename_i field h
    obtain ⟨before, after, horder, hbefore, hafter, hlist⟩ := exists_place h
    have hname : sameName field.1 name = true := (sameName_iff_key h name).2 rfl
    rw [hlist, FieldList.alter_append (has_filterMap hbefore), FieldList.alter, if_pos hname,
      toList_replace, horder, List.filterMap_append,
      List.filterMap_cons_some (Function.update_self _ _ _), filterMap_update hbefore,
      filterMap_update hafter]
  · rename_i h
    rw [FieldList.alter_of_not_has (has_toList h), toList_insert]

/-- **Removing a field** from the list removes its entry from the map. -/
theorem remove_toList (m : OrderedFields) (name : String) :
    m.toList.remove name = (m.remove name).toList := by
  rw [toList_remove]
  cases hentry : m.entry (lowerCase name) with
  | none =>
      have hend := FieldList.remove_append (has_toList hentry) []
      rw [List.append_nil, FieldList.remove, List.append_nil] at hend
      rw [hend, filter_ne (m.not_mem_order hentry), toList]
  | some field =>
      obtain ⟨before, after, horder, hbefore, hafter, hlist⟩ := exists_place hentry
      have hname : sameName field.1 name = true := (sameName_iff_key hentry name).2 rfl
      have hothers : m.order.filter (· ≠ lowerCase name) = before ++ after := by
        rw [horder, List.filter_append, List.filter_cons_of_neg (by simp), filter_ne hbefore,
          filter_ne hafter]
      rw [hlist, FieldList.remove_append (has_filterMap hbefore), FieldList.remove, if_pos hname,
        hothers, List.filterMap_append]

/-- **Setting a field** is putting its entry. -/
theorem fields_setField {h : ResponseHeader} (hfields : h.fields = m.toList) (name value : String) :
    (h.setField name value).fields = (m.put name fun _ => value).toList := by
  rw [← alter_toList, ← FieldList.set_eq_alter, ← hfields]
  rfl

/-- **A change of a header** is a change of the map of its fields. -/
theorem fields_apply (c : HeaderChange) {h : ResponseHeader} (hfields : h.fields = m.toList) :
    (c.apply h).fields = (m.step c).toList := by
  cases c with
  | setField name value => exact fields_setField hfields name value
  | trySetField name value =>
      have hhas : h.hasField name = (m.get? name).isSome := by
        rw [ResponseHeader.hasField, FieldList.has, hfields, get?_toList]
      rw [HeaderChange.apply, ResponseHeader.trySetField, step, hhas]
      split
      · exact hfields
      · exact fields_setField hfields name value
  | appendField name value =>
      rw [step, ← alter_toList, ← FieldList.append_eq_alter, ← hfields]
      rfl
  | removeField name =>
      rw [step, ← remove_toList, ← hfields]
      rfl
  | setCode code => exact hfields
  | setMessage message => exact hfields
  | setVersion version => exact hfields
  | addCookie cookie => exact hfields

/-- **Changes of a header are changes of the map**, by induction on them. -/
theorem fields_applyAll (changes : List HeaderChange) {h : ResponseHeader}
    (hfields : h.fields = m.toList) :
    (HeaderChange.applyAll changes h).fields = (changes.foldl step m).toList := by
  induction changes generalizing h m with
  | nil => exact hfields
  | cons c changes ih => exact ih (fields_apply c hfields)

end OrderedFields

/-! ## What a change leaves alone -/

namespace FieldList

/-- The fields of all other names, in order. -/
def others (fields : FieldList) (name : String) : FieldList :=
  fields.filter fun field => !sameName field.1 name

/-- The fields of other names, one after the other. -/
theorem others_cons (field : String × String) (fields : FieldList) (name : String) :
    others (field :: fields) name =
      if sameName field.1 name then fields.others name else field :: fields.others name := by
  rw [others, List.filter_cons]
  cases sameName field.1 name with
  | true => rfl
  | false => rfl

/-- Altering a field leaves those of other names. -/
theorem others_alter (name : String) (value : Option String → String) (fields : FieldList) :
    (fields.alter name value).others name = fields.others name := by
  induction fields with
  | nil => rw [alter, others_cons, sameName_refl, if_pos rfl]
  | cons field fields ih =>
      obtain ⟨key, old⟩ := field
      rw [alter]
      by_cases hkey : sameName key name = true
      · rw [if_pos hkey, others_cons, others_cons, if_pos hkey, if_pos hkey]
      · rw [if_neg hkey, others_cons, others_cons, ih]

theorem others_remove (name : String) (fields : FieldList) :
    (fields.remove name).others name = fields.others name := by
  induction fields with
  | nil => rfl
  | cons field fields ih =>
      obtain ⟨key, old⟩ := field
      rw [remove, others_cons]
      by_cases hkey : sameName key name = true
      · rw [if_pos hkey, if_pos hkey]
      · rw [if_neg hkey, if_neg hkey, others_cons, if_neg hkey, ih]

end FieldList

namespace HeaderChange

/-- **A change of one field** leaves the others, their order, the status and the cookies alone. -/
theorem others_apply {c : HeaderChange} {name : String} (h : c.field? = some name)
    (header : ResponseHeader) :
    (c.apply header).fields.others name = header.fields.others name ∧
      { c.apply header with fields := header.fields } = header := by
  cases c with
  | setField field value =>
      cases h
      refine ⟨?_, rfl⟩
      rw [apply, ResponseHeader.setField, FieldList.set_eq_alter, FieldList.others_alter]
  | trySetField field value =>
      cases h
      rw [apply, ResponseHeader.trySetField]
      split
      · exact ⟨rfl, rfl⟩
      · rw [ResponseHeader.setField, FieldList.set_eq_alter, FieldList.others_alter]
        exact ⟨rfl, rfl⟩
  | appendField field value =>
      cases h
      refine ⟨?_, rfl⟩
      rw [apply, ResponseHeader.appendField, FieldList.append_eq_alter, FieldList.others_alter]
  | removeField field =>
      cases h
      exact ⟨FieldList.others_remove name header.fields, rfl⟩
  | setCode code => cases h
  | setMessage message => cases h
  | setVersion version => cases h
  | addCookie cookie => cases h

/-- The header that changes make of a new one. -/
def built (changes : List HeaderChange) : ResponseHeader := applyAll changes {}

/-- **A header is an ordered map of its fields.** Whatever changes made it, no two of its names
agree but for the case of letters, its fields are those of the map that the changes lead to, and a
name finds under any spelling what the map has. A change of one field leaves the other fields and
their order alone, and everything in the header but its fields. -/
theorem built_ordered_map (changes : List HeaderChange) :
    (built changes).fields.Pairwise (fun a b => sameName a.1 b.1 = false) ∧
    (built changes).fields = (OrderedFields.ofChanges changes).toList ∧
    (∀ name, (built changes).field? name = (OrderedFields.ofChanges changes).get? name ∧
      (built changes).hasField name = ((OrderedFields.ofChanges changes).get? name).isSome) ∧
    ∀ (c : HeaderChange) (name : String), c.field? = some name →
      (c.apply (built changes)).fields.others name = (built changes).fields.others name ∧
      { c.apply (built changes) with fields := (built changes).fields } = built changes := by
  have hfields : (built changes).fields = (OrderedFields.ofChanges changes).toList :=
    OrderedFields.fields_applyAll changes rfl
  have hlookup (name : String) :
      (built changes).field? name = (OrderedFields.ofChanges changes).get? name := by
    rw [ResponseHeader.field?, hfields]
    exact OrderedFields.get?_toList _ name
  refine ⟨?_, hfields, fun name => ⟨hlookup name, ?_⟩, fun c name hname => others_apply hname _⟩
  · rw [hfields]
    exact OrderedFields.pairwise_toList _
  · exact congrArg Option.isSome (hlookup name)

/-- Two fields in several spellings, one of them removed and set again. -/
def respelled : List HeaderChange :=
  [.setField "Link" "<a>", .appendField "Vary" "Accept", .setField "link" "<b>",
    .appendField "VARY" "Origin", .removeField "LINK", .setField "lINK" "<c>"]

theorem built_ordered_map_respelled :
    (built respelled).fields = [("Vary", "Accept, Origin"), ("lINK", "<c>")] ∧
    (built respelled).field? "vary" = some "Accept, Origin" ∧
    ((HeaderChange.removeField "link").apply (built respelled)).fields.others "link" =
      [("Vary", "Accept, Origin")] := by
  obtain ⟨-, hfields, hlookup, hothers⟩ := built_ordered_map respelled
  exact ⟨hfields.trans (by decide), (hlookup "vary").1.trans (by decide),
    (hothers (.removeField "link") "link" rfl).1.trans (by decide)⟩

end HeaderChange

end HttpServer
