import HttpServer.Proofs.Request.Grammar
import HttpServer.Routing.Router
import Mathlib.Data.List.Forall2
import Mathlib.Data.List.Nodup

/-!
# Templates and parameters

Putting values in the place of the parameters turns a template into a path (`Template.fill`), and a
path that the template covers gives values for its parameters. The one undoes the other, up to a
slash in front (`Router.template_inverse`): what was put in is captured, and what is captured makes
up the path again if no name stands for two parameters. Only a path with as many segments as the
template is covered.
-/

universe u

namespace HttpServer

/-! ## Parts -/

/-- Splitting a text is what the library does with lists. -/
theorem splitAll_eq_splitOnP (isSeparator : Char → Bool) (cs : List Char) :
    splitAll isSeparator cs = cs.splitOnP isSeparator := by
  induction cs with
  | nil => rfl
  | cons c cs ih =>
      rw [splitAll, ih, List.splitOnP_cons_eq_if_modifyHead]
      cases hparts : cs.splitOnP isSeparator with
      | nil => exact absurd hparts (List.splitOnP_ne_nil _ _)
      | cons first rest => rfl

theorem joinWith_eq_intercalate (separator : List Char) (parts : List (List Char)) :
    joinWith separator parts = separator.intercalate parts := by
  induction parts with
  | nil => rfl
  | cons part parts ih =>
      cases parts with
      | nil => exact List.intercalate_singleton.symm
      | cons next parts =>
          rw [joinWith, ih, List.intercalate_cons_cons]
          exact List.cons_ne_nil next parts

/-- Parts without separators are cut apart again. -/
theorem splitAll_joinWith {separator : Char} {parts : List (List Char)} (hne : parts ≠ [])
    (h : ∀ part ∈ parts, separator ∉ part) :
    splitAll (· == separator) (joinWith [separator] parts) = parts := by
  rw [splitAll_eq_splitOnP, joinWith_eq_intercalate]
  exact List.splitOn_intercalate separator h hne

/-- No part has the separator. -/
theorem not_mem_of_mem_splitAll {separator : Char} {cs part : List Char}
    (h : part ∈ splitAll (· == separator) cs) : separator ∉ part := by
  induction cs generalizing part with
  | nil =>
      rw [List.mem_singleton.1 h]
      exact List.not_mem_nil
  | cons c cs ih =>
      obtain ⟨first, rest, hparts⟩ :=
        List.exists_cons_of_ne_nil (splitAll_ne_nil (· == separator) cs)
      rw [hparts] at ih
      rw [splitAll, hparts] at h
      by_cases hc : (c == separator) = true
      · rw [if_pos hc] at h
        rcases List.mem_cons.1 h with rfl | h
        · exact List.not_mem_nil
        · exact ih h
      · rw [if_neg hc] at h
        rcases List.mem_cons.1 h with rfl | h
        · intro hmem
          rcases List.mem_cons.1 hmem with rfl | hmem
          · exact hc (beq_self_eq_true _)
          · exact ih List.mem_cons_self hmem
        · exact ih (List.mem_cons_of_mem _ h)

/-- There is one part more than there are separators. -/
theorem length_splitAll (separator : Char) (cs : List Char) :
    (splitAll (· == separator) cs).length = cs.count separator + 1 := by
  induction cs with
  | nil => rfl
  | cons c cs ih =>
      obtain ⟨first, rest, hparts⟩ :=
        List.exists_cons_of_ne_nil (splitAll_ne_nil (· == separator) cs)
      rw [hparts] at ih
      rw [splitAll, hparts, List.count_cons, ← Nat.add_right_comm, ← ih]
      split
      · rfl
      · rfl

/-- A path without the one slash in front that does not count. -/
def withoutSlash (path : String) : List Char :=
  match path.toList with
  | '/' :: rest => rest
  | other => other

/-- How many segments a path has. -/
def segmentCount (path : String) : Nat := (withoutSlash path).count '/' + 1

theorem pathParts_eq (path : String) : pathParts path = splitAll (· == '/') (withoutSlash path) :=
  rfl

/-- A path has as many parts as segments. -/
theorem length_pathParts (path : String) : (pathParts path).length = segmentCount path :=
  length_splitAll '/' (withoutSlash path)

/-- A slash in front cuts off one empty part. -/
theorem splitAll_toList (path : String) :
    splitAll (· == '/') path.toList = [] :: pathParts path ∧ path.toList.head? = some '/' ∨
      splitAll (· == '/') path.toList = pathParts path ∧ path.toList.head? ≠ some '/' := by
  rw [pathParts_eq, withoutSlash]
  split
  · rename_i rest hslash
    rw [hslash]
    exact .inl ⟨rfl, rfl⟩
  · rename_i hother
    refine .inr ⟨rfl, fun hslash => ?_⟩
    obtain ⟨rest, hrest⟩ := List.head?_eq_some_iff.1 hslash
    exact hother rest hrest

/-- A path that does not start with a slash is left as it is. -/
theorem withoutSlash_of_head {cs : List Char} (h : cs.head? ≠ some '/') :
    withoutSlash (String.ofList cs) = cs := by
  rw [withoutSlash, String.toList_ofList]
  split
  · exact absurd rfl h
  · rfl

/-! ## Filling a template -/

namespace Template

/-- The name of the parameter that stands as a part of a template. -/
def parameter? : List Char → Option String
  | ':' :: name => some (String.ofList name)
  | _ => none

/-- The names of the parameters of a template, in order. -/
def parameters (template : String) : List String :=
  (splitAll (· == '/') template.toList).filterMap parameter?

/-- A part of a template, with a value in the place of a parameter. -/
def fillPart (values : String → String) (part : List Char) : List Char :=
  match parameter? part with
  | some name => (values name).toList
  | none => part

/-- The path that a template becomes with these values for its parameters. -/
def fill (values : String → String) (template : String) : String :=
  String.ofList (joinWith ['/'] ((splitAll (· == '/') template.toList).map (fillPart values)))

/-- Every parameter has a value that may stand as a part of a path: not empty, and without
slashes. -/
def Assigns (values : String → String) (template : String) : Prop :=
  ∀ name ∈ parameters template, values name ≠ "" ∧ '/' ∉ (values name).toList

instance (values : String → String) (template : String) : Decidable (Assigns values template) :=
  inferInstanceAs (Decidable (∀ name ∈ parameters template, _))

/-- The slash in front holds no parameter. -/
theorem parameters_eq (template : String) :
    parameters template = (pathParts template).filterMap parameter? := by
  rw [parameters]
  rcases splitAll_toList template with ⟨hparts, -⟩ | ⟨hparts, -⟩
  · rw [hparts]
    rfl
  · rw [hparts]

section Filling

variable {values : String → String} {template : String} (h : Assigns values template)

include h

/-- A part that is filled is one part again, and it is not empty unless it was. -/
theorem fillPart_clean {part : List Char} (hpart : part ∈ pathParts template) :
    '/' ∉ fillPart values part ∧ (fillPart values part = [] → part = []) := by
  unfold fillPart
  split
  · rename_i name hname
    have hmem : name ∈ parameters template := by
      rw [parameters_eq]
      exact List.mem_filterMap.2 ⟨part, hpart, hname⟩
    exact ⟨(h name hmem).2, fun hnil => absurd (String.toList_eq_nil_iff.1 hnil) (h name hmem).1⟩
  · exact ⟨not_mem_of_mem_splitAll hpart, id⟩

/-- Filled parts start with a slash only if the template does. -/
theorem head?_joinWith_fillPart (hslash : template.toList.head? ≠ some '/') :
    (joinWith ['/'] ((pathParts template).map (fillPart values))).head? ≠ some '/' := by
  rcases splitAll_toList template with ⟨-, hhead⟩ | ⟨hsplit, -⟩
  · exact absurd hhead hslash
  have hjoin : joinWith ['/'] (pathParts template) = template.toList := by
    rw [← hsplit]
    exact join_splitAll '/' template.toList
  obtain ⟨first, others, hparts⟩ :=
    List.exists_cons_of_ne_nil (splitAll_ne_nil _ (withoutSlash template))
  rw [← pathParts_eq] at hparts
  obtain ⟨hclean, hempty⟩ :=
    fillPart_clean h (hparts ▸ List.mem_cons_self : first ∈ pathParts template)
  rw [hparts, List.map_cons]
  cases hfilled : fillPart values first with
  | cons c more =>
      have hc : c ≠ '/' := fun hc => hclean (by rw [hfilled, hc]; exact List.mem_cons_self)
      cases others with
      | nil => exact fun hhead => hc (Option.some.inj hhead)
      | cons next others => exact fun hhead => hc (Option.some.inj hhead)
  | nil =>
      rw [hparts, hempty hfilled] at hjoin
      cases others with
      | nil => exact nofun
      | cons next others =>
          -- The template would start with the border behind its empty first part.
          rw [← hjoin] at hslash
          exact absurd rfl hslash

/-- Filling leaves the slash in front as it is. -/
theorem withoutSlash_fill : withoutSlash (fill values template) =
    joinWith ['/'] ((pathParts template).map (fillPart values)) := by
  rw [fill]
  rcases splitAll_toList template with ⟨hsplit, -⟩ | ⟨hsplit, hhead⟩
  · obtain ⟨first, others, hparts⟩ :=
      List.exists_cons_of_ne_nil (splitAll_ne_nil _ (withoutSlash template))
    rw [← pathParts_eq] at hparts
    rw [hsplit, hparts, withoutSlash, String.toList_ofList]
    rfl
  · rw [hsplit]
    exact withoutSlash_of_head (head?_joinWith_fillPart h hhead)

/-- The parts of the filled path are the filled parts. -/
theorem pathParts_fill :
    pathParts (fill values template) = (pathParts template).map (fillPart values) := by
  rw [pathParts_eq, withoutSlash_fill h]
  apply splitAll_joinWith
  · rw [ne_eq, List.map_eq_nil_iff]
    exact splitAll_ne_nil _ _
  · intro part hpart
    obtain ⟨original, horiginal, rfl⟩ := List.mem_map.1 hpart
    exact (fillPart_clean h horiginal).1

end Filling

end Template

/-! ## Matching -/

namespace Pattern

/-- What a part of a template is read as: a parameter with its name, and all else as it stands. -/
inductive Stands : List Char → Segment → Prop
  | parameter (name : List Char) : Stands (':' :: name) (.parameter name)
  | literal {text : List Char} (h : Template.parameter? text = none) : Stands text (.literal text)

/-- A segment stands for the part that it was read from. -/
theorem stands_of_read? {part : List Char} {segment : Segment}
    (h : Segment.read? part = some segment) : Stands part segment := by
  unfold Segment.read? at h
  split at h
  · cases h
  · cases h
    exact .parameter _
  · rename_i hother
    cases h
    apply Stands.literal
    unfold Template.parameter?
    split
    · exact absurd rfl (hother _)
    · rfl

/-- The segments of a template stand for its parts, one by one. -/
theorem stands_of_mapM {parts : List (List Char)} {segments : List Segment}
    (h : parts.mapM Segment.read? = some segments) : List.Forall₂ Stands parts segments := by
  induction parts generalizing segments with
  | nil =>
      cases h
      exact .nil
  | cons part parts ih =>
      rw [List.mapM_cons] at h
      obtain ⟨segment, hsegment, h⟩ := Option.bind_eq_some_iff.1 h
      obtain ⟨others, hothers, h⟩ := Option.bind_eq_some_iff.1 h
      cases h
      exact .cons (stands_of_read? hsegment) (ih hothers)

/-- What is captured, part by part. -/
def captured (segments : List Segment) (pieces : List (List Char)) : List (String × String) :=
  (segments.zip pieces).filterMap fun (segment, part) => segment.capture? part

/-- A parameter captures the piece in its place. -/
theorem captured_parameter (name piece : List Char) (segments : List Segment)
    (pieces : List (List Char)) :
    captured (.parameter name :: segments) (piece :: pieces) =
      (String.ofList name, String.ofList piece) :: captured segments pieces := rfl

/-- Other segments capture nothing. -/
theorem captured_literal (text piece : List Char) (segments : List Segment)
    (pieces : List (List Char)) :
    captured (.literal text :: segments) (piece :: pieces) = captured segments pieces := rfl

theorem filterMap_parameter (name : List Char) (parts : List (List Char)) :
    ((':' :: name) :: parts).filterMap Template.parameter? =
      String.ofList name :: parts.filterMap Template.parameter? := rfl

variable {parts pieces : List (List Char)} {segments : List Segment} {values : String → String}

/-- **What is put into a template is captured again.** -/
theorem captured_fill (h : List.Forall₂ Stands parts segments)
    (hvalues : ∀ name ∈ parts.filterMap Template.parameter?, values name ≠ "") :
    acceptsParts segments (parts.map (Template.fillPart values)) = true ∧
      captured segments (parts.map (Template.fillPart values)) =
        (parts.filterMap Template.parameter?).map fun name => (name, values name) := by
  induction h with
  | nil => exact ⟨rfl, rfl⟩
  | cons hpart _ ih =>
      rw [List.map_cons, acceptsParts, Bool.and_eq_true]
      cases hpart with
      | parameter name =>
          rw [filterMap_parameter] at hvalues ⊢
          obtain ⟨hvalue, hothers⟩ := List.forall_mem_cons.1 hvalues
          obtain ⟨haccepts, hcaptured⟩ := ih hothers
          refine ⟨⟨?_, haccepts⟩, ?_⟩
          · exact bne_iff_ne.2 fun hnil => hvalue (String.toList_eq_nil_iff.1 hnil)
          · rw [captured_parameter, hcaptured, List.map_cons, Template.fillPart,
              Template.parameter?]
            exact congrArg (fun value => (_, value) :: _) String.ofList_toList
      | literal hliteral =>
          rw [List.filterMap_cons_none hliteral] at hvalues ⊢
          obtain ⟨haccepts, hcaptured⟩ := ih hvalues
          refine ⟨⟨?_, haccepts⟩, ?_⟩
          · rw [Template.fillPart, hliteral]
            exact beq_self_eq_true _
          · rw [captured_literal, hcaptured]

/-- **What is captured makes up the path again.** -/
theorem fill_captured (h : List.Forall₂ Stands parts segments)
    (haccepts : acceptsParts segments pieces = true) :
    (captured segments pieces).map Prod.fst = parts.filterMap Template.parameter? ∧
      (∀ pair ∈ captured segments pieces, pair.2 ≠ "" ∧ pair.2.toList ∈ pieces) ∧
      ∀ values : String → String, (∀ pair ∈ captured segments pieces, values pair.1 = pair.2) →
        parts.map (Template.fillPart values) = pieces := by
  induction h generalizing pieces with
  | nil =>
      cases pieces with
      | nil => exact ⟨rfl, nofun, fun _ _ => rfl⟩
      | cons piece pieces => cases haccepts
  | cons hpart _ ih =>
      cases pieces with
      | nil => cases haccepts
      | cons piece pieces =>
          rw [acceptsParts, Bool.and_eq_true] at haccepts
          obtain ⟨hpiece, haccepts⟩ := haccepts
          obtain ⟨hnames, hpieces, hback⟩ := ih haccepts
          have hothers : ∀ pair ∈ captured _ pieces, pair.2 ≠ "" ∧
              pair.2.toList ∈ piece :: pieces :=
            fun pair hpair =>
              ⟨(hpieces pair hpair).1, List.mem_cons_of_mem _ (hpieces pair hpair).2⟩
          cases hpart with
          | parameter name =>
              rw [captured_parameter, filterMap_parameter]
              refine ⟨?_, ?_, fun values hvalues => ?_⟩
              · rw [List.map_cons, hnames]
              · refine List.forall_mem_cons.2 ⟨⟨fun hempty => ?_, ?_⟩, hothers⟩
                · exact bne_iff_ne.1 hpiece (String.ofList_eq_empty_iff.1 hempty)
                · rw [String.toList_ofList]
                  exact List.mem_cons_self
              · obtain ⟨hvalue, hvalues⟩ := List.forall_mem_cons.1 hvalues
                rw [List.map_cons, hback values hvalues, Template.fillPart, Template.parameter?]
                dsimp only at hvalue ⊢
                rw [hvalue, String.toList_ofList]
          | literal hliteral =>
              rw [captured_literal, List.filterMap_cons_none hliteral]
              refine ⟨hnames, hothers, fun values hvalues => ?_⟩
              rw [List.map_cons, hback values hvalues, Template.fillPart, hliteral]
              exact congrArg (· :: pieces) (eq_of_beq hpiece)

/-- A template accepts as many pieces as it has segments. -/
theorem length_of_acceptsParts (h : acceptsParts segments pieces = true) :
    segments.length = pieces.length := by
  induction segments generalizing pieces with
  | nil =>
      cases pieces with
      | nil => rfl
      | cons piece pieces => cases h
  | cons segment segments ih =>
      cases pieces with
      | nil => cases h
      | cons piece pieces =>
          rw [acceptsParts, Bool.and_eq_true] at h
          rw [List.length_cons, List.length_cons, ih h.2]

/-- The last piece that a name stands for is its value. -/
theorem get?_captures (path name : String) :
    ((Pattern.template segments).captures path).get? name =
      lastValue? (captured segments (pathParts path)) name :=
  NameMap.get?_ofList _ name

end Pattern

/-! ## Values by name -/

/-- A value that is found is one of the pairs. -/
theorem mem_of_lastValue? {pairs : List (String × String)} {name value : String}
    (h : lastValue? pairs name = some value) : (name, value) ∈ pairs := by
  rw [lastValue?, Option.map_eq_some_iff] at h
  obtain ⟨⟨key, found⟩, hfind, rfl⟩ := h
  have hkey : key = name := by simpa using List.find?_some hfind
  rw [← hkey]
  exact List.mem_reverse.1 (List.mem_of_find?_eq_some hfind)

/-- A value is found exactly for the names of the pairs. -/
theorem isSome_lastValue?_iff {pairs : List (String × String)} {name : String} :
    (lastValue? pairs name).isSome = true ↔ name ∈ pairs.map Prod.fst := by
  rw [lastValue?, Option.isSome_map, List.find?_isSome, List.mem_map]
  simp

/-- Where no name occurs twice each value is the last one of its name. -/
theorem lastValue?_of_nodup {pairs : List (String × String)} (hnodup : (pairs.map Prod.fst).Nodup)
    {pair : String × String} (hpair : pair ∈ pairs) : lastValue? pairs pair.1 = some pair.2 := by
  have hsome := isSome_lastValue?_iff.2 (List.mem_map_of_mem hpair)
  obtain ⟨value, hvalue⟩ := Option.isSome_iff_exists.1 hsome
  have hsame := List.inj_on_of_nodup_map hnodup (mem_of_lastValue? hvalue) hpair rfl
  rw [hvalue, ← hsame]

/-- Each name has its own value, however often it occurs. -/
theorem lastValue?_map {names : List String} {values : String → String} (name : String) :
    lastValue? (names.map fun name => (name, values name)) name =
      if name ∈ names then some (values name) else none := by
  have hnames : (names.map fun name => (name, values name)).map Prod.fst = names := by
    rw [List.map_map]
    exact List.map_id names
  have hiff : (lastValue? (names.map fun name => (name, values name)) name).isSome = true ↔
      name ∈ names := by
    rw [isSome_lastValue?_iff, hnames]
  split
  · rename_i hmem
    obtain ⟨value, hvalue⟩ := Option.isSome_iff_exists.1 (hiff.2 hmem)
    obtain ⟨found, -, hfound⟩ := List.mem_map.1 (mem_of_lastValue? hvalue)
    cases hfound
    exact hvalue
  · rename_i hmem
    exact Option.not_isSome_iff_eq_none.1 fun hsome => hmem (hiff.1 hsome)

/-! ## Routes -/

namespace Router

open Pattern Template

variable {η : Type u}

/-- A template that is registered has been read part by part. -/
theorem stands_of_ofTemplate {template : String} {pattern : Pattern}
    (h : Pattern.ofTemplate template = .ok pattern) :
    ∃ segments, pattern = .template segments ∧
      List.Forall₂ Stands (pathParts template) segments := by
  unfold Pattern.ofTemplate at h
  split at h
  · rename_i segments hread
    cases h
    exact ⟨segments, rfl, stands_of_mapM hread⟩
  · cases h

section Covered

variable {template path : String} {segments : List Segment}
  (hstands : List.Forall₂ Stands (pathParts template) segments)
  (haccepts : (Pattern.template segments).accepts path = true)

include hstands haccepts

/-- A value is captured for each of the parameters and for nothing else. -/
theorem isSome_captures_iff (name : String) :
    (((Pattern.template segments).captures path).get? name).isSome = true ↔
      name ∈ parameters template := by
  obtain ⟨hnames, -, -⟩ := fill_captured hstands haccepts
  rw [get?_captures, isSome_lastValue?_iff, hnames, parameters_eq]

/-- What is captured is a piece of the path: not empty, and without a slash. -/
theorem captures_clean {name value : String}
    (h : ((Pattern.template segments).captures path).get? name = some value) :
    value ≠ "" ∧ '/' ∉ value.toList := by
  obtain ⟨-, hpieces, -⟩ := fill_captured hstands haccepts
  rw [get?_captures] at h
  obtain ⟨hne, hmem⟩ := hpieces _ (mem_of_lastValue? h)
  exact ⟨hne, not_mem_of_mem_splitAll hmem⟩

/-- Names that stand for one parameter each bring the path back. -/
theorem withoutSlash_fill_captures (hnodup : (parameters template).Nodup) :
    withoutSlash (fill (fun name =>
      (((Pattern.template segments).captures path).get? name).getD "") template) =
        withoutSlash path := by
  obtain ⟨hnames, -, hback⟩ := fill_captured hstands haccepts
  rw [← parameters_eq] at hnames
  rw [withoutSlash_fill, hback]
  · exact join_splitAll '/' (withoutSlash path)
  · intro pair hpair
    rw [← hnames] at hnodup
    rw [get?_captures, lastValue?_of_nodup hnodup hpair]
    rfl
  · intro name hname
    obtain ⟨value, hvalue⟩ :=
      Option.isSome_iff_exists.1 ((isSome_captures_iff hstands haccepts name).2 hname)
    dsimp only
    rw [hvalue]
    exact captures_clean hstands haccepts hvalue

end Covered

/-- **Templates and parameters are inverse to each other.** A route that is registered for a
template covers the path that any values fill in, and captures just these values. Of a path that it
covers it captures a value for each of the parameters, a part of the path that is not empty; if no
name stands for two parameters, these values fill in the path again. It covers no path with another
number of segments. -/
theorem template_inverse {r added : Router η} {method template : String} {handler : η}
    {priority : Int} (hadd : r.add method template handler priority = .ok added) :
    ∃ route : Route η, added = r.insert route ∧ route.method = method ∧ route.template = template ∧
      (∀ values, Assigns values template →
        route.pattern.accepts (fill values template) = true ∧
        ∀ name, (route.pattern.captures (fill values template)).get? name =
          if name ∈ parameters template then some (values name) else none) ∧
      (∀ path, route.pattern.accepts path = true →
        (∀ name, ((route.pattern.captures path).get? name).isSome = true ↔
          name ∈ parameters template) ∧
        (∀ name value, (route.pattern.captures path).get? name = some value →
          value ≠ "" ∧ '/' ∉ value.toList) ∧
        ((parameters template).Nodup →
          withoutSlash
              (fill (fun name => ((route.pattern.captures path).get? name).getD "") template) =
            withoutSlash path)) ∧
      ∀ path, segmentCount path ≠ segmentCount template → route.pattern.accepts path = false := by
  obtain ⟨pattern, hread, hadded⟩ : ∃ pattern, Pattern.ofTemplate template = .ok pattern ∧
      added = r.insert { method, template, pattern, priority, handler } := by
    rw [add] at hadd
    cases hread : Pattern.ofTemplate template with
    | error e => rw [hread] at hadd; cases hadd
    | ok pattern => rw [hread] at hadd; cases hadd; exact ⟨pattern, rfl, rfl⟩
  obtain ⟨segments, rfl, hstands⟩ := stands_of_ofTemplate hread
  refine ⟨_, hadded, rfl, rfl, fun values hassigns => ?filled, fun path haccepts => ?covered,
    fun path hcount => ?counted⟩
  case filled =>
    have hvalues : ∀ name ∈ (pathParts template).filterMap parameter?, values name ≠ "" := by
      rw [← parameters_eq]
      exact fun name hname => (hassigns name hname).1
    obtain ⟨haccepts, hcaptured⟩ := captured_fill hstands hvalues
    rw [← pathParts_fill hassigns] at haccepts hcaptured
    refine ⟨haccepts, fun name => ?_⟩
    rw [get?_captures, hcaptured, ← parameters_eq]
    exact lastValue?_map name
  case covered =>
    exact ⟨isSome_captures_iff hstands haccepts, fun name value => captures_clean hstands haccepts,
      withoutSlash_fill_captures hstands haccepts⟩
  case counted =>
    rw [← Bool.not_eq_true]
    intro haccepts
    have hlength :=
      length_of_acceptsParts (haccepts : acceptsParts segments (pathParts path) = true)
    rw [← hstands.length_eq, length_pathParts, length_pathParts] at hlength
    exact hcount hlength.symm

/-- A route whose template has an empty part inside and a slash at its end. -/
def fileRoute : Route Unit where
  method := "GET"
  template := "users/:id//:file/"
  pattern := .template [.literal ['u', 's', 'e', 'r', 's'], .parameter ['i', 'd'], .literal [],
    .parameter ['f', 'i', 'l', 'e'], .literal []]
  priority := 0
  handler := ()

/-- Values with a sign that starts a parameter and with a space. -/
def fileValues (name : String) : String := if name = "id" then ":7" else "b c"

theorem template_inverse_fileRoute :
    ({} : Router Unit).add "GET" "users/:id//:file/" () 0 = .ok ⟨[fileRoute]⟩ ∧
    (fileRoute.pattern.captures (fill fileValues "users/:id//:file/")).get? "file" = some "b c" ∧
    withoutSlash (fill (fun name =>
      ((fileRoute.pattern.captures "/users/:id//%/").get? name).getD "") "users/:id//:file/") =
        withoutSlash "/users/:id//%/" ∧
    fileRoute.pattern.accepts "/users/7/b" = false := by
  have hadd : ({} : Router Unit).add "GET" "users/:id//:file/" () 0 = .ok ⟨[fileRoute]⟩ := by
    have hparts : pathParts "users/:id//:file/" =
        [['u', 's', 'e', 'r', 's'], [':', 'i', 'd'], [], [':', 'f', 'i', 'l', 'e'], []] := by decide
    rw [add, Pattern.ofTemplate, hparts]
    rfl
  obtain ⟨route, hroute, -, -, hfilled, hcovered, hcounted⟩ := template_inverse hadd
  obtain rfl : fileRoute = route := List.singleton_inj.1 (congrArg routes hroute)
  refine ⟨hadd, ?_, ?_, hcounted _ (by decide)⟩
  · exact ((hfilled fileValues (by decide)).2 "file").trans (by decide)
  · exact (hcovered "/users/:id//%/" (by decide)).2.2 (by decide)

end Router

end HttpServer
