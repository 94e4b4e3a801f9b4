import HttpServer.Proofs.Request.RequestLine
import HttpServer.Response.Header
import Mathlib.Data.List.TakeWhile

/-!
# Cookies that come back

A client is told of a cookie in a line of the response, and sends it back in a line of its later
requests: what stood in front of the first semicolon, among other pairs, with blanks around it
(`HandsBack`). If the name may stand in front of an equals sign (`IsCookieName`), it is read as it
was sent, and what is read of the value is the part in front of its first semicolon, without the
blanks around (`HeaderText.Says.cookie_of_handsBack`). That is the value itself exactly if it has
neither (`returnedValue_eq_self_iff`).
-/

namespace HttpServer

open HeaderText

/-! ## Texts without blanks around -/

theorem trimEnd_eq_self {cs : List Char} (h : cs.getLast?.any isBlank = false) :
    trimEnd cs = cs := by
  rw [← List.head?_reverse] at h
  rw [trimEnd, ← trimStart, trimStart_eq_self h, List.reverse_reverse]

theorem trim_eq_self_iff {cs : List Char} :
    trim cs = cs ↔ cs.head?.any isBlank = false ∧ cs.getLast?.any isBlank = false := by
  constructor
  · intro h
    rw [← h]
    exact ⟨head?_trim cs, getLast?_trimEnd _⟩
  · rintro ⟨hhead, hlast⟩
    rw [trim, trimStart_eq_self hhead, trimEnd_eq_self hlast]

/-- Trimming a text twice is no more than trimming it once. -/
theorem trim_trim (cs : List Char) : trim (trim cs) = trim cs :=
  trim_eq_self_iff.2 ⟨head?_trim cs, getLast?_trimEnd _⟩

theorem mem_of_mem_trim {c : Char} {cs : List Char} (h : c ∈ trim cs) : c ∈ cs := by
  obtain ⟨blanks, -, happend⟩ := exists_append_of_trimEnd (trimStart cs)
  have hstart : c ∈ trimStart cs := by
    rw [happend]
    exact List.mem_append_left _ h
  exact (List.dropWhile_suffix _).mem hstart

/-- Blanks behind a text are taken off. -/
theorem trimEnd_append_blanks (cs : List Char) {back : List Char}
    (hback : ∀ c ∈ back, isBlank c = true) : trimEnd (cs ++ back) = trimEnd cs := by
  rw [trimEnd, List.reverse_append, List.dropWhile_append_of_pos (by simpa using hback), trimEnd]

theorem trim_append_blanks (cs : List Char) {back : List Char}
    (hback : ∀ c ∈ back, isBlank c = true) : trim (cs ++ back) = trim cs := by
  rw [trim, trim, trimStart, trimStart, List.dropWhile_append]
  split
  · rename_i hnone
    have hstart : cs.dropWhile isBlank = [] := List.isEmpty_iff.1 hnone
    have hnothing : back.dropWhile isBlank = [] := List.dropWhile_eq_nil_iff.2 hback
    rw [hstart, hnothing]
  · exact trimEnd_append_blanks _ hback

/-- Blanks around a text are taken off. -/
theorem trim_between_blanks {front back : List Char} (hfront : ∀ c ∈ front, isBlank c = true)
    (hback : ∀ c ∈ back, isBlank c = true) (cs : List Char) :
    trim (front ++ cs ++ back) = trim cs := by
  rw [trim_append_blanks _ hback, trim, trimStart, List.dropWhile_append_of_pos hfront]
  rfl

theorem trim_trimEnd (cs : List Char) : trim (trimEnd cs) = trim cs := by
  obtain ⟨blanks, hblanks, happend⟩ := exists_append_of_trimEnd cs
  have htrim := trim_append_blanks (trimEnd cs) hblanks
  rw [← happend] at htrim
  exact htrim.symm

/-- A character that is no blank ends the trimming of the end. -/
theorem trimEnd_append_cons {c : Char} (hc : isBlank c = false) (front cs : List Char) :
    trimEnd (front ++ c :: cs) = front ++ c :: trimEnd cs := by
  obtain ⟨blanks, hblanks, happend⟩ := exists_append_of_trimEnd cs
  have hsplit : front ++ c :: cs = (front ++ c :: trimEnd cs) ++ blanks := by
    rw [List.append_assoc, List.cons_append, ← happend]
  rw [hsplit, trimEnd_append_blanks _ hblanks]
  refine trimEnd_eq_self ?_
  have hlast := getLast?_trimEnd cs
  rw [List.getLast?_append, List.getLast?_cons]
  cases hend : (trimEnd cs).getLast? with
  | none => simpa using hc
  | some last =>
      rw [hend] at hlast
      exact hlast

/-! ## One pair -/

/-- A text that may stand in front of the equals sign of a cookie. -/
structure IsCookieName (name : String) : Prop where
  ne_nil : name.toList ≠ []
  trimmed : trim name.toList = name.toList
  noEquals : '=' ∉ name.toList
  noSemicolon : ';' ∉ name.toList

/-- A text that may stand behind it. -/
structure IsCookieValue (value : String) : Prop where
  trimmed : trim value.toList = value.toList
  noSemicolon : ';' ∉ value.toList

/-- A name and a text behind it. -/
def pairText (name : String) (text : List Char) : List Char := name.toList ++ '=' :: text

/-- Letters, digits and hyphens, of which the ids are made that are generated for sessions. -/
theorem isCookieValue_of_alphanum {value : String}
    (h : value.toList.all (fun c => c.isAlphanum || c == '-') = true) : IsCookieValue value := by
  have hletters : ∀ c ∈ value.toList, c.isAlphanum = true ∨ c = '-' := by simpa using h
  have hsolid : ∀ c ∈ value.toList, isBlank c = false := by
    intro c hc
    rcases hletters c hc with halphanum | rfl
    · exact HeaderReader.isBlank_of_isAlphanum halphanum
    · rfl
  refine ⟨trim_eq_self_iff.2 ⟨?_, ?_⟩, fun hmem => ?_⟩
  · cases hhead : value.toList.head? with
    | none => rfl
    | some c => exact hsolid c (List.mem_of_mem_head? hhead)
  · cases hlast : value.toList.getLast? with
    | none => rfl
    | some c => exact hsolid c (List.mem_of_mem_getLast? hlast)
  · rcases hletters _ hmem with hno | hno
    · cases hno
    · cases hno

/-- What is read of a value that has come back: what stood in front of its first semicolon, without
the blanks around. -/
def returnedValue (value : String) : String :=
  String.ofList (trim (value.toList.takeWhile (· ≠ ';')))

/-- **A value comes back as it was** exactly if it has no semicolon and no blanks around. -/
theorem returnedValue_eq_self_iff {value : String} :
    returnedValue value = value ↔ IsCookieValue value := by
  constructor
  · intro h
    have hvalue : trim (value.toList.takeWhile (· ≠ ';')) = value.toList := by
      rw [← String.toList_ofList (l := trim _), ← returnedValue, h]
    constructor
    · rw [← hvalue]
      exact trim_trim _
    · intro hmem
      rw [← hvalue] at hmem
      simpa using List.mem_takeWhile_imp (mem_of_mem_trim hmem)
  · intro h
    have hwhole : value.toList.takeWhile (· ≠ ';') = value.toList :=
      List.takeWhile_eq_self_iff.2 fun c hc => decide_eq_true fun heq => h.noSemicolon (heq ▸ hc)
    rw [returnedValue, hwhole, h.trimmed, String.ofList_toList]

section Pair

variable {name : String} (hname : IsCookieName name)

include hname

/-- Only the end of a pair can have blanks that are taken off. -/
theorem trim_pairText (text : List Char) :
    trim (pairText name text) = pairText name (trimEnd text) := by
  obtain ⟨hhead, -⟩ := trim_eq_self_iff.1 hname.trimmed
  have hstart : trimStart (pairText name text) = pairText name text := by
    refine trimStart_eq_self ?_
    obtain ⟨c, cs, hcs⟩ := List.exists_cons_of_ne_nil hname.ne_nil
    rw [hcs] at hhead
    rw [pairText, hcs]
    exact hhead
  rw [trim, hstart, pairText, trimEnd_append_cons rfl, pairText]

/-- **A pair is read as the name and the text that it was made of**, less the blanks around the
text. -/
theorem cookiePair_pairText (text : List Char) :
    cookiePair (pairText name text) = (name, String.ofList (trim text)) := by
  have hsplit : splitFirst? (· == '=') (pairText name text) = some (name.toList, text) :=
    splitFirst?_eq_some_iff.2 ⟨hname.noEquals, rfl⟩
  rw [cookiePair, hsplit]
  dsimp only
  rw [hname.trimmed, String.ofList_toList]

end Pair

/-! ## The line that sets a cookie -/

/-- Attributes are joined to what stands in front of them by a semicolon. -/
theorem exists_tail_of_attributes (attributes : List String) (line : String) :
    ∃ tail, (attributes.foldl (fun line part => line ++ "; " ++ part) line).toList =
        line.toList ++ tail ∧ tail.takeWhile (· ≠ ';') = [] := by
  induction attributes generalizing line with
  | nil => exact ⟨[], (List.append_nil _).symm, rfl⟩
  | cons part attributes ih =>
      obtain ⟨tail, htail, -⟩ := ih (line ++ "; " ++ part)
      refine ⟨"; ".toList ++ part.toList ++ tail, ?_, rfl⟩
      rw [List.foldl_cons, htail, String.toList_append, String.toList_append]
      simp only [List.append_assoc]

/-- **What is sent of a cookie in front of the first semicolon** is its name and as much of its
value, whatever attributes it has. -/
theorem Cookie.takeWhile_render {cookie : Cookie} (hname : IsCookieName cookie.name) :
    cookie.render.toList.takeWhile (· ≠ ';') =
      pairText cookie.name (cookie.value.toList.takeWhile (· ≠ ';')) := by
  obtain ⟨tail, hrender, htail⟩ :=
    exists_tail_of_attributes cookie.attributes (cookie.name ++ "=" ++ cookie.value)
  have hsplit : cookie.render.toList =
      cookie.name.toList ++ '=' :: (cookie.value.toList ++ tail) := by
    rw [render, hrender, String.toList_append, String.toList_append]
    simp
  have hsolid : ∀ c ∈ cookie.name.toList, decide (c ≠ ';') = true := fun c hc =>
    decide_eq_true fun heq => hname.noSemicolon (heq ▸ hc)
  rw [hsplit, List.takeWhile_append_of_pos hsolid, List.takeWhile_cons_of_pos (by decide), pairText,
    List.takeWhile_append, htail, List.append_nil]
  split
  · rename_i hwhole
    rw [(List.takeWhile_prefix _).eq_of_length hwhole]
  · rfl

/-! ## The line that brings it back -/

/-- **The value of a cookie line hands back a text**: the text stands in it between semicolons, with
blanks around, and no pair behind it has the name. -/
def HandsBack (line : String) (sent : List Char) (name : String) : Prop :=
  ∃ before front back after,
    splitAll (· == ';') line.toList = before ++ (front ++ sent ++ back) :: after ∧
    (∀ c ∈ front, isBlank c = true) ∧ (∀ c ∈ back, isBlank c = true) ∧
    ∀ other ∈ after, trim other ≠ [] → (cookiePair (trim other)).1 ≠ name

theorem lastValue?_eq_none {pairs : List (String × String)} {name : String}
    (h : ∀ pair ∈ pairs, pair.1 ≠ name) : lastValue? pairs name = none := by
  rw [lastValue?, Option.map_eq_none_iff, List.find?_eq_none]
  exact fun pair hpair => by simpa using h pair (List.mem_reverse.1 hpair)

/-- The value under the name is the text that is brought back, less the blanks around it. -/
theorem lastValue?_of_handsBack {line name : String} {text : List Char} (hname : IsCookieName name)
    (hhanded : HandsBack line (pairText name text) name) :
    lastValue? (cookiePairs line) name = some (String.ofList (trim text)) := by
  obtain ⟨before, front, back, after, hsplit, hfront, hback, hafter⟩ := hhanded
  have hpart : trim (front ++ pairText name text ++ back) = pairText name (trimEnd text) := by
    rw [trim_between_blanks hfront hback, trim_pairText hname]
  have hne : pairText name (trimEnd text) ≠ [] := by simp [pairText]
  have hpairs : cookiePairs line = ((before.map trim).filter (· ≠ [])).map cookiePair ++
      (name, String.ofList (trim text)) ::
        ((after.map trim).filter (· ≠ [])).map cookiePair := by
    rw [cookiePairs, hsplit, List.map_append, List.map_cons, hpart, List.filter_append,
      List.filter_cons_of_pos (by simpa using hne), List.map_append, List.map_cons,
      cookiePair_pairText hname, trim_trimEnd]
  have hother : lastValue? (((after.map trim).filter (· ≠ [])).map cookiePair) name = none := by
    refine lastValue?_eq_none fun pair hpair => ?_
    obtain ⟨trimmed, htrimmed, rfl⟩ := List.mem_map.1 hpair
    obtain ⟨hmem, hsome⟩ := List.mem_filter.1 htrimmed
    obtain ⟨other, hmemOther, rfl⟩ := List.mem_map.1 hmem
    exact hafter other hmemOther (by simpa using hsome)
  rw [hpairs, lastValue?_append, ← List.singleton_append, lastValue?_append, hother]
  simp [lastValue?]

/-- **A cookie that was sent comes back** with what is read of its value, if the line that brings it
back is the only one with cookies. -/
theorem HeaderText.Says.cookie_of_handsBack {t : HeaderText} {reader : HeaderReader}
    (hsaid : t.Says reader) {line : Bytes} (honly : t.lines.filter isCookieLine = [line])
    {cookie : Cookie} (hname : IsCookieName cookie.name)
    (hhanded : HandsBack (fieldOf line).2 (cookie.render.toList.takeWhile (· ≠ ';'))
      cookie.name) :
    reader.header.cookies.get? cookie.name = some (returnedValue cookie.value) := by
  rw [Cookie.takeWhile_render hname] at hhanded
  rw [hsaid.cookies, honly, List.flatMap_singleton]
  exact lastValue?_of_handsBack hname hhanded

end HttpServer
