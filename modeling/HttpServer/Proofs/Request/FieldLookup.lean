import HttpServer.Proofs.Request.Grammar
import Mathlib.Data.List.Nodup

/-!
# Looking up a field

A field is found under its exact name, whatever the order in which the fields are enumerated. Under
another spelling the first field is taken whose name differs in case alone, so each such field can
be the answer in some order (`NameMap.exists_reordered_iff`), and the answer is settled by the
request exactly if they all have the same value (`NameMap.isSettled_iff`). That is so of every field
that the client has spelled in one way (`HeaderText.Says.isSettled`); of one that it has sent in two
spellings, neither of them the one that is looked up, either value can be the answer, and so the
length of the body can depend on the order.
-/

namespace HttpServer

namespace NameMap

variable {m other : NameMap} {name value : String}

/-- The same fields, enumerated in no matter what order. -/
def Reorders (m other : NameMap) : Prop := other.entries.Perm m.entries

/-- The fields whose names differ from a name in case alone, or not at all. -/
def alike (m : NameMap) (name : String) : List (String × String) :=
  m.entries.filter fun pair => sameName pair.1 name

/-- What is found under a name does not depend on the order of the fields. -/
def IsSettled (m : NameMap) (name : String) : Prop :=
  ∀ other, m.Reorders other → other.field? name = m.field? name

/-- A value is found under an exact name if the two are one of the entries. -/
theorem get?_eq_some_iff : m.get? name = some value ↔ (name, value) ∈ m.entries := by
  rw [get?, Option.map_eq_some_iff]
  constructor
  · rintro ⟨⟨key, found⟩, hfind, rfl⟩
    have hkey : key = name := by simpa using List.find?_some hfind
    rw [← hkey]
    exact List.mem_of_find?_eq_some hfind
  · intro hmem
    cases hfind : m.entries.find? fun pair => pair.1 = name with
    | none => simpa using List.find?_eq_none.1 hfind _ hmem
    | some pair =>
        have hkey : pair.1 = name := by simpa using List.find?_some hfind
        have hsame :=
          List.inj_on_of_nodup_map m.nodup_names (List.mem_of_find?_eq_some hfind) hmem hkey
        exact ⟨pair, rfl, congrArg Prod.snd hsame⟩

/-- What stands under the exact name does not depend on the order. -/
theorem Reorders.get?_eq (h : m.Reorders other) (name : String) :
    other.get? name = m.get? name := by
  apply Option.ext
  intro value
  rw [get?_eq_some_iff, get?_eq_some_iff]
  exact h.mem_iff

/-- Fields whose names differ in case are the same in any order. -/
theorem Reorders.alike_perm (h : m.Reorders other) (name : String) :
    (other.alike name).Perm (m.alike name) :=
  h.filter _

/-- The exact name comes first, then the first name that differs in case alone. -/
theorem field?_eq (m : NameMap) (name : String) :
    m.field? name = (m.get? name).or ((m.alike name).head?.map Prod.snd) := by
  rw [field?, alike, List.head?_filter]
  cases m.get? name <;> rfl

/-- The exact name goes first. -/
theorem field?_of_get? (h : m.get? name = some value) : m.field? name = some value := by
  rw [field?_eq, h]
  rfl

/-- What is found is the value of a field whose name is that one but for its case. -/
theorem exists_alike_of_field? (h : m.field? name = some value) :
    ∃ key, (key, value) ∈ m.alike name := by
  rw [field?_eq, Option.or_eq_some_iff] at h
  rcases h with hexact | ⟨_, hhead⟩
  · exact ⟨name, List.mem_filter.2 ⟨get?_eq_some_iff.1 hexact, sameName_refl name⟩⟩
  · obtain ⟨⟨key, found⟩, hpair, rfl⟩ := Option.map_eq_some_iff.1 hhead
    exact ⟨key, List.mem_of_mem_head? hpair⟩

/-- Nothing is found exactly if no name is the same but for case. -/
theorem field?_eq_none_iff :
    m.field? name = none ↔ ∀ pair ∈ m.entries, sameName pair.1 name = false := by
  constructor
  · intro h pair hmem
    rw [field?_eq, Option.or_eq_none_iff, Option.map_eq_none_iff, List.head?_eq_none_iff] at h
    simpa using List.filter_eq_nil_iff.1 h.2 pair hmem
  · intro h
    cases hfield : m.field? name with
    | none => rfl
    | some value =>
        obtain ⟨key, halike⟩ := exists_alike_of_field? hfield
        obtain ⟨hmem, hsame⟩ := List.mem_filter.1 halike
        cases hsame.symm.trans (h _ hmem)

/-- Whether a field is found at all does not depend on the order. -/
theorem Reorders.field?_eq_none_iff (h : m.Reorders other) (name : String) :
    other.field? name = none ↔ m.field? name = none := by
  rw [NameMap.field?_eq_none_iff, NameMap.field?_eq_none_iff]
  exact forall_congr' fun pair => imp_congr_left h.mem_iff

/-- The only spelling of a name is found. -/
theorem field?_of_alike {key : String} (h : m.alike name = [(key, value)]) :
    m.field? name = some value := by
  cases hfield : m.field? name with
  | none =>
      have hmem : (key, value) ∈ m.alike name := h ▸ List.mem_singleton_self _
      obtain ⟨hentry, hsame⟩ := List.mem_filter.1 hmem
      cases hsame.symm.trans (field?_eq_none_iff.1 hfield _ hentry)
  | some found =>
      obtain ⟨other, hother⟩ := exists_alike_of_field? hfield
      rw [h, List.mem_singleton] at hother
      rw [(Prod.mk.inj hother).2]

/-- The fields with one of them in front. -/
def startWith (m : NameMap) (pair : String × String) (h : pair ∈ m.entries) : NameMap where
  entries := pair :: m.entries.erase pair
  nodup_names := ((List.perm_cons_erase h).map Prod.fst).nodup_iff.1 m.nodup_names

/-- Any of the entries may be the first. -/
theorem reorders_startWith {pair : String × String} (h : pair ∈ m.entries) :
    m.Reorders (m.startWith pair h) :=
  (List.perm_cons_erase h).symm

/-- **Each field that is the same but for case can be the answer**, in some order, where none has
the exact name. -/
theorem exists_reordered_iff (hexact : m.get? name = none) :
    (∃ other, m.Reorders other ∧ other.field? name = some value) ↔
      ∃ key, (key, value) ∈ m.entries ∧ sameName key name = true := by
  constructor
  · rintro ⟨other, hother, hfield⟩
    obtain ⟨key, halike⟩ := exists_alike_of_field? hfield
    exact ⟨key, List.mem_filter.1 ((hother.alike_perm name).mem_iff.1 halike)⟩
  · rintro ⟨key, hmem, hsame⟩
    refine ⟨m.startWith _ hmem, reorders_startWith hmem, ?_⟩
    have hfirst : (m.startWith _ hmem).alike name =
        (key, value) :: (m.entries.erase (key, value)).filter fun pair => sameName pair.1 name :=
      List.filter_cons_of_pos hsame
    rw [field?_eq, (reorders_startWith hmem).get?_eq, hexact, hfirst]
    rfl

/-- **When the request settles the answer**: there is a field of the exact name, or all fields that
are the same but for case have the same value. -/
theorem isSettled_iff : m.IsSettled name ↔ (m.get? name).isSome = true ∨
    ∀ pair ∈ m.alike name, ∀ other ∈ m.alike name, pair.2 = other.2 := by
  cases hexact : m.get? name with
  | some value =>
      refine iff_of_true (fun other hother => ?_) (.inl rfl)
      rw [field?_of_get? hexact, field?_of_get? ((hother.get?_eq name).trans hexact)]
  | none =>
      -- An order for each field that can be the answer.
      have hanswer (pair : String × String) (hpair : pair ∈ m.alike name) :
          ∃ other, m.Reorders other ∧ other.field? name = some pair.2 := by
        obtain ⟨hmem, hsame⟩ := List.mem_filter.1 hpair
        exact (exists_reordered_iff hexact).2 ⟨pair.1, hmem, hsame⟩
      constructor
      · intro hsettled
        refine .inr fun pair hpair second hsecond => ?_
        obtain ⟨first, hfirst, hfield⟩ := hanswer pair hpair
        obtain ⟨later, hlater, hlaterField⟩ := hanswer second hsecond
        rw [hsettled first hfirst] at hfield
        rw [hsettled later hlater, hfield] at hlaterField
        exact Option.some.inj hlaterField
      · rintro (hnone | hagree) other hother
        · cases hnone
        cases hfield : m.field? name with
        | none => exact (hother.field?_eq_none_iff name).2 hfield
        | some value =>
            cases hfound : other.field? name with
            | none => cases ((hother.field?_eq_none_iff name).1 hfound).symm.trans hfield
            | some found =>
                obtain ⟨key, halike⟩ := exists_alike_of_field? hfield
                obtain ⟨second, hsecond⟩ := exists_alike_of_field? hfound
                have hvalues := hagree _ ((hother.alike_perm name).mem_iff.1 hsecond) _ halike
                exact congrArg some hvalues

/-- A field that came under one spelling alone is settled. -/
theorem isSettled_of_one_spelling (key : String) (h : ∀ pair ∈ m.alike name, pair.1 = key) :
    m.IsSettled name := by
  refine isSettled_iff.2 (.inr fun first hfirst second hsecond => ?_)
  have hkeys : first.1 = second.1 := (h first hfirst).trans (h second hsecond).symm
  have hsame := List.inj_on_of_nodup_map m.nodup_names (List.mem_filter.1 hfirst).1
    (List.mem_filter.1 hsecond).1 hkeys
  rw [hsame]

end NameMap

namespace HeaderText

/-- The fields of a request are settled if it spells their names in one way. -/
theorem Says.isSettled {t : HeaderText} {r : HeaderReader} (h : t.Says r) {name key : String}
    (hone : ∀ line ∈ t.lines, isCookieLine line = false → sameName (fieldOf line).1 name = true →
      (fieldOf line).1 = key) : r.header.fields.IsSettled name := by
  refine NameMap.isSettled_of_one_spelling key fun pair hpair => ?_
  obtain ⟨hmem, hsame⟩ := List.mem_filter.1 hpair
  have hvalue := NameMap.get?_eq_some_iff.2 hmem
  rw [h.fields, lastValue?, Option.map_eq_some_iff] at hvalue
  obtain ⟨sent, hfind, -⟩ := hvalue
  have hname : sent.1 = pair.1 := by simpa using List.find?_some hfind
  obtain ⟨line, hline, rfl⟩ := List.mem_map.1 (List.mem_reverse.1 (List.mem_of_find?_eq_some hfind))
  obtain ⟨hmemLine, hcookie⟩ := List.mem_filter.1 hline
  rw [← hname] at hsame ⊢
  exact hone line hmemLine (by simpa using hcookie) hsame

end HeaderText

namespace RequestHeader

open HeaderText NameMap

/-- The header with other fields. -/
def withFields (h : RequestHeader) (m : NameMap) : RequestHeader := { h with fields := m }

/-- The length of the body does not depend on the order, if its field is settled. -/
theorem contentLength?_of_isSettled {h : RequestHeader} {m : NameMap}
    (hsettled : h.fields.IsSettled "Content-Length") (hm : h.fields.Reorders m) :
    (h.withFields m).contentLength? = h.contentLength? :=
  congrArg (Option.bind · _) (hsettled m hm)

/-- The name of the host does not depend on the order, if the fields are settled that it is read
from. -/
theorem hostname?_of_isSettled {h : RequestHeader} {m : NameMap} {trustProxy : Bool}
    (hhost : h.fields.IsSettled "Host")
    (hforwarded : trustProxy = true → h.fields.IsSettled "X-Forwarded-Host")
    (hm : h.fields.Reorders m) :
    (h.withFields m).hostname? trustProxy = h.hostname? trustProxy := by
  have hname : (h.withFields m).field? "Host" = h.field? "Host" := hhost m hm
  cases trustProxy with
  | false => rw [hostname?, hostname?, hname]; rfl
  | true =>
      have hproxy : (h.withFields m).field? "X-Forwarded-Host" = h.field? "X-Forwarded-Host" :=
        hforwarded rfl m hm
      rw [hostname?, hostname?, hname, hproxy]

/-- **What the fields of a request settle.** In every order of the fields the exact name is found,
the only spelling of a name too, and nothing exactly if no name is the same but for case. Of several
spellings, none of them exact, each is found in some order; so the answer is the same in every order
exactly if there is the exact name or all spellings have the same value. The length of the body and
the host name depend on the order of the fields only where the fields they are read off do. -/
theorem field?_in_every_order (h : RequestHeader) (name : String) :
    (∀ m, h.fields.Reorders m →
      (∀ value, (name, value) ∈ h.fields.entries → (h.withFields m).field? name = some value) ∧
      (∀ key value, h.fields.alike name = [(key, value)] →
        (h.withFields m).field? name = some value) ∧
      ((h.withFields m).field? name = none ↔
        ∀ pair ∈ h.fields.entries, sameName pair.1 name = false)) ∧
    (h.fields.get? name = none → ∀ value,
      (∃ m, h.fields.Reorders m ∧ (h.withFields m).field? name = some value) ↔
        ∃ key, (key, value) ∈ h.fields.entries ∧ sameName key name = true) ∧
    ((∀ m, h.fields.Reorders m → (h.withFields m).field? name = h.field? name) ↔
      (h.fields.get? name).isSome = true ∨
        ∀ first ∈ h.fields.alike name, ∀ second ∈ h.fields.alike name, first.2 = second.2) ∧
    (h.fields.IsSettled "Content-Length" → ∀ m, h.fields.Reorders m →
      (h.withFields m).contentLength? = h.contentLength?) ∧
    (h.fields.IsSettled "Host" → ∀ trustProxy : Bool,
      (trustProxy = true → h.fields.IsSettled "X-Forwarded-Host") → ∀ m, h.fields.Reorders m →
        (h.withFields m).hostname? trustProxy = h.hostname? trustProxy) := by
  refine ⟨fun m hm => ⟨?exact, ?only, ?none⟩, fun hexact value => exists_reordered_iff hexact,
    isSettled_iff, fun hsettled m hm => contentLength?_of_isSettled hsettled hm,
    fun hhost trustProxy hforwarded m hm => hostname?_of_isSettled hhost hforwarded hm⟩
  case exact =>
    intro value hmem
    exact field?_of_get? ((hm.get?_eq name).trans (get?_eq_some_iff.2 hmem))
  case only =>
    intro key value honly
    have hperm := hm.alike_perm name
    rw [honly, List.perm_singleton] at hperm
    exact field?_of_alike hperm
  case none => exact (hm.field?_eq_none_iff name).trans field?_eq_none_iff

/-- A header that names the host in two spellings, one of them exact, and another field in one. -/
def twoHosts : RequestHeader :=
  ofSection { fields := ⟨[("host", "b"), ("accept", "*/*"), ("Host", "a")], by decide⟩ }

theorem field?_twoHosts :
    (∀ m, twoHosts.fields.Reorders m → (twoHosts.withFields m).field? "Host" = some "a") ∧
    (∀ m, twoHosts.fields.Reorders m → (twoHosts.withFields m).field? "Accept" = some "*/*") ∧
    (∀ m, twoHosts.fields.Reorders m → (twoHosts.withFields m).field? "Expect" = none) ∧
    (∃ m, twoHosts.fields.Reorders m ∧ (twoHosts.withFields m).field? "HOST" = some "a") ∧
    ∃ m, twoHosts.fields.Reorders m ∧ (twoHosts.withFields m).field? "HOST" = some "b" := by
  have heach := fun name m hm => (field?_in_every_order twoHosts name).1 m hm
  have hshouted := (field?_in_every_order twoHosts "HOST").2.1 (by decide +kernel)
  refine ⟨fun m hm => (heach "Host" m hm).1 "a" (by decide +kernel),
    fun m hm => (heach "Accept" m hm).2.1 "accept" "*/*" (by decide +kernel),
    fun m hm => (heach "Expect" m hm).2.2.2 (by decide +kernel), ?_, ?_⟩
  · exact (hshouted "a").2 ⟨"Host", by decide +kernel, by decide +kernel⟩
  · exact (hshouted "b").2 ⟨"host", by decide +kernel, by decide +kernel⟩

/-- A request that announces the length of its body in two spellings. -/
def twoSpellings : HeaderText :=
  HeaderReader.rootRequest [Utf8.ofString "content-length: 5\r",
    Utf8.ofString "CONTENT-LENGTH: 7\r"]

theorem accepted_twoSpellings : twoSpellings.Accepted {} := by
  refine HeaderReader.accepted_rootRequest (fun line hline => ?_) (by decide)
  rcases List.mem_pair.1 hline with rfl | rfl <;> constructor <;> decide +kernel

/-- One request can be read with a body of five bytes and with one of seven, as its fields are
enumerated. -/
theorem contentLength?_reordered :
    ∃ (reader : HeaderReader) (first second : NameMap),
      ({} : HeaderReader).feed (Utf8.ofString
        "GET / HTTP/1.1\r\ncontent-length: 5\r\nCONTENT-LENGTH: 7\r\n\r\n") =
          (reader, .ok .finished) ∧
      reader.header.fields.Reorders first ∧ reader.header.fields.Reorders second ∧
      ((ofSection reader.header).withFields first).contentLength? = some 5 ∧
      ((ofSection reader.header).withFields second).contentLength? = some 7 := by
  obtain ⟨reader, hfeed, hsaid⟩ :=
    HeaderReader.feed_of_text accepted_twoSpellings (by decide +kernel)
  have hbytes : twoSpellings.bytes = Utf8.ofString
      "GET / HTTP/1.1\r\ncontent-length: 5\r\nCONTENT-LENGTH: 7\r\n\r\n" := by
    decide +kernel
  rw [hbytes] at hfeed
  -- Neither spelling is the one that is looked up, so each can be the answer.
  have hexact : reader.header.fields.get? "Content-Length" = none := by
    rw [hsaid.fields]
    decide +kernel
  have hanswer (key value : String)
      (hsent : lastValue? ((twoSpellings.lines.filter (!isCookieLine ·)).map fieldOf) key =
        some value)
      (hsame : sameName key "Content-Length" = true) :
      ∃ m, reader.header.fields.Reorders m ∧ m.field? "Content-Length" = some value :=
    (exists_reordered_iff hexact).2
      ⟨key, get?_eq_some_iff.1 ((hsaid.fields key).trans hsent), hsame⟩
  obtain ⟨first, hfirst, hfive⟩ :=
    hanswer "content-length" "5" (by decide +kernel) (by decide +kernel)
  obtain ⟨second, hsecond, hseven⟩ :=
    hanswer "CONTENT-LENGTH" "7" (by decide +kernel) (by decide +kernel)
  refine ⟨reader, first, second, hfeed, hfirst, hsecond, ?_, ?_⟩
  · rw [contentLength?, field?, withFields, hfive]
    decide +kernel
  · rw [contentLength?, field?, withFields, hseven]
    decide +kernel

end RequestHeader

end HttpServer
