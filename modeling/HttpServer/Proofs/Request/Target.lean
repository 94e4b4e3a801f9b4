import HttpServer.Proofs.Request.Grammar
import HttpServer.Proofs.Text.Escaping

/-!
# What a target says

A target is made of a path, of the pairs of a query if it has one, and of a fragment if it has one,
each written so that it holds no border of its own (`TargetParts.Spells`). Reading it gives back the
path and the pairs, whatever the writer chose to hide, and the fragment says nothing
(`RequestHeader.target_read_back`).
-/

namespace HttpServer

namespace Utf8

/-- Every character is written in some bytes. -/
theorem encodeChar_ne_nil (c : Char) : encodeChar c ≠ [] := by
  obtain ⟨b, bs, hbytes, -⟩ := front_encodeChar c []
  rw [List.append_nil] at hbytes
  rw [hbytes]
  exact List.cons_ne_nil b bs

theorem encode_cons (c : Char) (cs : List Char) : encode (c :: cs) = encodeChar c ++ encode cs :=
  rfl

/-- A byte of an ASCII character is no byte of any other. -/
theorem eq_iff_of_mem_encodeChar {b : UInt8} {c : Char} (h : b ∈ encodeChar c) (sign : UInt8)
    (hsign : sign.toNat < 0x80) : b = sign ↔ c = Char.ofNat sign.toNat := by
  constructor
  · rintro rfl
    rw [← (mem_encodeChar_iff hsign c).1 h, Char.ofNat_toNat]
  · rintro rfl
    rw [encodeChar, toNat_ofNat hsign, if_pos hsign, List.mem_singleton] at h
    rw [h, toUInt8_eq rfl]

section Cutting

variable {here : Char → Bool} {there : UInt8 → Bool}
  (h : ∀ c, ∀ b ∈ encodeChar c, there b = here c)

include h

/-- Cutting a text where a class of ASCII characters ends is cutting its bytes. -/
theorem encode_takeWhile (cs : List Char) :
    encode (cs.takeWhile here) = (encode cs).takeWhile there := by
  induction cs with
  | nil => rfl
  | cons c cs ih =>
      rw [encode_cons]
      cases hc : here c with
      | true =>
          have hall : ∀ b ∈ encodeChar c, there b = true := fun b hb => (h c b hb).trans hc
          rw [List.takeWhile_cons_of_pos hc, encode_cons, ih, List.takeWhile_append_of_pos hall]
      | false =>
          obtain ⟨b, bs, hbytes⟩ := List.exists_cons_of_ne_nil (encodeChar_ne_nil c)
          have hb : ¬ there b = true := by
            rw [h c b (hbytes ▸ List.mem_cons_self), hc]
            exact Bool.false_ne_true
          rw [List.takeWhile_cons_of_neg (by simp [hc]), hbytes, List.cons_append,
            List.takeWhile_cons_of_neg hb]
          rfl

/-- Characters are dropped with their bytes. -/
theorem encode_dropWhile (cs : List Char) :
    encode (cs.dropWhile here) = (encode cs).dropWhile there := by
  induction cs with
  | nil => rfl
  | cons c cs ih =>
      rw [encode_cons]
      cases hc : here c with
      | true =>
          have hall : ∀ b ∈ encodeChar c, there b = true := fun b hb => (h c b hb).trans hc
          rw [List.dropWhile_cons_of_pos hc, ih, List.dropWhile_append_of_pos hall]
      | false =>
          obtain ⟨b, bs, hbytes⟩ := List.exists_cons_of_ne_nil (encodeChar_ne_nil c)
          have hb : ¬ there b = true := by
            rw [h c b (hbytes ▸ List.mem_cons_self), hc]
            exact Bool.false_ne_true
          rw [List.dropWhile_cons_of_neg (by simp [hc]), encode_cons, hbytes, List.cons_append,
            List.dropWhile_cons_of_neg hb]

end Cutting

/-- An ASCII byte in front is the character with its number. -/
theorem exists_of_encode_eq_cons {cs : List Char} {b : UInt8} {bs : Bytes} (hb : b.toNat < 0x80)
    (h : encode cs = b :: bs) : ∃ rest, cs = Char.ofNat b.toNat :: rest ∧ encode rest = bs := by
  cases cs with
  | nil => cases h
  | cons c rest =>
      have hmem : b ∈ encodeChar c := by
        obtain ⟨first, more, hbytes⟩ := List.exists_cons_of_ne_nil (encodeChar_ne_nil c)
        rw [encode_cons, hbytes, List.cons_append, List.cons.injEq] at h
        rw [hbytes, h.1]
        exact List.mem_cons_self
      have hc : c = Char.ofNat b.toNat := (eq_iff_of_mem_encodeChar hmem b hb).1 rfl
      rw [encode_cons, encodeChar, hc, toNat_ofNat hb, if_pos hb, toUInt8_eq rfl] at h
      exact ⟨rest, by rw [hc], (List.cons.inj h).2⟩

/-- ASCII bytes are the bytes of a text. -/
theorem exists_ofString_of_ascii {bs : Bytes} (h : ∀ b ∈ bs, b.toNat < 0x80) :
    ∃ s, ofString s = bs := by
  refine ⟨String.ofList (bs.map fun b => Char.ofNat b.toNat), ?_⟩
  rw [ofString, String.toList_ofList]
  induction bs with
  | nil => rfl
  | cons b bs ih =>
      obtain ⟨hb, hbs⟩ := List.forall_mem_cons.1 h
      rw [List.map_cons, encode_cons, ih hbs, encodeChar, toNat_ofNat hb, if_pos hb, toUInt8_eq rfl]
      rfl

end Utf8

/-! ## Cutting a target -/

/-- The byte belongs to a path: neither a question mark nor a number sign. -/
def inPathByte (b : UInt8) : Bool := b ≠ 0x3F && b ≠ 0x23

/-- A byte ends the path exactly if its character does. -/
theorem inPathByte_of_mem {b : UInt8} {c : Char} (h : b ∈ Utf8.encodeChar c) :
    inPathByte b = (c ≠ '?' && c ≠ '#') := by
  have hmark := Utf8.eq_iff_of_mem_encodeChar h 0x3F (by decide)
  have hnumber := Utf8.eq_iff_of_mem_encodeChar h 0x23 (by decide)
  rw [inPathByte, Bool.eq_iff_iff]
  simp only [Bool.and_eq_true, decide_eq_true_eq, ne_eq, hmark, hnumber]
  rfl

/-- The path of a target is what stands in front of the first border. -/
theorem ofString_splitTarget_fst (target : String) :
    Utf8.ofString (splitTarget target).1 = (Utf8.ofString target).takeWhile inPathByte := by
  rw [splitTarget, Utf8.ofString, String.toList_ofList]
  exact Utf8.encode_takeWhile (fun c b hb => inPathByte_of_mem hb) target.toList

/-- Behind the path stands a query, up to the next number sign. -/
theorem splitTarget_snd_of_mark {target : String} {rest : Bytes}
    (h : (Utf8.ofString target).dropWhile inPathByte = 0x3F :: rest) :
    ∃ query, (splitTarget target).2 = some query ∧
      Utf8.ofString query = rest.takeWhile (· ≠ 0x23) := by
  rw [Utf8.ofString, ← Utf8.encode_dropWhile fun c b hb => inPathByte_of_mem hb] at h
  obtain ⟨more, hmore, rfl⟩ := Utf8.exists_of_encode_eq_cons (by decide) h
  refine ⟨String.ofList (more.takeWhile (· ≠ '#')), ?_, ?_⟩
  · rw [splitTarget]
    dsimp only
    rw [hmore]
    rfl
  · rw [Utf8.ofString, String.toList_ofList]
    apply Utf8.encode_takeWhile
    intro c b hb
    have hnumber := Utf8.eq_iff_of_mem_encodeChar hb 0x23 (by decide)
    rw [Bool.eq_iff_iff, decide_eq_true_eq, decide_eq_true_eq, ne_eq, ne_eq, hnumber]
    rfl

/-- There is no query where the path ends otherwise. -/
theorem splitTarget_snd_of_head {target : String}
    (h : ((Utf8.ofString target).dropWhile inPathByte).head? ≠ some 0x3F) :
    (splitTarget target).2 = none := by
  rw [Utf8.ofString, ← Utf8.encode_dropWhile fun c b hb => inPathByte_of_mem hb] at h
  rw [splitTarget]
  dsimp only
  split
  · rename_i rest hrest
    rw [hrest] at h
    exact absurd rfl h
  · rfl

/-- What stands in front of a border does not depend on what follows it. -/
theorem takeWhile_append_border {here : Char → Bool} {border : Char} (h : here border = false)
    (before after : List Char) :
    (before ++ border :: after).takeWhile here = before.takeWhile here := by
  induction before with
  | nil => exact List.takeWhile_cons_of_neg (by simp [h])
  | cons c before ih => rw [List.cons_append, List.takeWhile_cons, List.takeWhile_cons, ih]

/-- What follows it is kept with it. -/
theorem dropWhile_append_border {here : Char → Bool} {border : Char} (h : here border = false)
    (before after : List Char) :
    (before ++ border :: after).dropWhile here = before.dropWhile here ++ border :: after := by
  induction before with
  | nil => exact List.dropWhile_cons_of_neg (by simp [h])
  | cons c before ih =>
      rw [List.cons_append, List.dropWhile_cons, List.dropWhile_cons, ih]
      split
      · rfl
      · rfl

/-- What follows a number sign belongs neither to the path nor to the query. -/
theorem splitTarget_append_fragment (target fragment : String) :
    splitTarget (target ++ "#" ++ fragment) = splitTarget target := by
  have hlist : (target ++ "#" ++ fragment).toList = target.toList ++ '#' :: fragment.toList := by
    rw [String.toList_append, String.toList_append, List.append_assoc]
    rfl
  rw [splitTarget, splitTarget, hlist, takeWhile_append_border (by decide),
    dropWhile_append_border (by decide)]
  refine congrArg (Prod.mk _) ?_
  cases target.toList.dropWhile fun c => c ≠ '?' && c ≠ '#' with
  | nil => rfl
  | cons c rest =>
      by_cases hmark : c = '?'
      · subst hmark
        exact congrArg (fun cs => some (String.ofList cs)) (takeWhile_append_border (by decide) _ _)
      · rw [List.cons_append]
        split
        · rename_i hcons
          exact absurd (List.cons.inj hcons).1 hmark
        split
        · rename_i hcons
          exact absurd (List.cons.inj hcons).1 hmark
        · rfl

/-! ## Reading a target -/

/-- What a target is made of. -/
structure TargetParts where
  path : String
  /-- The pairs of the query, if there is one. -/
  query : Option (List (String × String)) := none
  fragment : Option String := none

namespace TargetParts

/-- The pairs that the query says, none without a query. -/
def pairs (t : TargetParts) : List (String × String) := t.query.getD []

/-- The query with the question mark in front of it. -/
def SpellsQuery (t : TargetParts) (text : Bytes) : Prop :=
  match t.query with
  | none => text = []
  | some pairs => ∃ form, Form.Spells pairs form ∧ text = 0x3F :: form

/-- The fragment with the number sign in front of it. -/
def fragmentText (t : TargetParts) : Bytes :=
  match t.fragment with
  | none => []
  | some fragment => 0x23 :: Utf8.ofString fragment

/-- The target is written for these parts. -/
def Spells (t : TargetParts) (target : String) : Prop :=
  ∃ path query, Written Percent.InPath (Utf8.ofString t.path) path ∧ t.SpellsQuery query ∧
    Utf8.ofString target = path ++ query ++ t.fragmentText

/-- Every path, query and fragment can be written. -/
theorem exists_spells (t : TargetParts) : ∃ target, t.Spells target := by
  have hpath : Written Percent.InPath (Utf8.ofString t.path)
      (Percent.encode Form.isWrittenByNumber (Utf8.ofString t.path)) :=
    Percent.written_encode rfl _
  obtain ⟨query, hquery, hascii⟩ : ∃ query, t.SpellsQuery query ∧ ∀ c ∈ query, c.toNat < 0x80 := by
    unfold SpellsQuery
    cases t.query with
    | none => exact ⟨[], rfl, nofun⟩
    | some pairs =>
        refine ⟨0x3F :: Form.encode pairs, ⟨_, Form.spells_encode pairs, rfl⟩, ?_⟩
        exact List.forall_mem_cons.2 ⟨by decide, fun c hc => Form.toNat_lt_of_mem_encode hc⟩
  obtain ⟨written, hwritten⟩ : ∃ written, Utf8.ofString written =
      Percent.encode Form.isWrittenByNumber (Utf8.ofString t.path) ++ query := by
    apply Utf8.exists_ofString_of_ascii
    intro c hc
    rcases List.mem_append.1 hc with hc | hc
    · obtain ⟨b, -, hc⟩ := List.mem_flatMap.1 hc
      exact Form.toNat_lt_of_mem_escaped hc
    · exact hascii c hc
  cases hfragment : t.fragment with
  | none =>
      refine ⟨written, _, query, hpath, hquery, ?_⟩
      rw [fragmentText, hfragment, hwritten, List.append_nil]
  | some fragment =>
      refine ⟨written ++ "#" ++ fragment, _, query, hpath, hquery, ?_⟩
      rw [fragmentText, hfragment, Utf8.ofString_append, Utf8.ofString_append, hwritten,
        List.append_assoc]
      rfl

section Reading

variable {t : TargetParts}

/-- A written path has no border of its own. -/
theorem inPathByte_of_written {bs path : Bytes} (h : Written Percent.InPath bs path) :
    ∀ b ∈ path, inPathByte b = true := by
  intro b hb
  obtain ⟨hmark, hnumber⟩ := Percent.border_not_mem_of_written h b hb
  rw [inPathByte, Bool.and_eq_true]
  exact ⟨decide_eq_true hmark, decide_eq_true hnumber⟩

/-- A path ends where the query or the fragment starts. -/
theorem border_of_spellsQuery {query : Bytes} (h : t.SpellsQuery query) :
    (query ++ t.fragmentText).takeWhile inPathByte = [] ∧
      (query ++ t.fragmentText).dropWhile inPathByte = query ++ t.fragmentText := by
  unfold SpellsQuery at h
  unfold fragmentText
  split at h
  · subst h
    cases t.fragment with
    | none => exact ⟨rfl, rfl⟩
    | some fragment => exact ⟨rfl, rfl⟩
  · obtain ⟨form, -, rfl⟩ := h
    exact ⟨rfl, rfl⟩

variable {target : String} (h : t.Spells target)

include h

/-- **The path is read back.** -/
theorem decodeText_path : Percent.decodeText (splitTarget target).1 = t.path := by
  obtain ⟨path, query, hpath, hquery, htarget⟩ := h
  apply Percent.decodeText_of_written
  rw [ofString_splitTarget_fst, htarget, List.append_assoc,
    List.takeWhile_append_of_pos (inPathByte_of_written hpath), (border_of_spellsQuery hquery).1,
    List.append_nil]
  exact hpath

/-- **The pairs are read back**, none of them if there is no query. -/
theorem decode_query : ((splitTarget target).2.map Form.decode).getD [] = t.pairs := by
  obtain ⟨path, query, hpath, hquery, htarget⟩ := h
  have hrest : (Utf8.ofString target).dropWhile inPathByte = query ++ t.fragmentText := by
    rw [htarget, List.append_assoc, List.dropWhile_append_of_pos (inPathByte_of_written hpath),
      (border_of_spellsQuery hquery).2]
  unfold SpellsQuery at hquery
  unfold pairs
  split at hquery
  · rename_i hnone
    have hhead : ((Utf8.ofString target).dropWhile inPathByte).head? ≠ some 0x3F := by
      rw [hrest, hquery, fragmentText]
      cases t.fragment with
      | none => decide
      | some fragment =>
          rw [List.nil_append, List.head?_cons]
          decide
    rw [splitTarget_snd_of_head hhead, hnone]
    rfl
  · rename_i ps hsome
    obtain ⟨form, hform, rfl⟩ := hquery
    rw [List.cons_append] at hrest
    obtain ⟨written, hsnd, hwritten⟩ := splitTarget_snd_of_mark hrest
    have hclean : ∀ b ∈ form, decide (b ≠ 0x23) = true :=
      fun b hb => decide_eq_true (hform.numberSign_not_mem b hb)
    have hstop : t.fragmentText.takeWhile (· ≠ 0x23) = [] := by
      unfold fragmentText
      cases t.fragment with
      | none => rfl
      | some fragment => rfl
    rw [List.takeWhile_append_of_pos hclean, hstop, List.append_nil] at hwritten
    rw [hsnd, hsome]
    exact Form.decode_of_spells (hwritten ▸ hform)

end Reading

end TargetParts

namespace RequestHeader

/-- **Reading a target undoes writing it.** The path of a header is the one that its target was
written for, and its query holds the pairs, of several values for a name the last one. There is such
a target for every path, every list of pairs and every fragment, and no target says anything else
once a fragment is put behind it. -/
theorem target_read_back :
    (∀ (h : HeaderSection) (t : TargetParts), t.Spells h.target →
      (ofSection h).path = t.path ∧
      ∀ name, (ofSection h).queries.get? name = lastValue? t.pairs name) ∧
    (∀ t : TargetParts, ∃ target, t.Spells target) ∧
    ∀ (h : HeaderSection) (fragment : String),
      (ofSection { h with target := h.target ++ "#" ++ fragment }).path = (ofSection h).path ∧
      (ofSection { h with target := h.target ++ "#" ++ fragment }).queries =
        (ofSection h).queries := by
  refine ⟨fun h t hspells => ⟨?path, fun name => ?queries⟩, TargetParts.exists_spells,
    fun h fragment => ?fragment⟩
  case path => exact TargetParts.decodeText_path hspells
  case queries =>
    have hqueries : (ofSection h).queries = NameMap.ofList t.pairs :=
      congrArg NameMap.ofList (TargetParts.decode_query hspells)
    rw [hqueries, NameMap.get?_ofList]
  case fragment =>
    unfold ofSection
    rw [splitTarget_append_fragment]
    exact ⟨rfl, rfl⟩

/-- Parts that hold every border there is, with two values for one name. -/
def everyBorder : TargetParts where
  path := "/a b?c#%+é"
  query := some [("k&", "1=+"), ("k&", "é #"), ("", "")]
  fragment := some "x?y#z"

def everyBorderTarget : String := "/a b%3Fc%23%25+%c3%A9?k%26=1%3D%2b&%6B%26=%C3%A9+%23&=#x?y#z"

theorem spells_everyBorder : everyBorder.Spells everyBorderTarget := by
  have hpath : Written Percent.InPath (Utf8.ofString "/a b?c#%+é")
      (Utf8.ofString "/a b%3Fc%23%25+%c3%A9") :=
    ⟨["/", "a", " ", "b", "%3F", "c", "%23", "%25", "+", "%c3", "%A9"].map Utf8.ofString,
      by decide +kernel, by decide +kernel⟩
  have hfirst : Form.SpellsPair ("k&", "1=+") (Utf8.ofString "k%26=1%3D%2b") :=
    ⟨_, _, ⟨["k", "%26"].map Utf8.ofString, by decide +kernel, rfl⟩,
      ⟨["1", "%3D", "%2b"].map Utf8.ofString, by decide +kernel, rfl⟩, by decide +kernel⟩
  have hsecond : Form.SpellsPair ("k&", "é #") (Utf8.ofString "%6B%26=%C3%A9+%23") :=
    ⟨_, _, ⟨["%6B", "%26"].map Utf8.ofString, by decide +kernel, rfl⟩,
      ⟨["%C3", "%A9", "+", "%23"].map Utf8.ofString, by decide +kernel, rfl⟩, by decide +kernel⟩
  have hthird : Form.SpellsPair ("", "") (Utf8.ofString "=") :=
    ⟨_, _, .nil, .nil, by decide +kernel⟩
  refine ⟨_, _, hpath, ⟨_, ⟨_, .cons hfirst (.cons hsecond (.cons hthird .nil)), rfl⟩, rfl⟩, ?_⟩
  decide +kernel

theorem target_read_back_everyBorder : everyBorder.Spells everyBorderTarget ∧
    (ofSection { target := everyBorderTarget }).path = "/a b?c#%+é" ∧
    (ofSection { target := everyBorderTarget }).queries.get? "k&" = some "é #" ∧
    (ofSection { target := everyBorderTarget }).queries.get? "" = some "" ∧
    (ofSection { target := everyBorderTarget }).queries.get? "x" = none := by
  obtain ⟨hpath, hqueries⟩ :=
    target_read_back.1 { target := everyBorderTarget } everyBorder spells_everyBorder
  exact ⟨spells_everyBorder, hpath, (hqueries "k&").trans (by decide),
    (hqueries "").trans (by decide), (hqueries "x").trans (by decide)⟩

end RequestHeader

end HttpServer
