import HttpServer.Proofs.Routing.Parameters
import HttpServer.Proofs.Stream.Quality

/-!
# The coding that a client gets

A client accepts a coding if an element of its list names the coding and no parameter of that
element refuses it, which a number does that is at most zero in single precision
(`ContentCoding.Refuses`). The coding chosen is the first in the server's order that the client
accepts, and there is none only if the client accepts none. So the choice depends on nothing but the
codings that are accepted: neither the order of the elements, nor repetitions, blanks or codings
that are not known make a difference (`ContentCoding.select_exact`).
-/

namespace HttpServer

namespace ContentCoding

/-! ## What a client accepts -/

/-- The names that a coding goes by. -/
def names : ContentCoding → List String
  | .gzip => ["gzip", "x-gzip"]
  | .deflate => ["deflate"]
  | .brotli => ["br"]
  | .zstd => ["zstd"]

/-- The place of a coding in the server's order. -/
def rank : ContentCoding → Nat
  | .zstd => 0
  | .brotli => 1
  | .gzip => 2
  | .deflate => 3

/-- The elements of the list that a client sends. -/
def items (accepted : String) : List (List Char) := splitAll (· == ',') accepted.toList

/-- What stands in front of the parameters of an element. -/
def token (item : List Char) : List Char := (splitAll (· == ';') item).headD []

/-- The parameters of an element. -/
def parameters (item : List Char) : List (List Char) := (splitAll (· == ';') item).tail

/-- The element is about the coding. -/
def Names (item : List Char) (coding : ContentCoding) : Prop :=
  ∃ name ∈ coding.names, sameName (String.ofList (trim (token item))) name = true

/-- The parameter gives a number that is at most zero. -/
def Refuses (parameter : List Char) : Prop :=
  ∃ number q, trim parameter = 'q' :: '=' :: number ∧ Quality.Spells (trim number) q ∧ q.AtMostZero

/-- Some element is about the coding and does not refuse it. -/
def Acceptable (items : List (List Char)) (coding : ContentCoding) : Prop :=
  ∃ item ∈ items, Names item coding ∧ ∀ parameter ∈ parameters item, ¬ Refuses parameter

/-- What is checked of a parameter is that it refuses. -/
theorem isRefusal_iff {parameter : List Char} : isRefusal parameter = true ↔ Refuses parameter := by
  rw [isRefusal, Refuses]
  split
  · rename_i number hparameter
    rw [Option.any_eq_true]
    constructor
    · rintro ⟨q, hread, hrefusal⟩
      exact ⟨number, q, hparameter, Quality.read?_eq_some_iff.1 hread,
        Quality.isRefusal_iff.1 hrefusal⟩
    · rintro ⟨other, q, hother, hspells, hrefusal⟩
      rw [hparameter] at hother
      cases hother
      exact ⟨q, Quality.read?_eq_some_iff.2 hspells, Quality.isRefusal_iff.2 hrefusal⟩
  · rename_i hother
    refine iff_of_false Bool.false_ne_true ?_
    rintro ⟨number, q, hparameter, -, -⟩
    exact hother number hparameter

/-- A coding has its own name, and one has another. -/
theorem mem_names_iff {coding : ContentCoding} {name : String} :
    name ∈ coding.names ↔ name = coding.name ∨ (coding = .gzip ∧ name = "x-gzip") := by
  cases coding <;> simp [names, ContentCoding.name]

theorem name_mem_names (coding : ContentCoding) : coding.name ∈ coding.names :=
  mem_names_iff.2 (.inl rfl)

/-- No name stands for two codings. -/
theorem eq_of_sameName {coding other : ContentCoding} {name otherName token : String}
    (hname : name ∈ coding.names) (hother : otherName ∈ other.names)
    (h : sameName token name = true) (h' : sameName token otherName = true) : coding = other := by
  have hsame : sameName name otherName = true :=
    sameName_iff.2 ((sameName_iff.1 h).symm.trans (sameName_iff.1 h'))
  have hapart : ∀ name ∈ coding.names, ∀ otherName ∈ other.names,
      sameName name otherName = true → coding = other := by
    cases coding <;> cases other <;> decide
  exact hapart name hname otherName hother hsame

/-- The order of the server has all codings. -/
theorem mem_preference (coding : ContentCoding) : coding ∈ preference := by
  cases coding <;> decide

/-- A token is read as the coding that it names. -/
theorem ofName?_eq_some_iff {token : String} {coding : ContentCoding} :
    ofName? token = some coding ↔ ∃ name ∈ coding.names, sameName token name = true := by
  rw [ofName?]
  cases hfind : preference.find? fun coding => sameName token coding.name with
  | some found =>
      have hfound : sameName token found.name = true := by
        simpa using List.find?_some hfind
      constructor
      · intro h
        cases h
        exact ⟨_, name_mem_names _, hfound⟩
      · rintro ⟨name, hname, hsame⟩
        rw [eq_of_sameName hname (name_mem_names found) hsame hfound]
        rfl
  | none =>
      have hnone (other : ContentCoding) : ¬ sameName token other.name = true :=
        List.find?_eq_none.1 hfind other (mem_preference other)
      change (if sameName token "x-gzip" = true then some gzip else none) = some coding ↔ _
      constructor
      · intro h
        split at h
        · rename_i hsame
          cases h
          exact ⟨_, mem_names_iff.2 (.inr ⟨rfl, rfl⟩), hsame⟩
        · cases h
      · rintro ⟨name, hname, hsame⟩
        rcases mem_names_iff.1 hname with rfl | ⟨rfl, rfl⟩
        · exact absurd hsame (hnone coding)
        · exact if_pos hsame

/-- An element offers the coding that it is about unless it refuses it. -/
theorem offered?_eq_some_iff {item : List Char} {coding : ContentCoding} :
    offered? item = some coding ↔
      Names item coding ∧ ∀ parameter ∈ parameters item, ¬ Refuses parameter := by
  obtain ⟨first, rest, hparts⟩ := List.exists_cons_of_ne_nil (splitAll_ne_nil (· == ';') item)
  rw [offered?, Names, token, parameters, hparts, List.headD_cons, List.tail_cons,
    ← ofName?_eq_some_iff]
  have hrefused : rest.any isRefusal = true ↔ ∃ parameter ∈ rest, Refuses parameter := by
    simp only [List.any_eq_true, isRefusal_iff]
  change (if rest.any isRefusal = true then none else _) = _ ↔ _
  by_cases hany : rest.any isRefusal = true
  · rw [if_pos hany]
    obtain ⟨parameter, hmem, hrefuses⟩ := hrefused.1 hany
    exact iff_of_false nofun fun h => h.2 parameter hmem hrefuses
  · rw [if_neg hany]
    refine (and_iff_left ?_).symm
    intro parameter hmem hrefuses
    exact hany (hrefused.2 ⟨parameter, hmem, hrefuses⟩)

/-- **A coding is on offer** exactly if the client accepts it. -/
theorem mem_offers_iff {accepted : String} {coding : ContentCoding} :
    coding ∈ offers accepted ↔ Acceptable (items accepted) coding := by
  rw [offers, List.mem_filterMap, Acceptable, items]
  simp only [offered?_eq_some_iff]

/-! ## The server's order -/

/-- No two codings have the same rank. -/
theorem rank_injective : Function.Injective rank := by
  intro coding other h
  cases coding <;> cases other <;> first | rfl | cases h

/-- No coding of a kind is better than the one that is found. -/
theorem best_of_find?_preference {p : ContentCoding → Bool} {found : ContentCoding}
    (h : preference.find? p = some found) :
    ∀ better, better.rank < found.rank → ¬ p better = true := by
  have hsorted : preference.Pairwise (fun first second => first.rank < second.rank) := by decide
  obtain ⟨-, before, behind, hsplit, hbefore⟩ := List.find?_eq_some_iff_append.1 h
  intro better hbetter hgood
  have hmem := mem_preference better
  rw [hsplit] at hmem hsorted
  rcases List.mem_append.1 hmem with hmem | hmem
  · simpa [hgood] using hbefore better hmem
  rcases List.mem_cons.1 hmem with rfl | hmem
  · exact absurd hbetter (lt_irrefl _)
  · have hlater := (List.pairwise_cons.1 (List.pairwise_append.1 hsorted).2.1).1 better hmem
    exact absurd hbetter hlater.not_gt

/-- The first coding that passes a test is the one with the lowest rank. -/
theorem find?_preference_eq_some_iff {p : ContentCoding → Bool} {coding : ContentCoding} :
    preference.find? p = some coding ↔
      p coding = true ∧ ∀ better, better.rank < coding.rank → ¬ p better = true := by
  refine ⟨fun h => ⟨List.find?_some h, best_of_find?_preference h⟩, fun ⟨hgood, hbest⟩ => ?_⟩
  cases hfind : preference.find? p with
  | none => exact absurd hgood (List.find?_eq_none.1 hfind coding (mem_preference coding))
  | some found =>
      rcases lt_trichotomy found.rank coding.rank with hlt | heq | hgt
      · exact absurd (List.find?_some hfind) (hbest found hlt)
      · rw [rank_injective heq]
      · exact absurd hgood (best_of_find?_preference hfind coding hgt)

/-- **The coding chosen** is the first that the client accepts. -/
theorem select_eq_some_iff {accepted : String} {coding : ContentCoding} :
    select accepted = some coding ↔
      Acceptable (items accepted) coding ∧
        ∀ better, better.rank < coding.rank → ¬ Acceptable (items accepted) better := by
  rw [select, find?_preference_eq_some_iff]
  simp only [List.contains_iff_mem, mem_offers_iff]

/-- None is chosen exactly if the client accepts none. -/
theorem select_eq_none_iff {accepted : String} :
    select accepted = none ↔ ∀ coding, ¬ Acceptable (items accepted) coding := by
  rw [select, List.find?_eq_none]
  simp only [List.contains_iff_mem, mem_offers_iff, mem_preference, true_implies]

/-! ## Lists that offer the same -/

/-- The parameters differ in the blanks around them at most, or around the number they give. -/
def SameParameter (parameter other : List Char) : Prop :=
  trim parameter = trim other ∨
    ∃ number otherNumber, trim parameter = 'q' :: '=' :: number ∧
      trim other = 'q' :: '=' :: otherNumber ∧ trim number = trim otherNumber

/-- The elements differ in blanks at most. -/
structure Respaced (item other : List Char) : Prop where
  token_eq : trim (token item) = trim (token other)
  parameters_eq : List.Forall₂ SameParameter (parameters item) (parameters other)

/-- **Lists of elements with the same offer**: one becomes the other by changing the order, writing
elements again, changing blanks, and putting in codings that are not known. -/
inductive SameOffer : List (List Char) → List (List Char) → Prop
  | perm {items other : List (List Char)} (h : items.Perm other) : SameOffer items other
  | again {item : List Char} {items : List (List Char)} (h : item ∈ items) :
      SameOffer items (item :: items)
  | respaced {items other : List (List Char)} (h : List.Forall₂ Respaced items other) :
      SameOffer items other
  | unknown {item : List Char} (h : ∀ coding, ¬ Names item coding) (items : List (List Char)) :
      SameOffer items (item :: items)
  | symm {items other : List (List Char)} (h : SameOffer items other) : SameOffer other items
  | trans {items other third : List (List Char)} (h : SameOffer items other)
      (h' : SameOffer other third) : SameOffer items third

/-- Blanks can be put in as well as taken out. -/
theorem SameParameter.symm {parameter other : List Char} (h : SameParameter parameter other) :
    SameParameter other parameter := by
  rcases h with h | ⟨number, otherNumber, hnumber, hother, h⟩
  · exact .inl h.symm
  · exact .inr ⟨otherNumber, number, hother, hnumber, h.symm⟩

theorem Respaced.symm {item other : List Char} (h : Respaced item other) : Respaced other item where
  token_eq := h.token_eq.symm
  parameters_eq := h.parameters_eq.flip.imp fun _ _ => SameParameter.symm

/-- Blanks around a parameter, and around its value, do not matter to it. -/
theorem Refuses.of_sameParameter {parameter other : List Char} (h : Refuses parameter)
    (hsame : SameParameter parameter other) : Refuses other := by
  obtain ⟨number, q, hparameter, hspells, hzero⟩ := h
  rcases hsame with hsame | ⟨first, second, hfirst, hsecond, hsame⟩
  · exact ⟨number, q, hsame ▸ hparameter, hspells, hzero⟩
  · rw [hparameter] at hfirst
    cases hfirst
    exact ⟨second, q, hsecond, hsame ▸ hspells, hzero⟩

theorem exists_mem_of_forall₂ {α β : Type} {R : α → β → Prop} {xs : List α} {ys : List β}
    (h : List.Forall₂ R xs ys) {x : α} (hx : x ∈ xs) : ∃ y ∈ ys, R x y := by
  induction h with
  | nil => cases hx
  | cons hhead _ ih =>
      rcases List.mem_cons.1 hx with rfl | hx
      · exact ⟨_, List.mem_cons_self, hhead⟩
      · obtain ⟨y, hy, hrel⟩ := ih hx
        exact ⟨y, List.mem_cons_of_mem _ hy, hrel⟩

/-- Blanks make no difference. -/
theorem Acceptable.of_respaced {items other : List (List Char)} {coding : ContentCoding}
    (h : Acceptable items coding) (hsame : List.Forall₂ Respaced items other) :
    Acceptable other coding := by
  obtain ⟨item, hitem, ⟨name, hname, htoken⟩, hparameters⟩ := h
  obtain ⟨item', hitem', hspaced⟩ := exists_mem_of_forall₂ hsame hitem
  refine ⟨item', hitem', ⟨name, hname, hspaced.token_eq ▸ htoken⟩, fun parameter' hmem' => ?_⟩
  obtain ⟨parameter, hmem, hparameter⟩ :=
    exists_mem_of_forall₂ hspaced.symm.parameters_eq hmem'
  exact fun hrefuses => hparameters parameter hmem (hrefuses.of_sameParameter hparameter)

/-- **Lists with the same offer** make the same codings acceptable. -/
theorem SameOffer.acceptable_iff {items other : List (List Char)} (h : SameOffer items other)
    (coding : ContentCoding) : Acceptable items coding ↔ Acceptable other coding := by
  induction h with
  | perm h => simp only [Acceptable, h.mem_iff]
  | again hmem =>
      simp only [Acceptable, List.exists_mem_cons_iff]
      exact ⟨.inr, fun h => h.elim (fun hitem => ⟨_, hmem, hitem⟩) id⟩
  | respaced h =>
      exact ⟨fun hgood => hgood.of_respaced h,
        fun hgood => hgood.of_respaced (h.flip.imp fun _ _ => Respaced.symm)⟩
  | unknown h =>
      simp only [Acceptable, List.exists_mem_cons_iff, h coding, false_and, false_or]
  | symm _ ih => exact ih.symm
  | trans _ _ ih ih' => exact ih.trans ih'

/-- **Offers that are the same lead to the same coding**, by induction on what makes them the
same. -/
theorem select_eq_of_sameOffer {accepted other : String}
    (h : SameOffer (items accepted) (items other)) : select other = select accepted := by
  refine Option.ext fun coding => ?_
  simp only [select_eq_some_iff, h.acceptable_iff]

/-- **The choice of a coding**: it is accepted and none before it in the server's order is, nothing
is chosen only if no coding is accepted, and lists with the same offer lead to the same choice. -/
theorem select_exact (accepted : String) :
    (∀ coding, select accepted = some coding ↔
        Acceptable (items accepted) coding ∧
          ∀ better, better.rank < coding.rank → ¬ Acceptable (items accepted) better) ∧
      (select accepted = none ↔ ∀ coding, ¬ Acceptable (items accepted) coding) ∧
      ∀ other, SameOffer (items accepted) (items other) → select other = select accepted :=
  ⟨fun _ => select_eq_some_iff, select_eq_none_iff, fun _ => select_eq_of_sameOffer⟩

/-- The best coding is refused, so the client gets one that it likes less. -/
example : select "zstd;q=0, gzip;q=0.5" = some .gzip := by decide

/-- Half of the least positive number is as good as zero, and what is no number refuses nothing. -/
example : select "br; q=7e-46, gzip; q=none" = some .gzip := by decide

end ContentCoding

end HttpServer
