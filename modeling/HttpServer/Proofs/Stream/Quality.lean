import HttpServer.Stream.Coding
import Mathlib.Algebra.Order.Field.Basic
import Mathlib.Algebra.Order.Field.Rat
import Mathlib.Data.Rat.Cast.Order
import Mathlib.Tactic.Linarith

/-!
# The numbers of parameters

A parameter gives a number in letters or in digits: infinity, something that is no number, or digits
with an optional point among them and an optional exponent, each with an optional sign
(`Quality.Spells`). These texts are read and no others (`Quality.read?_eq_some_iff`). A number
refuses what it stands behind if it is at most zero in single precision (`Quality.isRefusal_iff`).
-/

namespace HttpServer

namespace Quality

/-! ## Texts of numbers -/

/-- A sign or none; the flag says that it is a minus sign. -/
inductive SpellsSign : List Char → Bool → Prop
  | none : SpellsSign [] false
  | plus : SpellsSign ['+'] false
  | minus : SpellsSign ['-'] true

/-- An exponent of ten, which is zero if it is left out. -/
inductive SpellsExponent : List Char → Int → Prop
  | none : SpellsExponent [] 0
  | marked {mark : Char} {sign digits : List Char} {negative : Bool}
      (hmark : mark = 'e' ∨ mark = 'E') (hsign : SpellsSign sign negative) (hsome : digits ≠ [])
      (hdigits : digits.all Char.isDigit = true) :
      SpellsExponent (mark :: (sign ++ digits))
        (if negative then -(ofDigits digits : Int) else ofDigits digits)

/-- Digits with a point between two parts of them, or without one if there is but one part. -/
inductive SpellsPlaces (whole : List Char) : (fraction text : List Char) → Prop
  | whole : SpellsPlaces whole [] whole
  | point (fraction : List Char) : SpellsPlaces whole fraction (whole ++ '.' :: fraction)

/-- A number in digits: the mantissa is made of all of them, and the exponent says how many of them
are behind the point. -/
inductive SpellsDecimal : List Char → (mantissa : Nat) → (exponent : Int) → Prop
  | mk {whole fraction text tail : List Char} {exponent : Int}
      (hwhole : whole.all Char.isDigit = true) (hfraction : fraction.all Char.isDigit = true)
      (hsome : whole ≠ [] ∨ fraction ≠ []) (hplaces : SpellsPlaces whole fraction text)
      (hexponent : SpellsExponent tail exponent) :
      SpellsDecimal (text ++ tail) (ofDigits (whole ++ fraction)) (exponent - fraction.length)

/-- **The texts of numbers.** Letters may be of either case. -/
inductive Spells : List Char → Quality → Prop
  | infinite {sign word : List Char} {negative : Bool} (hsign : SpellsSign sign negative)
      (hword : word.map Char.toLower ∈ ["inf".toList, "infinity".toList]) :
      Spells (sign ++ word) (.infinite negative)
  | notANumber {sign word : List Char} {negative : Bool} (hsign : SpellsSign sign negative)
      (hword : word.map Char.toLower = "nan".toList) : Spells (sign ++ word) .notANumber
  | finite {sign number : List Char} {negative : Bool} {mantissa : Nat} {exponent : Int}
      (hsign : SpellsSign sign negative) (hnumber : SpellsDecimal number mantissa exponent) :
      Spells (sign ++ number) (.finite negative mantissa exponent)

/-! ## Reading them -/

/-- What is taken from the front is a sign. -/
theorem exists_sign (cs : List Char) :
    ∃ sign, SpellsSign sign (readSign cs).1 ∧ cs = sign ++ (readSign cs).2 := by
  unfold readSign
  split
  · exact ⟨_, .minus, rfl⟩
  · exact ⟨_, .plus, rfl⟩
  · exact ⟨_, .none, rfl⟩

/-- A sign is taken from the front of a text that does not go on with another one. -/
theorem readSign_append {sign : List Char} {negative : Bool} (hsign : SpellsSign sign negative)
    {c : Char} (hc : c ≠ '-' ∧ c ≠ '+') (rest : List Char) :
    readSign (sign ++ c :: rest) = (negative, c :: rest) := by
  cases hsign with
  | none =>
      rw [List.nil_append, readSign]
      · exact fun tail h => hc.1 (List.cons.inj h).1
      · exact fun tail h => hc.2 (List.cons.inj h).1
  | plus => rfl
  | minus => rfl

theorem not_sign_of_isDigit {c : Char} (h : c.isDigit = true) : c ≠ '-' ∧ c ≠ '+' := by
  constructor <;> rintro rfl <;> cases h

/-- **An exponent** is read as it is spelled. -/
theorem readExponent?_eq_some_iff {cs : List Char} {exponent : Int} :
    readExponent? cs = some exponent ↔ SpellsExponent cs exponent := by
  constructor
  · intro h
    cases cs with
    | nil =>
        cases h
        exact .none
    | cons mark rest =>
        obtain ⟨sign, hsign, hrest⟩ := exists_sign rest
        rw [readExponent?] at h
        generalize readSign rest = taken at h hsign hrest
        obtain ⟨negative, digits⟩ := taken
        dsimp only at h hsign hrest
        split at h
        · rename_i hcond
          cases h
          rw [hrest]
          exact .marked hcond.1 hsign hcond.2.1 hcond.2.2
        · cases h
  · intro h
    cases h with
    | none => rfl
    | @marked mark sign digits negative hmark hsign hsome hdigits =>
        obtain ⟨c, rest, rfl⟩ := List.exists_cons_of_ne_nil hsome
        have hc : c.isDigit = true := List.all_eq_true.1 hdigits c List.mem_cons_self
        rw [readExponent?, readSign_append hsign (not_sign_of_isDigit hc)]
        exact if_pos ⟨hmark, hsome, hdigits⟩

/-- No digit stands in front. -/
def StartsSolid (cs : List Char) : Prop := ∀ c ∈ cs.head?, c.isDigit = false

theorem startsSolid_dropWhile (cs : List Char) : StartsSolid (cs.dropWhile Char.isDigit) := by
  intro c hc
  have hhead := List.head?_dropWhile_not Char.isDigit cs
  rw [hc] at hhead
  exact hhead

/-- An exponent starts neither with a digit nor with a point. -/
theorem SpellsExponent.solid {cs : List Char} {exponent : Int} (h : SpellsExponent cs exponent) :
    StartsSolid cs ∧ cs.head? ≠ some '.' := by
  cases h with
  | none => exact ⟨nofun, nofun⟩
  | marked hmark =>
      rcases hmark with rfl | rfl
      · exact ⟨by rintro c ⟨⟩; rfl, by simp⟩
      · exact ⟨by rintro c ⟨⟩; rfl, by simp⟩

/-- Digits end where no digit follows. -/
theorem takeWhile_digits {digits tail : List Char} (hdigits : digits.all Char.isDigit = true)
    (htail : StartsSolid tail) :
    (digits ++ tail).takeWhile Char.isDigit = digits ∧
      (digits ++ tail).dropWhile Char.isDigit = tail := by
  have hall : ∀ c ∈ digits, c.isDigit = true := List.all_eq_true.1 hdigits
  rw [List.takeWhile_append_of_pos hall, List.dropWhile_append_of_pos hall]
  cases tail with
  | nil => exact ⟨List.append_nil _, rfl⟩
  | cons c tail =>
      have hc : ¬ c.isDigit = true := by simp [htail c rfl]
      rw [List.takeWhile_cons_of_neg hc, List.dropWhile_cons_of_neg hc]
      exact ⟨List.append_nil _, rfl⟩

/-- Every text starts with as many digits as there are, and a point among them if there is one. -/
theorem exists_places (cs : List Char) :
    ∃ whole fraction text tail, whole.all Char.isDigit = true ∧ fraction.all Char.isDigit = true ∧
      SpellsPlaces whole fraction text ∧ StartsSolid tail ∧ (text = whole → tail.head? ≠ some '.') ∧
      cs = text ++ tail := by
  have hall (cs : List Char) : (cs.takeWhile Char.isDigit).all Char.isDigit = true :=
    List.all_takeWhile
  have hsplit : cs = cs.takeWhile Char.isDigit ++ cs.dropWhile Char.isDigit :=
    List.takeWhile_append_dropWhile.symm
  by_cases hpoint : (cs.dropWhile Char.isDigit).head? = some '.'
  · obtain ⟨rest, hrest⟩ := List.head?_eq_some_iff.1 hpoint
    refine ⟨_, rest.takeWhile Char.isDigit, _, rest.dropWhile Char.isDigit, hall cs, hall rest,
      .point _, startsSolid_dropWhile rest, fun h => absurd h (by simp), ?_⟩
    rw [List.append_assoc, List.cons_append, List.takeWhile_append_dropWhile, ← hrest]
    exact hsplit
  · exact ⟨_, [], _, _, hall cs, rfl, .whole, startsSolid_dropWhile cs, fun _ => hpoint, hsplit⟩

/-- Digits are read as far as they go, and what stands behind them is read as an exponent. -/
theorem readFinite?_append (negative : Bool) {whole fraction text tail : List Char}
    (hwhole : whole.all Char.isDigit = true) (hfraction : fraction.all Char.isDigit = true)
    (hplaces : SpellsPlaces whole fraction text) (htail : StartsSolid tail)
    (hpoint : text = whole → tail.head? ≠ some '.') :
    readFinite? negative (text ++ tail) =
      if whole = [] ∧ fraction = [] then none
      else (readExponent? tail).map fun exponent =>
        .finite negative (ofDigits (whole ++ fraction)) (exponent - fraction.length) := by
  cases hplaces with
  | whole =>
      obtain ⟨htake, hdrop⟩ := takeWhile_digits hwhole htail
      rw [readFinite?, htake, hdrop]
      cases tail with
      | nil => rfl
      | cons c tail =>
          have hc : c ≠ '.' := fun h => hpoint rfl (congrArg some h)
          split
          rename_i h
          split at h
          · rename_i heq
            exact absurd (List.cons.inj heq).1 hc
          · cases h
            rfl
  | point =>
      have hsolid : StartsSolid ('.' :: (fraction ++ tail)) := by
        rintro c ⟨⟩
        rfl
      obtain ⟨htake, hdrop⟩ := takeWhile_digits hwhole hsolid
      obtain ⟨htake', hdrop'⟩ := takeWhile_digits hfraction htail
      rw [List.append_assoc, List.cons_append, readFinite?, htake, hdrop]
      simp only [htake', hdrop']

/-- **A number in digits** is read as it is spelled. -/
theorem readFinite?_eq_some_iff {negative : Bool} {cs : List Char} {q : Quality} :
    readFinite? negative cs = some q ↔
      ∃ mantissa exponent, SpellsDecimal cs mantissa exponent ∧
        q = .finite negative mantissa exponent := by
  constructor
  · intro h
    obtain ⟨whole, fraction, text, tail, hwhole, hfraction, hplaces, htail, hpoint, rfl⟩ :=
      exists_places cs
    rw [readFinite?_append negative hwhole hfraction hplaces htail hpoint] at h
    split at h
    · cases h
    · rename_i hsome
      obtain ⟨exponent, hexponent, rfl⟩ := Option.map_eq_some_iff.1 h
      refine ⟨_, _, .mk hwhole hfraction ?_ hplaces (readExponent?_eq_some_iff.1 hexponent), rfl⟩
      exact not_and_or.1 hsome
  · rintro ⟨_, _, ⟨hwhole, hfraction, hsome, hplaces, hexponent⟩, rfl⟩
    have hmark : StartsSolid _ ∧ _ := hexponent.solid
    rw [readFinite?_append negative hwhole hfraction hplaces hmark.1 fun _ => hmark.2,
      if_neg (not_and_or.2 hsome), readExponent?_eq_some_iff.2 hexponent]
    rfl

/-! ## Letters and digits -/

/-- A character that numbers in digits may start with. -/
def IsLeading (c : Char) : Prop := c.isDigit = true ∨ c = '.'

theorem IsLeading.ne {c other : Char} (h : IsLeading c) (hdigit : other.isDigit = false)
    (hpoint : other ≠ '.') : c ≠ other := by
  rintro rfl
  rcases h with h | h
  · rw [hdigit] at h
    cases h
  · exact hpoint h

theorem IsLeading.toLower_eq {c : Char} (h : IsLeading c) : c.toLower = c := by
  rcases h with h | rfl
  · simp only [Char.isDigit, Bool.and_eq_true, decide_eq_true_eq] at h
    exact dif_neg fun hupper => absurd (UInt32.le_trans hupper.1 h.2) (by decide)
  · rfl

theorem SpellsDecimal.exists_cons {cs : List Char} {mantissa : Nat} {exponent : Int}
    (h : SpellsDecimal cs mantissa exponent) : ∃ c rest, cs = c :: rest ∧ IsLeading c := by
  cases h with
  | @mk whole fraction text tail _ hwhole _ hsome hplaces _ =>
      cases whole with
      | cons c whole =>
          have hc : c.isDigit = true := List.all_eq_true.1 hwhole c List.mem_cons_self
          cases hplaces with
          | whole => exact ⟨c, whole ++ tail, rfl, .inl hc⟩
          | point => exact ⟨c, _, rfl, .inl hc⟩
      | nil =>
          cases hplaces with
          | whole => exact absurd rfl (hsome.resolve_left (· rfl))
          | point => exact ⟨'.', _, rfl, .inr rfl⟩

/-- A sign is taken from the front of a word. -/
theorem readSign_append_word {sign word letters : List Char} {negative : Bool} {letter : Char}
    (hsign : SpellsSign sign negative) (hword : word.map Char.toLower = letter :: letters)
    (hletter : letter ≠ '-' ∧ letter ≠ '+') : readSign (sign ++ word) = (negative, word) := by
  cases word with
  | nil => cases hword
  | cons c rest =>
      obtain ⟨rfl, -⟩ := List.cons.inj hword
      refine readSign_append hsign ⟨?_, ?_⟩ rest
      · rintro rfl
        exact hletter.1 rfl
      · rintro rfl
        exact hletter.2 rfl

/-- A number in digits is read with its sign. No word starts like one. -/
theorem read?_append_number {sign number : List Char} {negative : Bool} {mantissa : Nat}
    {exponent : Int} (hsign : SpellsSign sign negative)
    (hnumber : SpellsDecimal number mantissa exponent) :
    read? (sign ++ number) = some (.finite negative mantissa exponent) := by
  have hread : readFinite? negative number = some (.finite negative mantissa exponent) :=
    readFinite?_eq_some_iff.2 ⟨mantissa, exponent, hnumber, rfl⟩
  obtain ⟨c, rest, rfl, hc⟩ := hnumber.exists_cons
  have hhead {word : String} (heq : String.ofList ((c :: rest).map Char.toLower) = word) :
      word.toList.head? = some c := by
    rw [← heq, String.toList_ofList, List.map_cons, hc.toLower_eq, List.head?_cons]
  rw [read?, readSign_append hsign ⟨hc.ne rfl (by decide), hc.ne rfl (by decide)⟩]
  dsimp only
  split
  · rename_i heq
    exact absurd (Option.some.inj (hhead heq)) (hc.ne rfl (by decide)).symm
  · rename_i heq
    exact absurd (Option.some.inj (hhead heq)) (hc.ne rfl (by decide)).symm
  · rename_i heq
    exact absurd (Option.some.inj (hhead heq)) (hc.ne rfl (by decide)).symm
  · exact hread

/-- **A number is read from the texts that spell it**, and from no others. -/
theorem read?_eq_some_iff {cs : List Char} {q : Quality} : read? cs = some q ↔ Spells cs q := by
  constructor
  · intro h
    obtain ⟨sign, hsign, hcs⟩ := exists_sign cs
    rw [read?] at h
    generalize readSign cs = taken at h hsign hcs
    obtain ⟨negative, body⟩ := taken
    dsimp only at h hsign hcs
    have hletters {word : String} (heq : String.ofList (body.map Char.toLower) = word) :
        body.map Char.toLower = word.toList := by
      rw [← heq, String.toList_ofList]
    rw [hcs]
    split at h
    · rename_i heq
      cases h
      exact .infinite hsign (hletters heq ▸ List.mem_cons_self)
    · rename_i heq
      cases h
      exact .infinite hsign (hletters heq ▸ List.mem_cons_of_mem _ List.mem_cons_self)
    · rename_i heq
      cases h
      exact .notANumber hsign (hletters heq)
    · obtain ⟨mantissa, exponent, hnumber, rfl⟩ := readFinite?_eq_some_iff.1 h
      exact .finite hsign hnumber
  · intro h
    cases h with
    | infinite hsign hword =>
        rcases List.mem_cons.1 hword with hword | hword
        · rw [read?, readSign_append_word hsign hword (by decide)]
          dsimp only
          rw [hword]
          rfl
        · rw [List.mem_singleton] at hword
          rw [read?, readSign_append_word hsign hword (by decide)]
          dsimp only
          rw [hword]
          rfl
    | notANumber hsign hword =>
        rw [read?, readSign_append_word hsign hword (by decide)]
        dsimp only
        rw [hword]
        rfl
    | finite hsign hnumber => exact read?_append_number hsign hnumber

/-! ## Numbers that refuse -/

/-- The least positive number of single precision. -/
def leastPositive : ℚ := 1 / 2 ^ 149

/-- What the digits of a number come to, without the sign. -/
def magnitude (mantissa : Nat) (exponent : Int) : ℚ := mantissa * 10 ^ exponent

/-- The number is zero or below it in single precision. Without a minus sign that is so if the least
positive number is not nearer than zero. -/
def AtMostZero : Quality → Prop
  | .notANumber => False
  | .infinite negative => negative = true
  | .finite negative mantissa exponent =>
    negative = true ∨
      magnitude mantissa exponent ≤ leastPositive - magnitude mantissa exponent

/-- Counting digits first changes nothing. -/
theorem vanishes_iff {mantissa places : Nat} :
    vanishes mantissa places = true ↔ mantissa * 2 ^ 150 ≤ 10 ^ places := by
  rw [vanishes, Bool.or_eq_true, decide_eq_true_iff, decide_eq_true_iff, Nat.shiftLeft_eq]
  refine ⟨fun h => h.elim (fun hshort => ?_) id, .inr⟩
  have hlength : 0 < (Nat.toDigits 10 mantissa).length := Nat.length_toDigits_pos
  have hmantissa : mantissa < 10 ^ (Nat.toDigits 10 mantissa).length :=
    (Nat.length_toDigits_le_iff (by decide) hlength).1 le_rfl
  calc mantissa * 2 ^ 150
      ≤ 10 ^ (Nat.toDigits 10 mantissa).length * 10 ^ 46 :=
        Nat.mul_le_mul hmantissa.le (by decide)
    _ = 10 ^ ((Nat.toDigits 10 mantissa).length + 46) := (Nat.pow_add ..).symm
    _ ≤ 10 ^ places := Nat.pow_le_pow_right (by decide) hshort

theorem magnitude_neg_le_iff {mantissa places : Nat} :
    magnitude mantissa (-places) ≤ leastPositive - magnitude mantissa (-places) ↔
      mantissa * 2 ^ 150 ≤ 10 ^ places := by
  have hvalue : magnitude mantissa (-places) = mantissa / 10 ^ places := by
    rw [magnitude, zpow_neg, zpow_natCast, div_eq_mul_inv]
  rw [le_sub_iff_add_le, ← mul_two, hvalue, leastPositive, ← mul_div_right_comm,
    div_le_div_iff₀ (by positivity) (by positivity), mul_assoc, ← pow_succ', one_mul]
  exact_mod_cast Iff.rfl

theorem not_magnitude_le {mantissa : Nat} {exponent : Int} (hmantissa : mantissa ≠ 0)
    (hexponent : 0 ≤ exponent) :
    ¬ magnitude mantissa exponent ≤ leastPositive - magnitude mantissa exponent := by
  have hone : 1 ≤ magnitude mantissa exponent :=
    one_le_mul_of_one_le_of_one_le (by exact_mod_cast Nat.one_le_iff_ne_zero.2 hmantissa)
      (one_le_zpow₀ (by norm_num) hexponent)
  have hleast : leastPositive < 1 := by
    rw [leastPositive]
    norm_num
  linarith

/-- **A number refuses** if it is at most zero in single precision, and not otherwise. -/
theorem isRefusal_iff {q : Quality} : q.isRefusal = true ↔ q.AtMostZero := by
  cases q with
  | notANumber => exact iff_of_false Bool.false_ne_true id
  | infinite negative => exact Iff.rfl
  | finite negative mantissa exponent =>
      rw [isRefusal, AtMostZero, Bool.or_assoc, Bool.or_eq_true]
      refine or_congr_right ?_
      rcases lt_or_ge exponent 0 with hneg | hnonneg
      · obtain ⟨places, hplaces⟩ := Int.eq_ofNat_of_zero_le (Int.neg_nonneg_of_nonpos hneg.le)
        obtain rfl : exponent = -places := by omega
        have hzero : mantissa = 0 → vanishes mantissa places = true := by
          rintro rfl
          exact vanishes_iff.2 (by simp)
        rw [magnitude_neg_le_iff, ← vanishes_iff, Bool.or_eq_true, Bool.and_eq_true, beq_iff_eq,
          decide_eq_true_iff, Int.neg_neg, Int.toNat_natCast]
        tauto
      · rw [decide_eq_false hnonneg.not_gt, Bool.false_and, Bool.or_false, beq_iff_eq]
        by_cases hmantissa : mantissa = 0
        · refine iff_of_true hmantissa ?_
          simp [hmantissa, magnitude, leastPositive]
        · exact iff_of_false hmantissa (not_magnitude_le hmantissa hnonneg)

end Quality

end HttpServer
