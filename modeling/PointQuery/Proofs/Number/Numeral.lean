import Mathlib.Data.List.TakeWhile
import Mathlib.Tactic.FieldSimp
import PointQuery.Proofs.Number.Decimal
/-!
# Numerals

The grammar of numerals and their values, and that `Binary64.parse` follows it: a text reads as a
finite number exactly if it is a numeral whose value rounds to one. The words for infinity and NaN
are no numerals, and what is past the largest magnitude rounds to none.
-/

namespace PointQuery

/-! ## The grammar -/

namespace Numeral

/-- A run of digits, which may be empty. -/
def Digits (ds : List Char) : Prop := ∀ c ∈ ds, c.isDigit = true

/-- The number that a run of digits stands for. -/
def natural (ds : List Char) : Nat := Nat.ofDigitChars 10 ds 0

/-- An optional sign, and whether it is a minus. -/
inductive Sign : List Char → Bool → Prop
  | absent : Sign [] false
  | plus : Sign ['+'] false
  | minus : Sign ['-'] true

/-- Digits, digits with a point and maybe a fraction, or a point and digits. -/
inductive Mantissa : List Char → ℚ → Prop
  | whole {ds : List Char} : Digits ds → ds ≠ [] → Mantissa ds (natural ds)
  | pointed {ds fs : List Char} : Digits ds → ds ≠ [] → Digits fs →
      Mantissa (ds ++ '.' :: fs) (natural ds + natural fs / 10 ^ fs.length)
  | fraction {fs : List Char} : Digits fs → fs ≠ [] →
      Mantissa ('.' :: fs) (natural fs / 10 ^ fs.length)

/-- An optional exponent: `e` or `E`, an optional sign and at least one digit. -/
inductive Exponent : List Char → Int → Prop
  | absent : Exponent [] 0
  | present {c : Char} {sign ds : List Char} {negative : Bool} : c = 'e' ∨ c = 'E' →
      Sign sign negative → Digits ds → ds ≠ [] →
      Exponent (c :: (sign ++ ds)) (if negative then -(natural ds : Int) else natural ds)

end Numeral

/-- **A numeral**, whether it has a minus, and its value without the sign. -/
inductive Numeral : List Char → Bool → ℚ → Prop
  | mk {sign ms es : List Char} {negative : Bool} {m : ℚ} {e : Int} : Numeral.Sign sign negative →
      Numeral.Mantissa ms m → Numeral.Exponent es e →
      Numeral (sign ++ (ms ++ es)) negative (m * 10 ^ e)

namespace Numeral

/-! ## Digits -/

section Digits

variable {ds fs es : List Char}

theorem Digits.append (hds : Digits ds) (hfs : Digits fs) : Digits (ds ++ fs) := by
  intro c hc
  rcases List.mem_append.mp hc with h | h
  · exact hds c h
  · exact hfs c h

theorem digits_takeWhile (cs : List Char) : Digits (cs.takeWhile Char.isDigit) :=
  fun _ hc => List.mem_takeWhile_imp hc

theorem natural_nil : natural [] = 0 := rfl

/-- Digits put behind others. -/
theorem natural_append (ds fs : List Char) :
    natural (ds ++ fs) = 10 ^ fs.length * natural ds + natural fs := by
  rw [natural, Nat.ofDigitChars_append, Nat.ofDigitChars_eq_ofDigitChars_zero]
  rfl

theorem digitsValue_eq (ds : List Char) : Decimal.digitsValue ds = natural ds := rfl

/-- What a run of digits ends before: the end, or something other than a digit. -/
def Stops (es : List Char) : Prop := ∀ c rest, es = c :: rest → c.isDigit = false

theorem takeWhile_append (hds : Digits ds) (hes : Stops es) :
    (ds ++ es).takeWhile Char.isDigit = ds := by
  rw [List.takeWhile_append_of_pos hds]
  cases es with
  | nil => simp
  | cons c rest => simp [hes c rest rfl]

theorem dropWhile_append (hds : Digits ds) (hes : Stops es) :
    (ds ++ es).dropWhile Char.isDigit = es := by
  rw [List.dropWhile_append_of_pos hds]
  cases es with
  | nil => rfl
  | cons c rest => simp [hes c rest rfl]

end Digits

/-! ## Signs -/

section Sign

variable {cs sign : List Char} {negative : Bool}

/-- What can follow a sign: a digit or a point. -/
def Starts (cs : List Char) : Prop := ∃ c rest, cs = c :: rest ∧ (c.isDigit = true ∨ c = '.')

theorem Starts.append (h : Starts cs) (es : List Char) : Starts (cs ++ es) := by
  obtain ⟨c, rest, rfl, hc⟩ := h
  exact ⟨c, rest ++ es, rfl, hc⟩

theorem starts_of_digits {ds : List Char} (h : Digits ds) (hne : ds ≠ []) : Starts ds := by
  obtain ⟨c, rest, rfl⟩ := List.exists_cons_of_ne_nil hne
  exact ⟨c, rest, rfl, .inl (h c List.mem_cons_self)⟩

theorem takeSign_of_starts (h : Starts cs) : Decimal.takeSign cs = (false, cs) := by
  obtain ⟨c, rest, rfl, hc⟩ := h
  unfold Decimal.takeSign
  split
  · rename_i heq
    cases heq
    exact absurd hc (by decide)
  · rename_i heq
    cases heq
    exact absurd hc (by decide)
  · rfl

theorem takeSign_append (h : Sign sign negative) (hcs : Starts cs) :
    Decimal.takeSign (sign ++ cs) = (negative, cs) := by
  cases h with
  | absent => exact takeSign_of_starts hcs
  | plus => rfl
  | minus => rfl

theorem exists_sign (cs : List Char) :
    ∃ sign, Sign sign (Decimal.takeSign cs).1 ∧ cs = sign ++ (Decimal.takeSign cs).2 := by
  unfold Decimal.takeSign
  split
  · exact ⟨['-'], .minus, rfl⟩
  · exact ⟨['+'], .plus, rfl⟩
  · exact ⟨[], .absent, rfl⟩

end Sign

/-! ## Exponents -/

section Exponent

variable {es : List Char} {e : Int}

theorem Exponent.head (h : Exponent es e) {c : Char} {rest : List Char} (hes : es = c :: rest) :
    c = 'e' ∨ c = 'E' := by
  cases h with
  | absent => cases hes
  | present hc => cases hes; exact hc

theorem Exponent.stops (h : Exponent es e) : Stops es := by
  intro c rest hes
  rcases h.head hes with rfl | rfl <;> decide

theorem readExponent_cons {c : Char} (hc : c = 'e' ∨ c = 'E') (cs : List Char) :
    Decimal.readExponent (c :: cs) =
      if (Decimal.takeSign cs).2 ≠ [] ∧ (Decimal.takeSign cs).2.all Char.isDigit then
        some (if (Decimal.takeSign cs).1 then -(natural (Decimal.takeSign cs).2 : Int)
          else natural (Decimal.takeSign cs).2)
      else none := if_pos hc

/-- An exponent is read as its value, and nothing else is read. -/
theorem readExponent_eq_some_iff : Decimal.readExponent es = some e ↔ Exponent es e := by
  constructor
  · intro h
    cases es with
    | nil =>
        cases h
        exact .absent
    | cons c cs =>
        by_cases hc : c = 'e' ∨ c = 'E'
        · obtain ⟨sign, hsign, hcs⟩ := exists_sign cs
          rw [readExponent_cons hc] at h
          split at h
          · rename_i hds
            cases h
            have hexponent := Exponent.present hc hsign (List.all_eq_true.mp hds.2) hds.1
            rwa [← hcs] at hexponent
          · cases h
        · rw [Decimal.readExponent, if_neg hc] at h
          cases h
  · intro h
    cases h with
    | absent => rfl
    | @present c sign ds negative hc hsign hds hne =>
        rw [readExponent_cons hc, takeSign_append hsign (starts_of_digits hds hne)]
        exact if_pos ⟨hne, List.all_eq_true.mpr hds⟩

end Exponent

/-! ## Mantissas -/

section Mantissa

variable {ms es ds fs : List Char} {m : ℚ} {e : Int}

theorem Mantissa.starts (h : Mantissa ms m) : Starts ms := by
  cases h with
  | whole hds hne => exact starts_of_digits hds hne
  | pointed hds hne hfs => exact (starts_of_digits hds hne).append _
  | fraction hfs hne => exact ⟨'.', _, rfl, .inr rfl⟩

/-- A mantissa is digits, or digits on both sides of a point with at least one among them. -/
theorem Mantissa.cases_point (h : Mantissa ms m) : (Digits ms ∧ ms ≠ [] ∧ m = natural ms) ∨
    ∃ ds fs, Digits ds ∧ Digits fs ∧ ds ++ fs ≠ [] ∧ ms = ds ++ '.' :: fs ∧
      m = natural ds + natural fs / 10 ^ fs.length := by
  cases h with
  | whole hds hne => exact .inl ⟨hds, hne, rfl⟩
  | @pointed ds fs hds hne hfs =>
      exact .inr ⟨ds, fs, hds, hfs, by simp [hne], rfl, rfl⟩
  | @fraction fs hfs hne =>
      refine .inr ⟨[], fs, List.forall_mem_nil _, hfs, hne, rfl, ?_⟩
      rw [natural_nil, Nat.cast_zero, zero_add]

theorem Mantissa.of_point (hds : Digits ds) (hfs : Digits fs) (hne : ds ++ fs ≠ []) :
    Mantissa (ds ++ '.' :: fs) (natural ds + natural fs / 10 ^ fs.length) := by
  cases ds with
  | nil =>
      rw [natural_nil, Nat.cast_zero, zero_add]
      exact .fraction hfs hne
  | cons d ds => exact .pointed hds (List.cons_ne_nil d ds) hfs

theorem value_whole (ds : List Char) (e : Int) :
    Decimal.value ⟨natural ds, e⟩ = natural ds * 10 ^ e := rfl

/-- Digits after the point count by their place. -/
theorem natural_append_div (ds fs : List Char) :
    (natural (ds ++ fs) : ℚ) / 10 ^ fs.length = natural ds + natural fs / 10 ^ fs.length := by
  have hne : (10 : ℚ) ^ fs.length ≠ 0 := pow_ne_zero _ (by norm_num)
  rw [natural_append]
  push_cast
  field_simp

/-- Places after the point lower the exponent. -/
theorem value_point (ds fs : List Char) (e : Int) :
    Decimal.value ⟨natural (ds ++ fs), e - fs.length⟩ =
      (natural ds + natural fs / 10 ^ fs.length) * 10 ^ e := by
  rw [Decimal.value, zpow_sub₀ (by norm_num), zpow_natCast, ← natural_append_div, ← mul_div_assoc,
    div_mul_eq_mul_div]

/-- A numeral without a point is read as its digits. -/
theorem read_whole (hds : Digits ds) (hne : ds ≠ []) (he : Exponent es e) :
    Decimal.read (ds ++ es) = some ⟨natural ds, e⟩ := by
  have hfraction : Decimal.takeFraction es = ([], es) := by
    unfold Decimal.takeFraction
    split
    · exact absurd (he.head rfl) (by decide)
    · rfl
  unfold Decimal.read
  rw [takeWhile_append hds he.stops, dropWhile_append hds he.stops, hfraction]
  dsimp only
  rw [List.append_nil, if_neg hne, readExponent_eq_some_iff.mpr he, Option.map_some,
    digitsValue_eq, List.length_nil, Nat.cast_zero, sub_zero]

/-- A numeral with a point is read as all its digits. -/
theorem read_point (hds : Digits ds) (hfs : Digits fs) (hne : ds ++ fs ≠ []) (he : Exponent es e) :
    Decimal.read (ds ++ '.' :: (fs ++ es)) = some ⟨natural (ds ++ fs), e - fs.length⟩ := by
  have hpoint : Stops ('.' :: (fs ++ es)) := by
    intro c rest h
    cases h
    rfl
  have hfraction : Decimal.takeFraction ('.' :: (fs ++ es)) = (fs, es) := by
    rw [Decimal.takeFraction, takeWhile_append hfs he.stops, dropWhile_append hfs he.stops]
  unfold Decimal.read
  rw [takeWhile_append hds hpoint, dropWhile_append hds hpoint, hfraction]
  dsimp only
  rw [if_neg hne, readExponent_eq_some_iff.mpr he, Option.map_some, digitsValue_eq]

/-- A mantissa with an exponent is read as a decimal of the same value. -/
theorem exists_read (hm : Mantissa ms m) (he : Exponent es e) :
    ∃ d, Decimal.read (ms ++ es) = some d ∧ d.value = m * 10 ^ e := by
  rcases hm.cases_point with ⟨hds, hne, rfl⟩ | ⟨ds, fs, hds, hfs, hne, rfl, rfl⟩
  · exact ⟨_, read_whole hds hne he, value_whole ms e⟩
  · refine ⟨_, ?_, value_point ds fs e⟩
    rw [List.append_assoc, List.cons_append]
    exact read_point hds hfs hne he

theorem takeFraction_cases (cs : List Char) : Decimal.takeFraction cs = ([], cs) ∨
    ∃ rest, cs = '.' :: rest ∧
      Decimal.takeFraction cs = (rest.takeWhile Char.isDigit, rest.dropWhile Char.isDigit) := by
  unfold Decimal.takeFraction
  split
  · exact .inr ⟨_, rfl, rfl⟩
  · exact .inl rfl

/-- What is read is a mantissa with an exponent, and the decimal has their value. -/
theorem of_read {cs : List Char} {d : Decimal} (h : Decimal.read cs = some d) :
    ∃ ms m es e, cs = ms ++ es ∧ Mantissa ms m ∧ Exponent es e ∧ d.value = m * 10 ^ e := by
  have hsplit : cs = cs.takeWhile Char.isDigit ++ cs.dropWhile Char.isDigit :=
    List.takeWhile_append_dropWhile.symm
  have hds : Digits (cs.takeWhile Char.isDigit) := digits_takeWhile cs
  unfold Decimal.read at h
  generalize cs.takeWhile Char.isDigit = ds at *
  generalize cs.dropWhile Char.isDigit = rest at *
  rcases takeFraction_cases rest with hnone | ⟨rest', rfl, hfraction⟩
  · rw [hnone] at h
    dsimp only at h
    rw [List.append_nil] at h
    split at h
    · cases h
    · rename_i hne
      obtain ⟨e, he, rfl⟩ := Option.map_eq_some_iff.mp h
      refine ⟨ds, _, rest, e, hsplit, .whole hds hne, readExponent_eq_some_iff.mp he, ?_⟩
      rw [digitsValue_eq, List.length_nil, Nat.cast_zero, sub_zero, value_whole]
  · have hfs : Digits (rest'.takeWhile Char.isDigit) := digits_takeWhile rest'
    have hsplit' := List.takeWhile_append_dropWhile (p := Char.isDigit) (l := rest')
    rw [hfraction] at h
    dsimp only at h
    generalize rest'.takeWhile Char.isDigit = fs at *
    generalize rest'.dropWhile Char.isDigit = es at *
    split at h
    · cases h
    · rename_i hne
      obtain ⟨e, he, rfl⟩ := Option.map_eq_some_iff.mp h
      refine ⟨_, _, es, e, ?_, .of_point hds hfs hne, readExponent_eq_some_iff.mp he, ?_⟩
      · rw [hsplit, ← hsplit', List.append_assoc, List.cons_append]
      · rw [digitsValue_eq, value_point]

end Mantissa

end Numeral

/-! ## Reading numbers -/

namespace Binary64

/-- The words for infinity and NaN are never finite. -/
theorem isFinite_of_readWord {negative : Bool} {cs : List Char} {x : Binary64}
    (h : readWord negative cs = some x) : x.isFinite = false := by
  unfold readWord at h
  dsimp only at h
  split at h
  · cases h
    rfl
  · split at h
    · cases h
      rfl
    · cases h

/-- A text that is a sign and a decimal reads as the number to which the decimal rounds. -/
theorem exists_parse_of_read {s : String} {negative : Bool} {cs : List Char} {d : Decimal}
    (hsign : Decimal.takeSign s.toList = (negative, cs)) (hread : Decimal.read cs = some d) :
    ∃ x, parse s = some x ∧ Rounds negative d.value x := by
  unfold parse
  rw [hsign]
  dsimp only
  rw [hread]
  dsimp only
  rcases d.toMagnitude_cases with ⟨x, hround, hx⟩ | ⟨hround, hlarge⟩
  · rw [hround]
    exact ⟨_, rfl, .finite hx⟩
  · rw [hround]
    exact ⟨_, rfl, .overflow hlarge⟩

/-- A numeral reads as the number to which its value rounds. -/
theorem exists_parse_of_numeral {s : String} {negative : Bool} {v : ℚ}
    (h : Numeral s.toList negative v) : ∃ x, parse s = some x ∧ Rounds negative v x := by
  generalize hs : s.toList = cs at h
  cases h with
  | mk hsign hm he =>
      obtain ⟨d, hread, hvalue⟩ := Numeral.exists_read hm he
      rw [← hvalue]
      refine exists_parse_of_read ?_ hread
      rw [hs]
      exact Numeral.takeSign_append hsign (hm.starts.append _)

/-- What reads as a finite number is a numeral. -/
theorem numeral_of_parse {s : String} {x : Binary64} (h : parse s = some x)
    (hx : x.isFinite = true) : ∃ negative v, Numeral s.toList negative v ∧ Rounds negative v x := by
  obtain ⟨sign, hsign, hs⟩ := Numeral.exists_sign s.toList
  cases htaken : Decimal.takeSign s.toList with
  | mk negative cs =>
      rw [htaken] at hsign hs
      cases hread : Decimal.read cs with
      | some d =>
          obtain ⟨ms, m, es, e, rfl, hm, he, hvalue⟩ := Numeral.of_read hread
          obtain ⟨y, hparse, hy⟩ := exists_parse_of_read htaken hread
          rw [hparse] at h
          cases h
          refine ⟨negative, d.value, ?_, hy⟩
          rw [hvalue, hs]
          exact .mk hsign hm he
      | none =>
          have hword : readWord negative cs = some x := by
            rw [← h]
            unfold parse
            rw [htaken]
            dsimp only
            rw [hread]
          rw [isFinite_of_readWord hword] at hx
          cases hx

/-- **A text reads as a finite number if and only if it is a numeral whose value rounds to it.** -/
theorem parse_eq_some_iff {s : String} {x : Binary64} (hx : x.isFinite = true) :
    parse s = some x ↔ ∃ negative v, Numeral s.toList negative v ∧ Rounds negative v x := by
  constructor
  · exact fun h => numeral_of_parse h hx
  · rintro ⟨negative, v, hnumeral, hround⟩
    obtain ⟨y, hparse, hy⟩ := exists_parse_of_numeral hnumeral
    rw [hparse, hround.unique hy]

end Binary64

/-! ## Characters -/

namespace Numeral

/-- The characters of numerals. -/
def isCharacter (c : Char) : Bool := c.isDigit || c ∈ ['+', '-', '.', 'e', 'E']

theorem Digits.characters {ds : List Char} (h : Digits ds) : ∀ c ∈ ds, isCharacter c = true := by
  intro c hc
  rw [isCharacter, h c hc, Bool.true_or]

theorem Sign.characters {sign : List Char} {negative : Bool} (h : Sign sign negative) :
    ∀ c ∈ sign, isCharacter c = true := by
  cases h with
  | absent => exact List.forall_mem_nil _
  | plus => exact List.forall_mem_singleton.mpr rfl
  | minus => exact List.forall_mem_singleton.mpr rfl

theorem Mantissa.characters {ms : List Char} {m : ℚ} (h : Mantissa ms m) :
    ∀ c ∈ ms, isCharacter c = true := by
  rcases h.cases_point with ⟨hds, -, -⟩ | ⟨ds, fs, hds, hfs, -, rfl, -⟩
  · exact hds.characters
  · exact List.forall_mem_append.mpr
      ⟨hds.characters, List.forall_mem_cons.mpr ⟨by decide, hfs.characters⟩⟩

theorem Exponent.characters {es : List Char} {e : Int} (h : Exponent es e) :
    ∀ c ∈ es, isCharacter c = true := by
  cases h with
  | absent => exact List.forall_mem_nil _
  | present hc hsign hds =>
      refine List.forall_mem_cons.mpr ⟨?_, ?_⟩
      · rcases hc with rfl | rfl <;> decide
      · exact List.forall_mem_append.mpr ⟨hsign.characters, hds.characters⟩

theorem characters {cs : List Char} {negative : Bool} {v : ℚ} (h : Numeral cs negative v) :
    ∀ c ∈ cs, isCharacter c = true := by
  cases h with
  | mk hsign hm he =>
      exact List.forall_mem_append.mpr
        ⟨hsign.characters, List.forall_mem_append.mpr ⟨hm.characters, he.characters⟩⟩

end Numeral

end PointQuery
