import PointQuery.Proofs.Json.Reading
import PointQuery.Proofs.Number.Numeral
/-!
# The grammar of JSON

The texts of JSON values, and the strings that a text between quotes stands for, independently of
the readers. `stringBody_spells` says that a string is read as what it stands for.
-/

namespace PointQuery.Json

variable {ws cs rest : List Char} {c : Char}

/-! ## Blanks -/

/-- What may stand between tokens: spaces, tabs and ends of lines. -/
def Blanks (ws : List Char) : Prop := ∀ c ∈ ws, c = ' ' ∨ c = '\t' ∨ c = '\n' ∨ c = '\r'

instance (ws : List Char) : Decidable (Blanks ws) :=
  List.decidableBAll (fun c => c = ' ' ∨ c = '\t' ∨ c = '\n' ∨ c = '\r') ws

theorem Blanks.nil : Blanks [] := List.forall_mem_nil _

theorem Blanks.append {us : List Char} (h : Blanks ws) (hus : Blanks us) : Blanks (ws ++ us) :=
  List.forall_mem_append.mpr ⟨h, hus⟩

theorem Blanks.isBlank (h : Blanks ws) : ∀ c ∈ ws, isBlank c = true := by
  intro c hc
  rcases h c hc with rfl | rfl | rfl | rfl <;> rfl

theorem Blanks.skip (h : Blanks ws) (cs : List Char) : skipBlanks (ws ++ cs) = skipBlanks cs :=
  List.dropWhile_append_of_pos h.isBlank

/-- Blanks are skipped to what is none. -/
theorem Blanks.skip_cons (h : Blanks ws) (hc : Json.isBlank c = false) (cs : List Char) :
    skipBlanks (ws ++ c :: cs) = c :: cs := by
  rw [h.skip, skipBlanks_cons hc]

/-! ## Strings -/

/-- A hexadecimal digit, in either case, and its value. -/
def Hex (c : Char) (n : Nat) : Prop :=
  "0123456789abcdef".toList[n]? = some c ∨ "0123456789ABCDEF".toList[n]? = some c

/-- Four hexadecimal digits, and the number that they name. -/
inductive CodeUnit : List Char → Nat → Prop
  | mk {c₁ c₂ c₃ c₄ : Char} {n₁ n₂ n₃ n₄ : Nat} : Hex c₁ n₁ → Hex c₂ n₂ → Hex c₃ n₃ → Hex c₄ n₄ →
      CodeUnit [c₁, c₂, c₃, c₄] (n₁ * 16 ^ 3 + n₂ * 16 ^ 2 + n₃ * 16 + n₄)

/-- The letters that may follow a backslash, and the characters that they stand for. -/
def letters : List (Char × Char) :=
  [('"', '"'), ('\\', '\\'), ('/', '/'), ('b', '\x08'), ('f', '\x0c'), ('n', '\n'), ('r', '\r'),
    ('t', '\t')]

/-- A character that stands for itself between quotes. -/
def Plain (c : Char) : Prop := c ≠ '"' ∧ c ≠ '\\' ∧ 0x20 ≤ c.toNat

instance : DecidablePred Plain :=
  fun c => inferInstanceAs (Decidable (c ≠ '"' ∧ c ≠ '\\' ∧ 0x20 ≤ c.toNat))

/-- What stands between the quotes of a string, and the characters that it stands for. A character
may be given by the number of its code unit, or by those of its two surrogates. -/
inductive Spells : List Char → List Char → Prop
  | nil : Spells [] []
  | plain {c : Char} {body text : List Char} : Plain c → Spells body text →
      Spells (c :: body) (c :: text)
  | letter {e c : Char} {body text : List Char} : (e, c) ∈ letters → Spells body text →
      Spells ('\\' :: e :: body) (c :: text)
  | unit {c : Char} {hs body text : List Char} : CodeUnit hs c.toNat → Spells body text →
      Spells ('\\' :: 'u' :: (hs ++ body)) (c :: text)
  | pair {c : Char} {k : Nat} {hs ls body text : List Char} : c.toNat = 0x10000 + k →
      CodeUnit hs (0xd800 + k / 0x400) → CodeUnit ls (0xdc00 + k % 0x400) → Spells body text →
      Spells ('\\' :: 'u' :: (hs ++ '\\' :: 'u' :: (ls ++ body))) (c :: text)

/-- What may stand between the quotes of a string that is not read. Code units are not looked at,
so a surrogate may stand alone. -/
inductive Characters : List Char → Prop
  | nil : Characters []
  | plain {c : Char} {body : List Char} : Plain c → Characters body → Characters (c :: body)
  | letter {e c : Char} {body : List Char} : (e, c) ∈ letters → Characters body →
      Characters ('\\' :: e :: body)
  | unit {n : Nat} {hs body : List Char} : CodeUnit hs n → Characters body →
      Characters ('\\' :: 'u' :: (hs ++ body))

section Strings

variable {e : Char} {n k : Nat} {body text hs : List Char}

theorem hexValue?_of_hex (h : Hex c n) : hexValue? c = some n := by
  have hvalue : ∀ digits ∈ ["0123456789abcdef".toList, "0123456789ABCDEF".toList], ∀ n < 16,
      digits[n]?.bind hexValue? = some n := by decide
  have hlower := hvalue "0123456789abcdef".toList (by decide) n
  have hupper := hvalue "0123456789ABCDEF".toList (by decide) n
  rcases h with h | h
  · obtain ⟨hn, -⟩ := List.getElem?_eq_some_iff.mp h
    rw [h] at hlower
    exact hlower hn
  · obtain ⟨hn, -⟩ := List.getElem?_eq_some_iff.mp h
    rw [h] at hupper
    exact hupper hn

/-- A code unit is four digits that are read as its number. -/
theorem CodeUnit.exists_digits (h : CodeUnit hs n) :
    ∃ c₁ c₂ c₃ c₄, hs = [c₁, c₂, c₃, c₄] ∧ codeUnit? c₁ c₂ c₃ c₄ = some n := by
  obtain ⟨h₁, h₂, h₃, h₄⟩ := h
  refine ⟨_, _, _, _, rfl, ?_⟩
  simp only [codeUnit?, hexValue?_of_hex h₁, hexValue?_of_hex h₂, hexValue?_of_hex h₃,
    hexValue?_of_hex h₄]
  refine congrArg some ?_
  omega

theorem escaped?_of_mem (h : (e, c) ∈ letters) : e ≠ 'u' ∧ escaped? e = some c := by
  have hall : ∀ p ∈ letters, p.1 ≠ 'u' ∧ escaped? p.1 = some p.2 := by decide
  exact hall (e, c) h

/-- A text of plain characters stands for itself. -/
theorem spells_plain (h : cs.all (Plain ·) = true) : Spells cs cs := by
  induction cs with
  | nil => exact .nil
  | cons c cs ih =>
      obtain ⟨hc, hcs⟩ := Bool.and_eq_true_iff.mp h
      exact .plain (of_decide_eq_true hc) (ih hcs)

/-- What spells a string may stand between the quotes of one that is not read. -/
theorem Spells.characters (h : Spells body text) : Characters body := by
  induction h with
  | nil => exact .nil
  | plain hc _ ih => exact .plain hc ih
  | letter he _ ih => exact .letter he ih
  | unit hunit _ ih => exact .unit hunit ih
  | pair _ hhigh hlow _ ih => exact .unit hhigh (.unit hlow ih)

theorem mem_letters_of_escaped? (h : escaped? e = some c) : (e, c) ∈ letters := by
  unfold escaped? at h
  split_ifs at h with hself
  · cases h
    rcases hself with rfl | rfl | rfl <;> decide
  all_goals
    cases h
    subst e
    decide

theorem hex_hexDigit : ∀ n < 16, Hex (hexDigit n) n := by
  have hlower : ∀ n < 16, "0123456789abcdef".toList[n]? = some (hexDigit n) := by decide
  exact fun n hn => .inl (hlower n hn)

/-- What is written between quotes stands for the characters that it was written for. -/
theorem spells_escape (cs : List Char) : Spells (cs.flatMap escape) cs := by
  induction cs with
  | nil => exact .nil
  | cons c cs ih =>
      rw [List.flatMap_cons]
      rcases escape_cases c with ⟨e, he, h⟩ | ⟨hcontrol, h⟩ | ⟨hquote, hbackslash, hcontrol, h⟩
      · rw [h]
        exact .letter (mem_letters_of_escaped? he) ih
      · rw [h]
        have hunit := CodeUnit.mk (hex_hexDigit 0 (by decide)) (hex_hexDigit 0 (by decide))
          (hex_hexDigit (c.toNat / 16) (by omega)) (hex_hexDigit (c.toNat % 16) (by omega))
        have hvalue : 0 * 16 ^ 3 + 0 * 16 ^ 2 + c.toNat / 16 * 16 + c.toNat % 16 = c.toNat := by
          omega
        rw [hvalue] at hunit
        exact .unit hunit ih
      · rw [h]
        exact .plain ⟨hquote, hbackslash, Nat.not_lt.mp hcontrol⟩ ih

theorem toNat_valid (c : Char) : c.toNat < 0xd800 ∨ (0xdfff < c.toNat ∧ c.toNat < 0x110000) :=
  c.valid

theorem stringBody_pair {h₁ h₂ h₃ h₄ l₁ l₂ l₃ l₄ : Char} {high low : Nat}
    (hhigh : codeUnit? h₁ h₂ h₃ h₄ = some high) (hlow : codeUnit? l₁ l₂ l₃ l₄ = some low)
    (hfirst : isHighSurrogate high = true) (hsecond : isLowSurrogate low = true) (cs : List Char) :
    stringBody ('\\' :: 'u' :: h₁ :: h₂ :: h₃ :: h₄ :: '\\' :: 'u' :: l₁ :: l₂ :: l₃ :: l₄ :: cs) =
      pushChar (pairChar high low) (stringBody cs) := by
  have hnotLow : isLowSurrogate high = false := by
    simp only [isHighSurrogate, isLowSurrogate, Bool.and_eq_true, decide_eq_true_eq,
      Bool.and_eq_false_iff, decide_eq_false_iff_not] at hfirst ⊢
    omega
  rw [stringBody.eq_def]
  simp [hhigh, hlow, hfirst, hsecond, hnotLow]

/-- A string is read as what it stands for. -/
theorem stringBody_spells (h : Spells body text) (rest : List Char) :
    stringBody (body ++ '"' :: rest) = .ok (text, rest) := by
  induction h with
  | nil => exact stringBody_quote rest
  | plain hc _ ih =>
      rw [List.cons_append, stringBody_plain hc.1 hc.2.1 (Nat.not_lt.mpr hc.2.2), ih]
      rfl
  | letter he _ ih =>
      obtain ⟨hu, hescaped⟩ := escaped?_of_mem he
      rw [List.cons_append, List.cons_append, stringBody_letter hu hescaped, ih]
      rfl
  | @unit c hs body text hunit _ ih =>
      obtain ⟨c₁, c₂, c₃, c₄, rfl, hread⟩ := hunit.exists_digits
      have hvalid := toNat_valid c
      have hlow : isLowSurrogate c.toNat = false := by
        simp only [isLowSurrogate, Bool.and_eq_false_iff, decide_eq_false_iff_not]
        omega
      have hhigh : isHighSurrogate c.toNat = false := by
        simp only [isHighSurrogate, Bool.and_eq_false_iff, decide_eq_false_iff_not]
        omega
      have hbody := stringBody_unit hread hlow hhigh (body ++ '"' :: rest)
      rw [ih, Char.ofNat_toNat] at hbody
      exact hbody
  | @pair c k hs ls body text hk hhigh hlow _ ih =>
      obtain ⟨h₁, h₂, h₃, h₄, rfl, hreadHigh⟩ := hhigh.exists_digits
      obtain ⟨l₁, l₂, l₃, l₄, rfl, hreadLow⟩ := hlow.exists_digits
      have hvalid := toNat_valid c
      have hfirst : isHighSurrogate (0xd800 + k / 0x400) = true := by
        simp only [isHighSurrogate, Bool.and_eq_true, decide_eq_true_eq]
        omega
      have hsecond : isLowSurrogate (0xdc00 + k % 0x400) = true := by
        simp only [isLowSurrogate, Bool.and_eq_true, decide_eq_true_eq]
        omega
      have hpair : pairChar (0xd800 + k / 0x400) (0xdc00 + k % 0x400) = c := by
        rw [pairChar, ← Char.ofNat_toNat c, hk]
        refine congrArg Char.ofNat ?_
        omega
      have hbody := stringBody_pair hreadHigh hreadLow hfirst hsecond (body ++ '"' :: rest)
      rw [ih, hpair] at hbody
      exact hbody

theorem skipString_quote (cs : List Char) : skipString ('"' :: cs) = .ok cs := by
  rw [skipString.eq_def]
  simp

theorem skipString_plain (hc : Plain c) (cs : List Char) :
    skipString (c :: cs) = skipString cs := by
  rw [skipString.eq_def]
  simp [hc.1, hc.2.1, hc.2.2]

theorem skipString_letter (he : (e, c) ∈ letters) (cs : List Char) :
    skipString ('\\' :: e :: cs) = skipString cs := by
  rw [skipString.eq_def]
  simp [escaped?_of_mem he]

theorem skipString_unit (h : CodeUnit hs n) (cs : List Char) :
    skipString ('\\' :: 'u' :: (hs ++ cs)) = skipString cs := by
  obtain ⟨c₁, c₂, c₃, c₄, rfl, hread⟩ := h.exists_digits
  rw [skipString.eq_def]
  simp [hread]

/-- A string is skipped to its closing quote. -/
theorem skipString_characters (h : Characters body) (rest : List Char) :
    skipString (body ++ '"' :: rest) = .ok rest := by
  induction h with
  | nil => exact skipString_quote rest
  | plain hc _ ih => rw [List.cons_append, skipString_plain hc, ih]
  | letter he _ ih => rw [List.cons_append, List.cons_append, skipString_letter he, ih]
  | unit hunit _ ih =>
      rw [List.cons_append, List.cons_append, List.append_assoc, skipString_unit hunit, ih]

end Strings

/-! ## Numbers -/

/-- The digits before the point; a zero in front stands alone. -/
inductive Whole : List Char → Prop
  | zero : Whole ['0']
  | digits {d : Char} {ds : List Char} : Numeral.Digits (d :: ds) → d ≠ '0' → Whole (d :: ds)

/-- A point and at least one digit, or nothing. -/
inductive Fraction : List Char → Prop
  | absent : Fraction []
  | present {d : Char} {ds : List Char} : Numeral.Digits (d :: ds) → Fraction ('.' :: d :: ds)

/-- A number without its sign. -/
inductive Unsigned : List Char → Prop
  | mk {ws fs es : List Char} {e : Int} : Whole ws → Fraction fs → Numeral.Exponent es e →
      Unsigned (ws ++ (fs ++ es))

/-! ## Values -/

/-- A word, a number or a string. -/
inductive Scalar : List Char → Prop
  | null : Scalar "null".toList
  | bool (b : Bool) : Scalar (if b then "true".toList else "false".toList)
  | number {ds : List Char} : Unsigned ds → Scalar ds
  | minus {ds : List Char} : Unsigned ds → Scalar ('-' :: ds)
  | string {body : List Char} : Characters body → Scalar ('"' :: (body ++ ['"']))

/-- What a stretch of a text is: a value, the items of a list or the members of an object. -/
inductive Part where
  | value
  | items
  | members

/-- **The grammar.** Lists and objects may be empty, and blanks may stand between any two tokens. -/
inductive Derives : Part → List Char → Prop
  | scalar {cs : List Char} : Scalar cs → Derives .value cs
  | emptyList {ws : List Char} : Blanks ws → Derives .value ('[' :: (ws ++ [']']))
  | list {is : List Char} : Derives .items is → Derives .value ('[' :: (is ++ [']']))
  | emptyObject {ws : List Char} : Blanks ws → Derives .value ('\x7b' :: (ws ++ ['\x7d']))
  | object {ms : List Char} : Derives .members ms → Derives .value ('\x7b' :: (ms ++ ['\x7d']))
  | item {ws value ws' : List Char} : Blanks ws → Derives .value value → Blanks ws' →
      Derives .items (ws ++ (value ++ ws'))
  | items {is js : List Char} : Derives .items is → Derives .items js →
      Derives .items (is ++ ',' :: js)
  | member {ws key afterKey ws' value ws'' : List Char} : Blanks ws → Characters key →
      Blanks afterKey → Blanks ws' → Derives .value value → Blanks ws'' →
      Derives .members (ws ++ '"' :: (key ++ '"' :: (afterKey ++ ':' :: (ws' ++ (value ++ ws'')))))
  | members {ms ns : List Char} : Derives .members ms → Derives .members ns →
      Derives .members (ms ++ ',' :: ns)

/-- A text of a value. -/
abbrev Value (cs : List Char) : Prop := Derives .value cs

end PointQuery.Json
