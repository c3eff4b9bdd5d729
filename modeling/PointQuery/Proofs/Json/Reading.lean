import PointQuery.Json.Record
import PointQuery.Json.Writer
/-!
# Reading one step at a time

What the readers do with the next character of a string, the next item of a list and the next member
of an object, and how a writer puts such texts after one another.
-/

namespace PointQuery.Json

theorem skipBlanks_cons {c : Char} (h : isBlank c = false) (cs : List Char) :
    skipBlanks (c :: cs) = c :: cs := by
  rw [skipBlanks, List.dropWhile_cons_of_neg (by simp [h])]

/-! ## Strings -/

section

variable {c e x h₁ h₂ h₃ h₄ : Char} {n : Nat}

theorem stringBody_quote (cs : List Char) : stringBody ('"' :: cs) = .ok ([], cs) := by
  rw [stringBody.eq_def]
  simp

theorem stringBody_plain (hquote : c ≠ '"') (hbackslash : c ≠ '\\') (hcontrol : ¬ c.toNat < 0x20)
    (cs : List Char) : stringBody (c :: cs) = pushChar c (stringBody cs) := by
  rw [stringBody.eq_def]
  simp [hquote, hbackslash, hcontrol]

theorem stringBody_letter (hu : e ≠ 'u') (hx : escaped? e = some x) (cs : List Char) :
    stringBody ('\\' :: e :: cs) = pushChar x (stringBody cs) := by
  rw [stringBody.eq_def]
  simp [hu, hx]

theorem stringBody_unit (hn : codeUnit? h₁ h₂ h₃ h₄ = some n) (hlow : isLowSurrogate n = false)
    (hhigh : isHighSurrogate n = false) (cs : List Char) :
    stringBody ('\\' :: 'u' :: h₁ :: h₂ :: h₃ :: h₄ :: cs) =
      pushChar (Char.ofNat n) (stringBody cs) := by
  rw [stringBody.eq_def]
  simp [hn, hlow, hhigh]

/-- A character is written as a letter that stands for it, by its number, or as it is. -/
theorem escape_cases (c : Char) :
    (∃ e, escaped? e = some c ∧ escape c = ['\\', e]) ∨
    (c.toNat < 0x20 ∧
      escape c = ['\\', 'u', '0', '0', hexDigit (c.toNat / 16), hexDigit (c.toNat % 16)]) ∨
    (c ≠ '"' ∧ c ≠ '\\' ∧ ¬ c.toNat < 0x20 ∧ escape c = [c]) := by
  by_cases hletter : c = '"' ∨ c = '\\' ∨ c = '\x08' ∨ c = '\x0c' ∨ c = '\n' ∨ c = '\r' ∨ c = '\t'
  · left
    rcases hletter with rfl | rfl | rfl | rfl | rfl | rfl | rfl
    · exact ⟨'"', rfl, rfl⟩
    · exact ⟨'\\', rfl, rfl⟩
    · exact ⟨'b', rfl, rfl⟩
    · exact ⟨'f', rfl, rfl⟩
    · exact ⟨'n', rfl, rfl⟩
    · exact ⟨'r', rfl, rfl⟩
    · exact ⟨'t', rfl, rfl⟩
  · right
    simp only [not_or] at hletter
    by_cases hcontrol : c.toNat < 0x20
    · exact .inl ⟨hcontrol, by simp [escape, hletter, hcontrol]⟩
    · exact .inr ⟨hletter.1, hletter.2.1, hcontrol, by simp [escape, hletter, hcontrol]⟩

end

/-! ## Commas -/

/-- Texts that follow others, each after a comma. -/
def following (texts : List (List Char)) : List Char := texts.flatMap fun text => ',' :: text

theorem following_cons (text : List Char) (texts : List (List Char)) (rest : List Char) :
    following (text :: texts) ++ rest = ',' :: (text ++ (following texts ++ rest)) := by
  simp [following]

theorem writeCommas_cons (text : List Char) (texts : List (List Char)) (rest : List Char) :
    writeCommas (text :: texts) ++ rest = text ++ (following texts ++ rest) := by
  induction texts generalizing text with
  | nil => simp [writeCommas, following]
  | cons next texts ih =>
      rw [writeCommas, List.append_assoc, List.cons_append, ih, following_cons]
      simp

/-- Texts with commas between them and one character after them are at least as long as they are
many. -/
theorem length_le_writeCommas (texts : List (List Char)) (c : Char) (rest : List Char) :
    texts.length ≤ (writeCommas texts ++ c :: rest).length := by
  induction texts with
  | nil => simp
  | cons text texts ih =>
      cases texts with
      | nil => simp; omega
      | cons next texts =>
          simp only [writeCommas, List.length_append, List.length_cons] at ih ⊢
          omega

/-! ## Lists -/

section

variable {α : Type} {item : Reader α} {a : α} {cs cs' cs'' rest : List Char} {c : Char} {fuel : Nat}

theorem items_close (h : skipBlanks cs = ']' :: rest) (first : Bool) :
    items item (fuel + 1) first cs = .ok ([], rest) := by
  rw [items, h]
  rfl

theorem items_first (h : skipBlanks cs = c :: cs') (hc : c ≠ ']')
    (hitem : item (c :: cs') = .ok (a, rest)) :
    items item (fuel + 1) true cs =
      (items item fuel false rest).map fun r => (a :: r.1, r.2) := by
  rw [items, h]
  split
  · rename_i heq
    exact absurd (List.cons.inj heq).1 hc
  · rename_i heq
    cases heq
  · simp only [if_true, pure_bind, hitem]
    rfl

theorem items_next (h : skipBlanks cs = ',' :: cs') (h' : skipBlanks cs' = c :: cs'')
    (hc : c ≠ ']') (hitem : item (c :: cs'') = .ok (a, rest)) :
    items item (fuel + 1) false cs =
      (items item fuel false rest).map fun r => (a :: r.1, r.2) := by
  rw [items, h]
  simp only [List.cons.injEq, Char.reduceEq, false_and, imp_self, implies_true,
    Bool.false_eq_true, ↓reduceIte, pure_bind]
  rw [h']
  split
  · rename_i heq
    exact absurd (List.cons.inj heq).1 hc
  · rename_i heq
    cases heq
  · simp only [hitem]
    rfl

/-- What an item may start with: no blank, and not the end of the list. -/
def StartsItem (text : List Char) : Prop :=
  ∃ c cs, text = c :: cs ∧ isBlank c = false ∧ c ≠ ']'

end

/-! ## Records -/

namespace Record

variable {σ : Type} {fields : List (Field σ)} {s s' : σ} {cs cs' cs'' rest : List Char} {fuel : Nat}

theorem members_close (h : skipBlanks cs = '\x7d' :: rest)
    (hrequired : (fields.all fun f => !f.required || f.isSet s) = true) (first : Bool) :
    members fields (fuel + 1) first s cs = .ok (s, rest) := by
  rw [members, h]
  exact if_pos hrequired

theorem members_first (h : skipBlanks cs = '"' :: cs')
    (hmember : member fields s ('"' :: cs') = .ok (s', rest)) :
    members fields (fuel + 1) true s cs = members fields fuel false s' rest := by
  rw [members, h]
  simp only [List.cons.injEq, Char.reduceEq, false_and, imp_self, implies_true, ↓reduceIte,
    pure_bind, hmember]
  rfl

theorem members_next (h : skipBlanks cs = ',' :: cs') (h' : skipBlanks cs' = '"' :: cs'')
    (hmember : member fields s ('"' :: cs'') = .ok (s', rest)) :
    members fields (fuel + 1) false s cs = members fields fuel false s' rest := by
  rw [members, h]
  simp only [List.cons.injEq, Char.reduceEq, false_and, imp_self, implies_true,
    Bool.false_eq_true, ↓reduceIte, h', pure_bind, hmember]
  rfl

end Record

end PointQuery.Json
