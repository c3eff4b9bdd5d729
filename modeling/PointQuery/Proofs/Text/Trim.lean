import Mathlib.Data.List.TakeWhile
import PointQuery.Text.Basic
import PointQuery.Text.Word
/-!
# Trimming

What trimming takes off a text and what it leaves: a text is blanks, its trimmed part and blanks
again, and a part without blanks is what is left of it with any blanks around it.
-/

namespace PointQuery.Text

/-! ## Blanks are no word characters -/

/-- The code points of the blanks. -/
def blankCodes : List Nat :=
  [0x09, 0x0a, 0x0b, 0x0c, 0x0d, 0x20, 0x85, 0xa0, 0x1680, 0x2000, 0x2001, 0x2002, 0x2003, 0x2004,
    0x2005, 0x2006, 0x2007, 0x2008, 0x2009, 0x200a, 0x2028, 0x2029, 0x202f, 0x205f, 0x3000]

theorem toNat_mem_blankCodes {c : Char} (h : isBlank c = true) : c.toNat ∈ blankCodes := by
  simp only [isBlank, Bool.or_eq_true, Bool.and_eq_true, decide_eq_true_eq] at h
  simp only [blankCodes, List.mem_cons, List.not_mem_nil]
  omega

theorem not_isBlank_of_isWord {c : Char} (h : isWord c = true) : isBlank c = false := by
  have hcodes : ∀ n ∈ blankCodes, isWord (Char.ofNat n) = false := by decide +kernel
  cases hblank : isBlank c with
  | false => rfl
  | true =>
      have hword := hcodes c.toNat (toNat_mem_blankCodes hblank)
      rw [Char.ofNat_toNat, h] at hword
      cases hword

/-! ## One end -/

/-- What ends in something other than a blank has no blanks at its end. -/
theorem dropBlankEnd_append {as bs : List Char} (hne : bs ≠ [])
    (h : ∀ c ∈ bs, isBlank c = false) : dropBlankEnd (as ++ bs) = as ++ bs := by
  obtain ⟨last, front, hbs⟩ := List.exists_cons_of_ne_nil (List.reverse_ne_nil_iff.mpr hne)
  have hlast : ¬ isBlank last = true := by
    have hmem : last ∈ bs := List.mem_reverse.mp (hbs ▸ List.mem_cons_self)
    simp [h last hmem]
  rw [dropBlankEnd, List.reverse_append, hbs, List.cons_append, List.dropWhile_cons_of_neg hlast,
    ← List.cons_append, ← hbs, ← List.reverse_append, List.reverse_reverse]

/-- Blanks at the end are taken off. -/
theorem dropBlankEnd_append_blanks {as bs : List Char} (h : ∀ c ∈ bs, isBlank c = true) :
    dropBlankEnd (as ++ bs) = dropBlankEnd as := by
  have hreverse : ∀ c ∈ bs.reverse, isBlank c = true := fun c hc => h c (List.mem_reverse.mp hc)
  rw [dropBlankEnd, List.reverse_append, List.dropWhile_append_of_pos hreverse, ← dropBlankEnd]

/-! ## Both ends -/

/-- What holds no blanks is left of a text with blanks around it. -/
theorem trimChars_padded {before core after : List Char} (hbefore : ∀ c ∈ before, isBlank c = true)
    (hcore : ∀ c ∈ core, isBlank c = false) (hafter : ∀ c ∈ after, isBlank c = true) :
    trimChars (before ++ core ++ after) = core := by
  rw [trimChars, List.append_assoc, List.dropWhile_append_of_pos hbefore]
  cases core with
  | nil =>
      rw [List.nil_append, List.dropWhile_eq_nil_iff.mpr hafter]
      rfl
  | cons c cs =>
      have hc : ¬ isBlank c = true := by simp [hcore c List.mem_cons_self]
      rw [List.cons_append, List.dropWhile_cons_of_neg hc, ← List.cons_append,
        dropBlankEnd_append_blanks hafter, ← List.nil_append (c :: cs),
        dropBlankEnd_append (List.cons_ne_nil c cs) hcore]

/-- A text is what is left of it with blanks around it. -/
theorem exists_padding (cs : List Char) :
    ∃ before after, (∀ c ∈ before, isBlank c = true) ∧ (∀ c ∈ after, isBlank c = true) ∧
      cs = before ++ trimChars cs ++ after := by
  let rest := cs.dropWhile isBlank
  refine ⟨cs.takeWhile isBlank, (rest.reverse.takeWhile isBlank).reverse, ?_, ?_, ?_⟩
  · exact fun c hc => List.mem_takeWhile_imp hc
  · exact fun c hc => List.mem_takeWhile_imp (List.mem_reverse.mp hc)
  · have hrest : trimChars cs ++ (rest.reverse.takeWhile isBlank).reverse = rest := by
      rw [trimChars, dropBlankEnd, ← List.reverse_append, List.takeWhile_append_dropWhile,
        List.reverse_reverse]
    rw [List.append_assoc, hrest, List.takeWhile_append_dropWhile]

/-- Where nothing is taken off, there are no blanks to take off. -/
theorem eq_nil_of_dropWhile {as bs : List Char} (h : ∀ c ∈ as, isBlank c = true)
    (heq : (as ++ bs).dropWhile isBlank = as ++ bs) : as = [] := by
  rw [List.dropWhile_append_of_pos h] at heq
  have hlength := (List.dropWhile_suffix isBlank (l := bs)).length_le
  rw [heq, List.length_append] at hlength
  exact List.eq_nil_of_length_eq_zero (by omega)

/-- A text that trimming leaves alone has no blanks at its ends. -/
theorem eq_nil_of_trimmed {before core after : List Char}
    (hbefore : ∀ c ∈ before, isBlank c = true) (hafter : ∀ c ∈ after, isBlank c = true)
    (h : trimChars (before ++ core ++ after) = before ++ core ++ after) :
    before = [] ∧ after = [] := by
  generalize hcs : before ++ core ++ after = cs at h
  -- neither of the two steps of trimming makes the text shorter
  have hfront : cs.dropWhile isBlank = cs := by
    refine (List.dropWhile_suffix isBlank).eq_of_length (Nat.le_antisymm ?_ ?_)
    · exact (List.dropWhile_suffix isBlank).length_le
    · have hend := (List.dropWhile_suffix isBlank (l := (cs.dropWhile isBlank).reverse)).length_le
      rw [← List.length_reverse, ← dropBlankEnd, ← trimChars, h] at hend
      simpa using hend
  have hback : cs.reverse.dropWhile isBlank = cs.reverse := by
    rw [trimChars, hfront, dropBlankEnd] at h
    exact List.reverse_eq_iff.mp h
  constructor
  · rw [← hcs, List.append_assoc] at hfront
    exact eq_nil_of_dropWhile hbefore hfront
  · rw [← hcs, List.reverse_append] at hback
    have hreverse : ∀ c ∈ after.reverse, isBlank c = true :=
      fun c hc => hafter c (List.mem_reverse.mp hc)
    exact List.reverse_eq_nil_iff.mp (eq_nil_of_dropWhile hreverse hback)

end PointQuery.Text
