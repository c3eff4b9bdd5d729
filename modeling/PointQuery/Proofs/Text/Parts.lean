import PointQuery.Text.Basic
/-!
# Parts of a text

The parts of a text are the library's `List.splitOn`: they hold no separator, and with separators
between them they are the text again. So a text has two parts exactly if it has one separator.
-/

namespace PointQuery.Text

variable {separator : Char} {as bs cs : List Char}

theorem parts_ne_nil (separator : Char) (cs : List Char) : parts separator cs ≠ [] := by
  cases cs with
  | nil => exact List.cons_ne_nil _ _
  | cons c cs =>
      rw [parts]
      split
      · exact List.cons_ne_nil _ _
      · split <;> exact List.cons_ne_nil _ _

theorem parts_eq_splitOn (separator : Char) (cs : List Char) :
    parts separator cs = cs.splitOn separator := by
  induction cs with
  | nil => rfl
  | cons c cs ih =>
      rw [List.splitOn_cons_eq_if_modifyHead, ← ih, parts]
      by_cases hc : c = separator
      · rw [if_pos hc, if_pos (beq_iff_eq.mpr hc)]
      · rw [if_neg hc, if_neg (mt beq_iff_eq.mp hc)]
        obtain ⟨part, rest, hparts⟩ := List.exists_cons_of_ne_nil (parts_ne_nil separator cs)
        rw [hparts]
        rfl

/-- No part holds a separator. -/
theorem not_mem_of_mem_parts (h : as ∈ parts separator cs) : separator ∉ as := by
  induction cs generalizing as with
  | nil =>
      rw [List.mem_singleton.mp h]
      exact List.not_mem_nil
  | cons c cs ih =>
      obtain ⟨part, rest, hparts⟩ := List.exists_cons_of_ne_nil (parts_ne_nil separator cs)
      rw [hparts] at ih
      rw [parts, hparts] at h
      split at h
      · rcases List.mem_cons.mp h with rfl | hmem
        · exact List.not_mem_nil
        · exact ih hmem
      · rename_i hc
        rcases List.mem_cons.mp h with rfl | hmem
        · exact List.not_mem_cons_of_ne_of_not_mem (Ne.symm hc) (ih List.mem_cons_self)
        · exact ih (List.mem_cons_of_mem _ hmem)

/-- A text has two parts exactly if it has one separator. -/
theorem parts_eq_pair_iff : parts separator cs = [as, bs] ↔
    cs = as ++ separator :: bs ∧ separator ∉ as ∧ separator ∉ bs := by
  constructor
  · intro h
    have has : as ∈ parts separator cs := by simp [h]
    have hbs : bs ∈ parts separator cs := by simp [h]
    refine ⟨?_, not_mem_of_mem_parts has, not_mem_of_mem_parts hbs⟩
    have hjoined : [separator].intercalate (cs.splitOn separator) = cs :=
      List.intercalate_splitOn separator
    rw [← parts_eq_splitOn, h] at hjoined
    simpa using hjoined.symm
  · rintro ⟨rfl, has, hbs⟩
    rw [parts_eq_splitOn, List.splitOn_append_cons_self_of_not_mem has,
      List.splitOn_eq_singleton hbs]

end PointQuery.Text
