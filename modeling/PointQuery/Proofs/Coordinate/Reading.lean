import PointQuery.Proofs.Number.Numeral
import PointQuery.Proofs.Search.Outcome
import PointQuery.Proofs.Text.Parts
import PointQuery.Proofs.Text.Trim
/-!
# Reading coordinates

The grammar of the texts of coordinates: two numerals with one comma between them, each with any
blanks around it. `Coordinate.parse` accepts exactly these texts if both numbers are finite, gives
the two numbers in order, and refuses every other text with an error that carries it unchanged.
-/

namespace PointQuery

/-! ## Numerals have no blanks -/

theorem Numeral.toNat_of_isCharacter {c : Char} (h : isCharacter c = true) :
    43 ≤ c.toNat ∧ c.toNat ≤ 101 := by
  rw [isCharacter, Bool.or_eq_true] at h
  rcases h with hdigit | hmark
  · simp only [Char.isDigit, Bool.and_eq_true, decide_eq_true_eq] at hdigit
    have hcode : 48 ≤ c.toNat ∧ c.toNat ≤ 57 := hdigit
    omega
  · have hmem : c ∈ ['+', '-', '.', 'e', 'E'] := of_decide_eq_true hmark
    simp only [List.mem_cons, List.not_mem_nil, or_false] at hmem
    rcases hmem with rfl | rfl | rfl | rfl | rfl <;> decide

theorem Numeral.isBlank_of_isCharacter {c : Char} (h : isCharacter c = true) :
    Text.isBlank c = false := by
  have hcode := toNat_of_isCharacter h
  cases hblank : Text.isBlank c with
  | false => rfl
  | true =>
      have hmem := Text.toNat_mem_blankCodes hblank
      simp only [Text.blankCodes, List.mem_cons, List.not_mem_nil, or_false] at hmem
      omega

namespace Coordinate

/-! ## The grammar -/

/-- A numeral with any blanks around it, and the number to which its value rounds. -/
inductive Side : List Char → Binary64 → Prop
  | mk {before cs after : List Char} {negative : Bool} {v : ℚ} {x : Binary64} :
      (∀ c ∈ before, Text.isBlank c = true) → Numeral cs negative v →
      (∀ c ∈ after, Text.isBlank c = true) → Binary64.Rounds negative v x →
      Side (before ++ cs ++ after) x

/-- **The text of a coordinate**: one comma with a number on each side, latitude first. -/
inductive Spelled : List Char → Coordinate → Prop
  | mk {left right : List Char} {lat lng : Binary64} : ',' ∉ left → ',' ∉ right → Side left lat →
      Side right lng → Spelled (left ++ ',' :: right) ⟨lat, lng⟩

/-! ## Reading follows the grammar -/

/-- A side is read if its number is finite. -/
theorem readNumber_eq_some_iff {cs : List Char} {x : Binary64} :
    readNumber cs = some x ↔ Side cs x ∧ x.isFinite = true := by
  rw [readNumber, Option.filter_eq_some_iff]
  constructor
  · rintro ⟨hparse, hx⟩
    obtain ⟨negative, v, hnumeral, hround⟩ := (Binary64.parse_eq_some_iff hx).mp hparse
    obtain ⟨before, after, hbefore, hafter, hcs⟩ := Text.exists_padding cs
    rw [String.toList_ofList] at hnumeral
    rw [hcs]
    exact ⟨.mk hbefore hnumeral hafter hround, hx⟩
  · rintro ⟨⟨hbefore, hnumeral, hafter, hround⟩, hx⟩
    have hcore := fun c hc => Numeral.isBlank_of_isCharacter (hnumeral.characters c hc)
    rw [Text.trimChars_padded hbefore hcore hafter]
    refine ⟨(Binary64.parse_eq_some_iff hx).mpr ⟨_, _, ?_, hround⟩, hx⟩
    rwa [String.toList_ofList]

theorem parse_eq_ok_iff {s : String} {c : Coordinate} : parse s = .ok c ↔
    Spelled s.toList c ∧ c.lat.isFinite = true ∧ c.lng.isFinite = true := by
  constructor
  · intro h
    unfold parse at h
    split at h
    · rename_i left right hparts
      obtain ⟨hs, hleft, hright⟩ := Text.parts_eq_pair_iff.mp hparts
      split at h
      · rename_i lat lng hlat hlng
        cases h
        obtain ⟨hlat, hlat'⟩ := readNumber_eq_some_iff.mp hlat
        obtain ⟨hlng, hlng'⟩ := readNumber_eq_some_iff.mp hlng
        rw [hs]
        exact ⟨.mk hleft hright hlat hlng, hlat', hlng'⟩
      · cases h
    · cases h
  · rintro ⟨hspelled, hlat, hlng⟩
    generalize hs : s.toList = cs at hspelled
    cases hspelled with
    | @mk left right lat lng hleft hright hsideLat hsideLng =>
        have hparts : Text.parts ',' s.toList = [left, right] :=
          Text.parts_eq_pair_iff.mpr ⟨hs, hleft, hright⟩
        have hreadLat := readNumber_eq_some_iff.mpr ⟨hsideLat, hlat⟩
        have hreadLng := readNumber_eq_some_iff.mpr ⟨hsideLng, hlng⟩
        unfold parse
        rw [hparts]
        dsimp only
        rw [hreadLat, hreadLng]

example : Spelled " 1.5 ,-2e0".toList ⟨.ofRatio false 3 2, .ofInt (-2)⟩ :=
  (parse_eq_ok_iff (s := " 1.5 ,-2e0").mp (by decide +kernel)).1

/-- **The reader of coordinates accepts exactly its grammar.** A text is read as a coordinate if and
only if it is spelled so and both its numbers are finite; every other text is refused, with an error
that carries the text itself. -/
theorem parse_iff_spelled (s : String) :
    (∀ c, parse s = .ok c ↔
      Spelled s.toList c ∧ c.lat.isFinite = true ∧ c.lng.isFinite = true) ∧
    (parse s = .error (.malformedOrigin s) ↔
      ¬ ∃ c, Spelled s.toList c ∧ c.lat.isFinite = true ∧ c.lng.isFinite = true) := by
  refine ⟨fun c => parse_eq_ok_iff, ?_⟩
  cases h : parse s with
  | ok c =>
      refine ⟨fun herror => (by cases herror), fun hnone => ?_⟩
      exact absurd ⟨c, parse_eq_ok_iff.mp h⟩ hnone
  | error e =>
      rw [eq_of_parse_error h]
      refine ⟨fun _ => ?_, fun _ => rfl⟩
      rintro ⟨c, hspelled⟩
      rw [parse_eq_ok_iff.mpr hspelled] at h
      cases h

end Coordinate

end PointQuery
