import PointQuery.Proofs.Coordinate.Reading
import PointQuery.Proofs.Number.Shortest
import PointQuery.Spatial.Distance
/-!
# The texts of a coordinate

A coordinate with finite numbers survives each form in which it is sent: its text is read back as
it, and the values bound for it, a well-known text on MySQL and two floats on PostgreSQL, denote it
and no other point. This needs that the separators of the texts never occur in a number.
-/

namespace PointQuery

namespace Coordinate

variable {x : Binary64} {c : Coordinate}

/-! ## Written numbers -/

/-- What is no character of numerals does not occur in a written number. -/
theorem not_mem_toPlain (hx : x.isFinite = true) {ch : Char} (h : Numeral.isCharacter ch = false) :
    ch ∉ x.toPlain.toList := by
  obtain ⟨negative, v, hnumeral, -⟩ := Binary64.exists_numeral_toPlain hx
  intro hmem
  rw [hnumeral.characters ch hmem] at h
  cases h

/-- A written number is a side of a coordinate's text. -/
theorem side_toPlain (hx : x.isFinite = true) : Side x.toPlain.toList x := by
  obtain ⟨negative, v, hnumeral, hround⟩ := Binary64.exists_numeral_toPlain hx
  simpa using Side.mk (List.forall_mem_nil _) hnumeral (List.forall_mem_nil _) hround

/-! ## The text -/

theorem spelled_render (hlat : c.lat.isFinite = true) (hlng : c.lng.isFinite = true) :
    Spelled c.render.toList c := by
  have hcomma : Numeral.isCharacter ',' = false := by decide
  have htext : c.render.toList = c.lat.toPlain.toList ++ ',' :: c.lng.toPlain.toList := by
    simp [render]
  rw [htext]
  exact .mk (not_mem_toPlain hlat hcomma) (not_mem_toPlain hlng hcomma) (side_toPlain hlat)
    (side_toPlain hlng)

/-- The text of a coordinate is read back as it. -/
theorem parse_render (hlat : c.lat.isFinite = true) (hlng : c.lng.isFinite = true) :
    parse c.render = .ok c :=
  parse_eq_ok_iff.mpr ⟨spelled_render hlat hlng, hlat, hlng⟩

/-! ## The bound values -/

/-- **The point that the values bound for it denote**: the two numbers of a well-known text, which
stand on either side of its space, or two floats; latitude first. -/
inductive Denotes : List Sql.Value → Coordinate → Prop
  | text {a b : String} {lat lng : Binary64} : ' ' ∉ a.toList → ' ' ∉ b.toList →
      Binary64.parse a = some lat → Binary64.parse b = some lng →
      Denotes [.text ("POINT(" ++ a ++ " " ++ b ++ ")")] ⟨lat, lng⟩
  | floats (lat lng : Binary64) : Denotes [.float lat, .float lng] ⟨lat, lng⟩

/-- A well-known text can be taken apart in one way. -/
theorem eq_of_pointText_eq {a b a' b' : String} (ha : ' ' ∉ a.toList) (hb : ' ' ∉ b.toList)
    (ha' : ' ' ∉ a'.toList) (hb' : ' ' ∉ b'.toList)
    (h : "POINT(" ++ a ++ " " ++ b ++ ")" = "POINT(" ++ a' ++ " " ++ b' ++ ")") :
    a = a' ∧ b = b' := by
  have hinner : (a.toList ++ ' ' :: b.toList) ++ [')'] =
      (a'.toList ++ ' ' :: b'.toList) ++ [')'] := by
    simpa using congrArg String.toList h
  have hchars := List.append_cancel_right hinner
  have hparts := Text.parts_eq_pair_iff.mpr ⟨rfl, ha, hb⟩
  rw [hchars, Text.parts_eq_pair_iff.mpr ⟨rfl, ha', hb'⟩] at hparts
  simp only [List.cons.injEq, and_true] at hparts
  exact ⟨(String.toList_inj.mp hparts.1).symm, (String.toList_inj.mp hparts.2).symm⟩

/-- What is bound for a coordinate denotes it, in each dialect, and no other point. -/
theorem denotes_point_iff (hlat : c.lat.isFinite = true) (hlng : c.lng.isFinite = true)
    (d : Dialect) (p : Coordinate) : Denotes (d.point c).params p ↔ p = c := by
  have hspace : Numeral.isCharacter ' ' = false := by decide
  have hlatSpace := not_mem_toPlain hlat hspace
  have hlngSpace := not_mem_toPlain hlng hspace
  cases d with
  | mysql =>
      constructor
      · intro h
        generalize hvalues : (Dialect.mysql.point c).params = values at h
        cases h with
        | @text a b lat lng ha hb hreadLat hreadLng =>
            simp only [Dialect.point, List.cons.injEq, Sql.Value.text.injEq, and_true] at hvalues
            obtain ⟨rfl, rfl⟩ := eq_of_pointText_eq hlatSpace hlngSpace ha hb hvalues
            rw [Binary64.parse_toPlain hlat] at hreadLat
            rw [Binary64.parse_toPlain hlng] at hreadLng
            cases hreadLat
            cases hreadLng
            rfl
        | floats lat lng => cases hvalues
      · rintro rfl
        exact .text hlatSpace hlngSpace (Binary64.parse_toPlain hlat) (Binary64.parse_toPlain hlng)
  | postgresql =>
      constructor
      · intro h
        generalize hvalues : (Dialect.postgresql.point c).params = values at h
        cases h with
        | text ha hb hreadLat hreadLng => cases hvalues
        | floats lat lng =>
            cases hvalues
            rfl
      · rintro rfl
        exact .floats p.lat p.lng

/-! ## All forms -/

/-- **A coordinate survives every form in which it is sent.** Its text is read back as it. Its
well-known text is `POINT(`, two numbers with the only space between them, and `)`, and the numbers
are read back as latitude and longitude. What is bound for it denotes it in both dialects, and
denotes no other point. -/
theorem forms_roundTrip (c : Coordinate) (hlat : c.lat.isFinite = true)
    (hlng : c.lng.isFinite = true) :
    parse c.render = .ok c ∧
    (∃ a b : String, c.wellKnownText = "POINT(" ++ a ++ " " ++ b ++ ")" ∧
      c.wellKnownText.toList.count ' ' = 1 ∧
      Binary64.parse a = some c.lat ∧ Binary64.parse b = some c.lng) ∧
    ∀ (d : Dialect) (p : Coordinate), Denotes (d.point c).params p ↔ p = c := by
  have hspace : Numeral.isCharacter ' ' = false := by decide
  refine ⟨parse_render hlat hlng, ?_, denotes_point_iff hlat hlng⟩
  refine ⟨c.lat.toPlain, c.lng.toPlain, rfl, ?_, Binary64.parse_toPlain hlat,
    Binary64.parse_toPlain hlng⟩
  have hlatCount := List.count_eq_zero.mpr (not_mem_toPlain hlat hspace)
  have hlngCount := List.count_eq_zero.mpr (not_mem_toPlain hlng hspace)
  simp [wellKnownText, List.count_append, hlatCount, hlngCount]

/-- A latitude of minus zero, and the smallest positive longitude. -/
def nullIsland : Coordinate := ⟨.finite true .zero, .ofBits 1⟩

theorem nullIsland_forms_roundTrip :
    nullIsland.lat.isFinite = true ∧ nullIsland.lng.isFinite = true ∧
      parse nullIsland.render = .ok nullIsland ∧
      (∃ a b : String, nullIsland.wellKnownText = "POINT(" ++ a ++ " " ++ b ++ ")" ∧
        nullIsland.wellKnownText.toList.count ' ' = 1 ∧
        Binary64.parse a = some nullIsland.lat ∧ Binary64.parse b = some nullIsland.lng) ∧
      ∀ (d : Dialect) (p : Coordinate),
        Denotes (d.point nullIsland).params p ↔ p = nullIsland :=
  have hlng : nullIsland.lng.isFinite = true := by decide +kernel
  ⟨rfl, hlng, forms_roundTrip nullIsland rfl hlng⟩

end Coordinate

end PointQuery
