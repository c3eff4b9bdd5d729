import PointQuery.Proofs.Search.Outcome
/-!
# Searches in sequence

Any number of searches that succeed, one after another. What one search keeps, all of them keep.
-/

namespace PointQuery.Compiler

/-- The second compiler is the first after any number of searches, each of which succeeded. -/
inductive Searched (c : Compiler) : Compiler → Prop where
  | refl : Searched c c
  | search {c' c'' : Compiler} (s : Search) :
      Searched c c' → (Compiler.search s).run c' = .ok () c'' → Searched c c''
  | searchNear {c' c'' : Compiler} (origin column : String) (radius : Binary64)
      (unit : DistanceUnit) :
      Searched c c' → (Compiler.searchNear origin column radius unit).run c' = .ok () c'' →
        Searched c c''

/-- A valid search can follow any sequence of searches. -/
theorem Searched.search_valid {c c' : Compiler} {s : Search} {d : Dialect} (h : c.Searched c')
    (hd : c'.dialect = .ok d) (ha : Attribute.isAttribute s.column.toList) :
    c.Searched (restrict s d c'.fillSource) :=
  h.search s (by rw [search_run, checkSearch_ok hd ha])

/-- What a valid search keeps, a sequence of searches keeps. -/
theorem Searched.preserves {P : Compiler → Prop} {c c' : Compiler} (h : Searched c c')
    (step : ∀ (c : Compiler) (s : Search) (d : Dialect), c.dialect = .ok d →
      Attribute.isAttribute s.column.toList → P c → P (restrict s d c.fillSource))
    (hc : P c) : P c' := by
  have valid : ∀ {c c' : Compiler} {s : Search}, (Compiler.search s).run c = .ok () c' →
      P c → P c' := by
    intro c c' s hrun hc
    obtain ⟨d, hd, ha, rfl⟩ := search_ok hrun
    exact step c s d hd ha hc
  induction h with
  | refl => exact hc
  | search s _ hrun ih => exact valid hrun ih
  | searchNear origin column radius unit _ hrun ih =>
      rcases searchNear_ok hrun with rfl | ⟨o, hrun⟩
      · exact ih
      · exact valid hrun ih

/-- A search takes effect: it succeeds, and its origin can be read, so that it is not left out. -/
inductive TakesEffect (c c' : Compiler) : Prop where
  | search (s : Search) : (Compiler.search s).run c = .ok () c' → TakesEffect c c'
  | searchNear (origin column : String) (radius : Binary64) (unit : DistanceUnit) {o : Coordinate} :
      Coordinate.parse origin = .ok o →
        (Compiler.searchNear origin column radius unit).run c = .ok () c' → TakesEffect c c'

/-- A search that takes effect is a valid one, whichever way its origin is given. -/
theorem TakesEffect.exists_restrict {c c' : Compiler} (h : c.TakesEffect c') :
    ∃ (s : Search) (d : Dialect), c.dialect = .ok d ∧ c' = restrict s d c.fillSource := by
  have valid : ∀ s : Search, (Compiler.search s).run c = .ok () c' →
      ∃ (s : Search) (d : Dialect), c.dialect = .ok d ∧ c' = restrict s d c.fillSource := by
    intro s hrun
    obtain ⟨d, hd, -, hc'⟩ := search_ok hrun
    exact ⟨s, d, hd, hc'⟩
  cases h with
  | search s hrun => exact valid s hrun
  | searchNear origin column radius unit hparse hrun =>
      rw [searchNear_run, hparse] at hrun
      exact valid _ hrun

/-- Searches change nothing but the query. -/
theorem Searched.frame {c c' : Compiler} (h : Searched c c') :
    c' = { c with query := c'.query } :=
  h.preserves (P := fun x => x = { c with query := x.query })
    (fun _ s d _ _ hx => by rw [hx]; rfl) rfl

end PointQuery.Compiler
