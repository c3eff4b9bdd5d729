import PointQuery.Sql.Placeholder
/-!
# Scanning for placeholders

How the quote scan runs over joined texts. A text is inert if a scan that enters it outside quotes
leaves it outside quotes and meets no placeholder on the way; such a text can stand anywhere between
fragments without shifting a placeholder. The placeholders of a text divide it into pieces, and
`replacePlaceholders_eq_weave` says that rendering them is weaving them between these.
-/

namespace PointQuery.Sql

/-! ## The state of a scan -/

theorem QuoteState.after_append (state : QuoteState) (as bs : List Char) :
    state.after (as ++ bs) = (state.after as).after bs := by
  rw [QuoteState.after, List.foldl_append]
  rfl

/-- The placeholders that a scan meets from a state on. -/
def QuoteState.placeholders : QuoteState → List Char → Nat
  | _, [] => 0
  | state, c :: cs => (if state = none ∧ c = '?' then 1 else 0) + (state.next c).placeholders cs

theorem QuoteState.placeholders_append (state : QuoteState) (as bs : List Char) :
    state.placeholders (as ++ bs) = state.placeholders as + (state.after as).placeholders bs := by
  induction as generalizing state with
  | nil => simp [placeholders, after]
  | cons c cs ih =>
      rw [List.cons_append, placeholders, placeholders, ih, Nat.add_assoc]
      rfl

/-- Rendering a joined text is rendering its parts: the second goes on in the state and with the
number in which the first ends. -/
theorem replacePlaceholders_append (write : Nat → List Char) (state : QuoteState) (count : Nat)
    (as bs : List Char) :
    replacePlaceholders write state count (as ++ bs) =
      replacePlaceholders write state count as ++
        replacePlaceholders write (state.after as) (count + state.placeholders as) bs := by
  induction as generalizing state count with
  | nil => simp [replacePlaceholders, QuoteState.after, QuoteState.placeholders]
  | cons c cs ih =>
      simp only [List.cons_append, replacePlaceholders, QuoteState.placeholders]
      by_cases h : state = none ∧ c = '?'
      · obtain ⟨rfl, rfl⟩ := h
        rw [if_pos ⟨rfl, rfl⟩, if_pos ⟨rfl, rfl⟩, if_pos ⟨rfl, rfl⟩, ih, List.append_assoc,
          Nat.add_assoc]
        rfl
      · rw [if_neg h, if_neg h, if_neg h, ih, Nat.zero_add]
        rfl

/-- A text in which the scan meets no placeholder stays as it is. -/
theorem replacePlaceholders_of_no_placeholders (write : Nat → List Char) {state : QuoteState}
    (count : Nat) {cs : List Char} (h : state.placeholders cs = 0) :
    replacePlaceholders write state count cs = cs := by
  induction cs generalizing state with
  | nil => rfl
  | cons c cs ih =>
      rw [QuoteState.placeholders] at h
      have hc : ¬ (state = none ∧ c = '?') := by
        intro hc
        rw [if_pos hc] at h
        omega
      rw [if_neg hc, Nat.zero_add] at h
      rw [replacePlaceholders, if_neg hc, ih h]

/-! ## Closed and inert texts -/

/-- A scan that enters the text outside quotes leaves it outside quotes. -/
def Closed (cs : List Char) : Prop := QuoteState.after none cs = none

/-- The placeholders of a text that is entered outside quotes. -/
def placeholderCount (cs : List Char) : Nat := QuoteState.placeholders none cs

/-- A closed text without placeholders. -/
def Inert (cs : List Char) : Prop := Closed cs ∧ placeholderCount cs = 0

instance (cs : List Char) : Decidable (Closed cs) :=
  inferInstanceAs (Decidable (QuoteState.after none cs = none))

instance (cs : List Char) : Decidable (Inert cs) :=
  inferInstanceAs (Decidable (Closed cs ∧ placeholderCount cs = 0))

theorem Closed.append {as bs : List Char} (ha : Closed as) (hb : Closed bs) :
    Closed (as ++ bs) := by
  rw [Closed, QuoteState.after_append, ha, hb]

theorem Closed.count_append {as : List Char} (ha : Closed as) (bs : List Char) :
    placeholderCount (as ++ bs) = placeholderCount as + placeholderCount bs := by
  rw [placeholderCount, QuoteState.placeholders_append, ha]
  rfl

theorem Inert.nil : Inert [] := ⟨rfl, rfl⟩

theorem Inert.append {as bs : List Char} (ha : Inert as) (hb : Inert bs) : Inert (as ++ bs) := by
  refine ⟨ha.1.append hb.1, ?_⟩
  rw [ha.1.count_append, ha.2, hb.2]

theorem inert_append {s t : String} (hs : Inert s.toList) (ht : Inert t.toList) :
    Inert (s ++ t).toList := by
  rw [String.toList_append]
  exact hs.append ht

/-- A character that neither opens a quote nor is a placeholder. -/
def isPlain (c : Char) : Bool := !isQuote c && c != '?'

theorem QuoteState.next_plain {c : Char} (h : isPlain c) : QuoteState.next none c = none := by
  simp only [isPlain, Bool.and_eq_true, Bool.not_eq_true'] at h
  simp [next, h.1]

/-- Plain characters leave the scan where it is. -/
theorem inert_of_plain {cs : List Char} (h : ∀ c ∈ cs, isPlain c) : Inert cs := by
  induction cs with
  | nil => exact Inert.nil
  | cons c cs ih =>
      have hc : isPlain c := h c (by simp)
      have hne : c ≠ '?' := by
        rintro rfl
        exact absurd hc (by decide)
      obtain ⟨ha, hp⟩ := ih (fun d hd => h d (by simp [hd]))
      constructor
      · rw [Closed, QuoteState.after, List.foldl_cons, QuoteState.next_plain hc]
        exact ha
      · rw [placeholderCount, QuoteState.placeholders, QuoteState.next_plain hc]
        simp only [hne, and_false, if_false, Nat.zero_add]
        exact hp

/-- A class of characters without quotes and the question mark has plain characters only. -/
theorem isPlain_of_class {p : Char → Bool} (hp : ['\'', '"', '\x60', '?'].any p = false)
    {c : Char} (h : p c) : isPlain c := by
  have hne : ∀ q ∈ ['\'', '"', '\x60', '?'], c ≠ q := by
    rintro q hq rfl
    exact List.any_eq_false.mp hp c hq h
  simp [isPlain, isQuote, hne]

/-- A number in decimal digits is inert. -/
theorem inert_toString (n : Nat) : Inert (toString n).toList := by
  apply inert_of_plain
  intro c hc
  have hc' : c ∈ (Nat.repr n).toList := hc
  rw [Nat.toList_repr] at hc'
  exact isPlain_of_class (p := Char.isDigit) (by decide)
    (Nat.isDigit_of_mem_toDigits (by decide) (by decide) hc')

/-! ## Pieces between placeholders -/

/-- The stretches of a text before, between and after its placeholders. -/
def pieces : QuoteState → List Char → List (List Char)
  | _, [] => [[]]
  | state, c :: cs =>
    if state = none ∧ c = '?' then [] :: pieces none cs
    else (pieces (state.next c) cs).modifyHead (c :: ·)

/-- Pieces with placeholders between them, numbered on from a count. -/
def weave (write : Nat → List Char) : Nat → List (List Char) → List Char
  | _, [] => []
  | _, [piece] => piece
  | count, piece :: next :: rest =>
    piece ++ write (count + 1) ++ weave write (count + 1) (next :: rest)

theorem length_pieces (state : QuoteState) (cs : List Char) :
    (pieces state cs).length = state.placeholders cs + 1 := by
  induction cs generalizing state with
  | nil => rfl
  | cons c cs ih =>
      rw [pieces, QuoteState.placeholders]
      split
      · rename_i h
        obtain ⟨rfl, rfl⟩ := h
        rw [List.length_cons, ih, Nat.add_comm 1]
        rfl
      · rw [List.length_modifyHead, ih, Nat.zero_add]

theorem pieces_ne_nil (state : QuoteState) (cs : List Char) : pieces state cs ≠ [] := by
  intro h
  have hl := length_pieces state cs
  rw [h, List.length_nil] at hl
  omega

theorem weave_modifyHead (write : Nat → List Char) (count : Nat) (c : Char)
    {ps : List (List Char)} (h : ps ≠ []) :
    weave write count (ps.modifyHead (c :: ·)) = c :: weave write count ps := by
  match ps, h with
  | [p], _ => rfl
  | p :: q :: rest, _ => rfl

/-- Rendering placeholders is weaving them between the pieces. -/
theorem replacePlaceholders_eq_weave (write : Nat → List Char) (state : QuoteState) (count : Nat)
    (cs : List Char) :
    replacePlaceholders write state count cs = weave write count (pieces state cs) := by
  induction cs generalizing state count with
  | nil => rfl
  | cons c cs ih =>
      rw [replacePlaceholders, pieces]
      split
      · rw [ih]
        obtain ⟨p, ps, hp⟩ := List.exists_cons_of_ne_nil (pieces_ne_nil none cs)
        rw [hp]
        rfl
      · rw [ih, weave_modifyHead write count c (pieces_ne_nil _ _)]

/-- Writing each placeholder as it stands changes nothing. -/
theorem replacePlaceholders_id (state : QuoteState) (count : Nat) (cs : List Char) :
    replacePlaceholders (fun _ => ['?']) state count cs = cs := by
  induction cs generalizing state count with
  | nil => rfl
  | cons c cs ih =>
      rw [replacePlaceholders]
      split
      · rename_i h
        rw [ih, h.2]
        rfl
      · rw [ih]

/-- The pieces of a text that ends outside quotes are inert, but for the first if it is entered
inside a quote. -/
theorem pieces_inert {state : QuoteState} {cs : List Char} (h : state.after cs = none) :
    ∃ p ps, pieces state cs = p :: ps ∧ state.after p = none ∧ state.placeholders p = 0 ∧
      ∀ q ∈ ps, Inert q := by
  induction cs generalizing state with
  | nil => exact ⟨[], [], rfl, h, rfl, by simp⟩
  | cons c cs ih =>
      rw [QuoteState.after, List.foldl_cons] at h
      obtain ⟨p, ps, hps, ha, hp, hi⟩ := ih h
      rw [pieces]
      split
      · rename_i hs
        obtain ⟨rfl, rfl⟩ := hs
        refine ⟨[], pieces none cs, rfl, rfl, rfl, ?_⟩
        intro q hq
        rw [show pieces none cs = p :: ps from hps] at hq
        rcases List.mem_cons.mp hq with rfl | hq
        · exact ⟨ha, hp⟩
        · exact hi q hq
      · rename_i hs
        refine ⟨c :: p, ps, by rw [hps]; rfl, ha, ?_, hi⟩
        rw [QuoteState.placeholders, if_neg hs, hp]

theorem inert_of_mem_pieces {cs : List Char} (h : Closed cs) {p : List Char}
    (hp : p ∈ pieces none cs) : Inert p := by
  obtain ⟨q, qs, hqs, ha, hc, hi⟩ := pieces_inert h
  rw [hqs] at hp
  rcases List.mem_cons.mp hp with rfl | hp
  · exact ⟨ha, hc⟩
  · exact hi p hp

end PointQuery.Sql
