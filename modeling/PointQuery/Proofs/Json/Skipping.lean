import PointQuery.Proofs.Json.Grammar
/-!
# Skipping values

A value that is not looked at is skipped to its end, whatever its shape and depth: `skip_value`. The
skipper keeps the open brackets in a list, so what it does with one part of a text is stated for any
brackets around it (`Skipped`), and the constructors of the grammar put the parts together.
-/

namespace PointQuery.Json

variable {ws cs rest : List Char} {c : Char}

/-! ## What follows a value -/

/-- What may follow a value: the end, a blank, a comma or a bracket that closes. -/
def Follows (rest : List Char) : Prop :=
  ∀ c ∈ rest.head?, isBlank c = true ∨ c = ',' ∨ c = ']' ∨ c = '\x7d'

theorem follows_cons (hc : c = ',' ∨ c = ']' ∨ c = '\x7d') (cs : List Char) :
    Follows (c :: cs) := by
  intro d hd
  cases hd
  exact .inr hc

theorem follows_blanks (h : Blanks ws) (hrest : Follows rest) : Follows (ws ++ rest) := by
  cases ws with
  | nil => exact hrest
  | cons c ws =>
      intro d hd
      cases hd
      exact .inl (h.isBlank c List.mem_cons_self)

/-- What follows a value is not taken for more of a number. -/
theorem Follows.ne (h : Follows rest) (hc : rest.head? = some c) :
    c.isDigit = false ∧ c ≠ '.' ∧ ¬ (c = 'e' ∨ c = 'E') := by
  rcases h c hc with hblank | rfl | rfl | rfl
  · simp only [isBlank, Bool.or_eq_true, decide_eq_true_eq] at hblank
    rcases hblank with ((rfl | rfl) | rfl) | rfl <;> decide
  · decide
  · decide
  · decide

/-! ## Numbers -/

section Numbers

variable {ds fs es : List Char} {d : Char} {e : Int}

theorem skipExponent_append (h : Numeral.Exponent es e) (hrest : Follows rest) :
    skipExponent (es ++ rest) = .ok rest := by
  have hstops : Numeral.Stops rest := by
    rintro c cs rfl
    exact (hrest.ne rfl).1
  cases h with
  | absent =>
      cases rest with
      | nil => rfl
      | cons c rest => exact if_neg (hrest.ne rfl).2.2
  | @present c sign ds negative hc hsign hds hne =>
      obtain ⟨d, ds, rfl⟩ := List.exists_cons_of_ne_nil hne
      have hd : d.isDigit = true := hds d List.mem_cons_self
      have hdrop : (ds ++ rest).dropWhile Char.isDigit = rest :=
        Numeral.dropWhile_append (fun c hc => hds c (List.mem_cons_of_mem d hc)) hstops
      have hplain : ¬ (d = '+' ∨ d = '-') := by
        rintro (rfl | rfl) <;> cases hd
      cases hsign with
      | absent => simp [skipExponent, hc, hplain, hd, hdrop]
      | plus => simp [skipExponent, hc, hd, hdrop]
      | minus => simp [skipExponent, hc, hd, hdrop]

/-- Neither an exponent nor what follows a value goes on with a digit or a point. -/
theorem stops_exponent (h : Numeral.Exponent es e) (hrest : Follows rest) :
    ∀ c ∈ (es ++ rest).head?, c.isDigit = false ∧ c ≠ '.' := by
  intro c hc
  cases es with
  | nil => exact ⟨(hrest.ne hc).1, (hrest.ne hc).2.1⟩
  | cons d es =>
      cases hc
      rcases h.head rfl with rfl | rfl <;> decide

theorem skipFraction_append (hfs : Fraction fs) (hes : Numeral.Exponent es e)
    (hrest : Follows rest) : skipFraction (fs ++ (es ++ rest)) = .ok rest := by
  have hexponent := skipExponent_append hes hrest
  have hstops := stops_exponent hes hrest
  cases hfs with
  | absent =>
      rw [List.nil_append]
      generalize es ++ rest = cs at *
      unfold skipFraction
      split
      · exact absurd rfl (hstops '.' rfl).2
      · exact absurd rfl (hstops '.' rfl).2
      · exact hexponent
  | @present d ds hds =>
      have hd : d.isDigit = true := hds d List.mem_cons_self
      have hdrop : (ds ++ (es ++ rest)).dropWhile Char.isDigit = es ++ rest :=
        Numeral.dropWhile_append (fun c hc => hds c (List.mem_cons_of_mem d hc))
          fun c cs h => (hstops c (by rw [h]; rfl)).1
      show (if d.isDigit then skipExponent ((ds ++ (es ++ rest)).dropWhile Char.isDigit)
        else .error .malformed) = _
      rw [if_pos hd, hdrop, hexponent]

/-- A number is skipped to its end. -/
theorem skipNumber_append (h : Unsigned ds) (hrest : Follows rest) :
    skipNumber (ds ++ rest) = .ok rest := by
  cases h with
  | @mk ws fs es e hws hfs hes =>
      have hfraction := skipFraction_append hfs hes hrest
      have hstops : ∀ c ∈ (fs ++ (es ++ rest)).head?, c.isDigit = false := by
        cases hfs with
        | absent => exact fun c hc => (stops_exponent hes hrest c hc).1
        | present =>
            intro c hc
            cases hc
            rfl
      rw [List.append_assoc, List.append_assoc]
      generalize fs ++ (es ++ rest) = cs at *
      cases hws with
      | zero =>
          cases cs with
          | nil => exact hfraction
          | cons c cs =>
              have hc : ¬ c.isDigit = true := Bool.eq_false_iff.mp (hstops c rfl)
              exact (if_neg hc).trans hfraction
      | @digits d ds hds hzero =>
          have hd : d.isDigit = true := hds d List.mem_cons_self
          have hdrop : (ds ++ cs).dropWhile Char.isDigit = cs :=
            Numeral.dropWhile_append (fun c hc => hds c (List.mem_cons_of_mem d hc))
              fun c rest h => hstops c (by rw [h]; rfl)
          simp [skipNumber, hzero, hd, hdrop, hfraction]

end Numbers

/-! ## Values -/

section Skipping

variable {opened : List Bracket} {fuel : Nat} {text : List Char} {part : Part}

/-- A digit is not among characters that are none. -/
theorem not_mem_of_isDigit {d : Char} (hd : d.isDigit = true) (h : cs.any Char.isDigit = false) :
    d ∉ cs := fun hmem => List.any_eq_false.mp h d hmem hd

theorem Unsigned.starts {ds : List Char} (h : Unsigned ds) :
    ∃ d ds', ds = d :: ds' ∧ d.isDigit = true := by
  obtain ⟨hws, -, -⟩ := h
  cases hws with
  | zero => exact ⟨'0', _, rfl, rfl⟩
  | @digits d ds hds hzero => exact ⟨d, _, rfl, hds d List.mem_cons_self⟩

/-- A scalar starts with something that is no blank and no bracket. -/
theorem Scalar.starts (h : Scalar text) : ∃ c cs, text = c :: cs ∧ isBlank c = false ∧
    c ∉ ['[', ']', '\x7b', '\x7d'] := by
  cases h with
  | null => exact ⟨'n', _, rfl, by decide⟩
  | bool b =>
      cases b with
      | true => exact ⟨'t', _, rfl, by decide⟩
      | false => exact ⟨'f', _, rfl, by decide⟩
  | number hds =>
      obtain ⟨d, ds, rfl, hd⟩ := hds.starts
      have hblank : d ∉ [' ', '\n', '\t', '\r'] := not_mem_of_isDigit hd (by decide)
      exact ⟨d, ds, rfl, by simpa [isBlank, and_assoc] using hblank,
        not_mem_of_isDigit hd (by decide)⟩
  | minus => exact ⟨'-', _, rfl, by decide⟩
  | string => exact ⟨'"', _, rfl, by decide⟩

/-- A part starts with something other than a closing bracket. -/
theorem Derives.starts (h : Derives part text) : ∃ ws c cs, Blanks ws ∧ text = ws ++ c :: cs ∧
    isBlank c = false ∧ c ≠ ']' ∧ c ≠ '\x7d' := by
  induction h with
  | scalar h =>
      obtain ⟨c, cs, rfl, hc, hbracket⟩ := h.starts
      simp only [List.mem_cons, List.not_mem_nil, or_false, not_or] at hbracket
      exact ⟨[], c, cs, .nil, rfl, hc, hbracket.2.1, hbracket.2.2.2⟩
  | emptyList => exact ⟨[], '[', _, .nil, rfl, by decide⟩
  | list => exact ⟨[], '[', _, .nil, rfl, by decide⟩
  | emptyObject => exact ⟨[], '\x7b', _, .nil, rfl, by decide⟩
  | object => exact ⟨[], '\x7b', _, .nil, rfl, by decide⟩
  | @item ws value ws' hws _ _ ih =>
      obtain ⟨us, c, cs, hus, rfl, hc⟩ := ih
      exact ⟨ws ++ us, c, cs ++ ws', hws.append hus, by simp, hc⟩
  | @items is js _ _ ih =>
      obtain ⟨ws, c, cs, hws, rfl, hc⟩ := ih
      exact ⟨ws, c, cs ++ ',' :: js, hws, by simp, hc⟩
  | member hws => exact ⟨_, '"', _, hws, rfl, by decide⟩
  | @members ms ns _ _ ih =>
      obtain ⟨ws, c, cs, hws, rfl, hc⟩ := ih
      exact ⟨ws, c, cs ++ ',' :: ns, hws, by simp, hc⟩

theorem skipOpen_blanks (h : Blanks ws) (fuel : Nat) (opened : List Bracket) (cs : List Char) :
    skipOpen fuel opened (ws ++ cs) = skipOpen fuel opened cs := by
  cases fuel with
  | zero => rfl
  | succ fuel => rw [skipOpen, skipOpen, h.skip]

theorem skipKey_blanks (h : Blanks ws) (fuel : Nat) (opened : List Bracket) (cs : List Char) :
    skipKey fuel opened (ws ++ cs) = skipKey fuel opened cs := by
  cases fuel with
  | zero => rfl
  | succ fuel => rw [skipKey, skipKey, h.skip]

/-- Inside a bracket blanks after a value are skipped. -/
theorem skipClose_blanks (h : Blanks ws) (fuel : Nat) (b : Bracket) (opened : List Bracket)
    (cs : List Char) :
    skipClose fuel (b :: opened) (ws ++ cs) = skipClose fuel (b :: opened) cs := by
  cases fuel with
  | zero => rfl
  | succ fuel =>
      cases b with
      | list => rw [skipClose, skipClose, h.skip]
      | object => rw [skipClose, skipClose, h.skip]

theorem skipScalar_append (h : Scalar text) (hrest : Follows rest) :
    skipScalar (text ++ rest) = .ok rest := by
  cases h with
  | null => rfl
  | bool b =>
      cases b with
      | true => rfl
      | false => rfl
  | number hds =>
      have hskip := skipNumber_append hds hrest
      obtain ⟨d, ds, rfl, hd⟩ := hds.starts
      have hwords : d ∉ ['n', 't', 'f', '-'] := not_mem_of_isDigit hd (by decide)
      simp only [List.mem_cons, List.not_mem_nil, or_false, not_or] at hwords
      simpa [skipScalar, hwords, hd] using hskip
  | minus hds => exact skipNumber_append hds hrest
  | @string body hbody =>
      have htext : '"' :: (body ++ ['"']) ++ rest = '"' :: (body ++ '"' :: rest) := by simp
      rw [htext]
      exact skipString_characters hbody rest

theorem skipOpen_scalar (h : Scalar text) (hrest : Follows rest) :
    skipOpen (fuel + 1) opened (text ++ rest) = skipClose fuel opened rest := by
  have hscalar := skipScalar_append h hrest
  obtain ⟨c, cs, rfl, hc, hbracket⟩ := h.starts
  simp only [List.mem_cons, List.not_mem_nil, or_false, not_or] at hbracket
  rw [List.cons_append] at hscalar
  rw [List.cons_append, skipOpen, skipBlanks_cons hc]
  split
  · rename_i heq
    exact absurd (List.cons.inj heq).1 hbracket.1
  · rename_i heq
    exact absurd (List.cons.inj heq).1 hbracket.2.2.1
  · rw [hscalar]

/-- A key, its colon and the blanks around them are skipped in one step. -/
theorem skipKey_member {key afterKey : List Char} (hkey : Characters key)
    (hafter : Blanks afterKey) (cs : List Char) :
    skipKey (fuel + 1) opened ('"' :: (key ++ '"' :: (afterKey ++ ':' :: cs))) =
      skipOpen fuel opened cs := by
  have hcolon : skipBlanks (afterKey ++ ':' :: cs) = ':' :: cs := hafter.skip_cons rfl cs
  rw [skipKey, skipBlanks_cons rfl]
  simp only [skipString_characters hkey, hcolon]

/-! ## Brackets -/

/-- What stands between the brackets. -/
def Bracket.inside : Bracket → Part
  | list => .items
  | object => .members

/-- The bracket that opens. -/
def Bracket.opening : Bracket → Char
  | list => '['
  | object => '\x7b'

/-- The bracket that closes. -/
def Bracket.closing : Bracket → Char
  | list => ']'
  | object => '\x7d'

/-- The brackets that are open where a part stands. -/
def Part.within (opened : List Bracket) : Part → List Bracket
  | value => opened
  | items => .list :: opened
  | members => .object :: opened

/-- How the skipper meets a part. -/
def Part.skip (fuel : Nat) (opened : List Bracket) (cs : List Char) (part : Part) :
    Except Failure (List Char) :=
  match part with
  | value => skipOpen fuel opened cs
  | items => skipOpen fuel (.list :: opened) cs
  | members => skipKey fuel (.object :: opened) cs

theorem within_inside (b : Bracket) : b.inside.within opened = b :: opened := by
  cases b with
  | list => rfl
  | object => rfl

theorem follows_closing (b : Bracket) (cs : List Char) : Follows (b.closing :: cs) := by
  cases b with
  | list => exact follows_cons (by decide) cs
  | object => exact follows_cons (by decide) cs

theorem skip_blanks (h : Blanks ws) (part : Part) (cs : List Char) :
    part.skip fuel opened (ws ++ cs) = part.skip fuel opened cs := by
  cases part with
  | value => exact skipOpen_blanks h fuel opened cs
  | items => exact skipOpen_blanks h fuel (.list :: opened) cs
  | members => exact skipKey_blanks h fuel (.object :: opened) cs

/-- Brackets with nothing between them are skipped in one step. -/
theorem skipOpen_empty (b : Bracket) (h : Blanks ws) (rest : List Char) :
    skipOpen (fuel + 1) opened (b.opening :: (ws ++ b.closing :: rest)) =
      skipClose fuel opened rest := by
  cases b with
  | list =>
      have hskip : skipBlanks (ws ++ ']' :: rest) = ']' :: rest := h.skip_cons rfl rest
      simp only [Bracket.opening, Bracket.closing]
      rw [skipOpen, skipBlanks_cons rfl]
      simp only [hskip]
  | object =>
      have hskip : skipBlanks (ws ++ '\x7d' :: rest) = '\x7d' :: rest := h.skip_cons rfl rest
      simp only [Bracket.opening, Bracket.closing]
      rw [skipOpen, skipBlanks_cons rfl]
      simp only [hskip]

/-- A bracket that opens, before what it encloses. -/
theorem skipOpen_opening (b : Bracket) (h : Derives b.inside text) (rest : List Char) :
    skipOpen (fuel + 1) opened (b.opening :: (text ++ rest)) =
      b.inside.skip fuel opened (text ++ rest) := by
  obtain ⟨ws, c, cs, hws, rfl, hc, hlist, hobject⟩ := h.starts
  rw [List.append_assoc, List.cons_append, skip_blanks hws]
  cases b with
  | list =>
      simp only [Bracket.opening, Bracket.inside, Part.skip]
      rw [skipOpen, skipBlanks_cons rfl]
      simp only [hws.skip_cons hc]
      split
      · rename_i heq
        exact absurd (List.cons.inj heq).1 hlist
      · rename_i heq
        cases heq
      · rfl
  | object =>
      simp only [Bracket.opening, Bracket.inside, Part.skip]
      rw [skipOpen, skipBlanks_cons rfl]
      simp only [hws.skip_cons hc]
      split
      · rename_i heq
        exact absurd (List.cons.inj heq).1 hobject
      · rename_i heq
        cases heq
      · rfl

theorem skipClose_closing (b : Bracket) (cs : List Char) :
    skipClose (fuel + 1) (b :: opened) (b.closing :: cs) = skipClose fuel opened cs := by
  cases b with
  | list =>
      rw [Bracket.closing, skipClose, skipBlanks_cons rfl]
      rfl
  | object =>
      rw [Bracket.closing, skipClose, skipBlanks_cons rfl]
      rfl

theorem skipClose_comma (b : Bracket) (cs : List Char) :
    skipClose (fuel + 1) (b :: opened) (',' :: cs) = b.inside.skip fuel opened cs := by
  cases b with
  | list =>
      rw [skipClose, skipBlanks_cons rfl]
      rfl
  | object =>
      rw [skipClose, skipBlanks_cons rfl]
      rfl

/-! ## Parts -/

/-- A part is skipped in no more steps than it has characters, and the skipper goes on after it. -/
def Skipped (part : Part) (text : List Char) : Prop :=
  ∃ steps ≤ text.length, ∀ fuel opened rest, Follows rest →
    part.skip (fuel + steps) opened (text ++ rest) = skipClose fuel (part.within opened) rest

variable {ts us ws' ws'' key afterKey value : List Char}

theorem skipped_scalar (h : Scalar text) : Skipped .value text := by
  obtain ⟨c, cs, rfl, -⟩ := h.starts
  exact ⟨1, by simp, fun fuel opened rest hrest => skipOpen_scalar h hrest⟩

theorem skipped_empty (b : Bracket) (hws : Blanks ws) :
    Skipped .value (b.opening :: (ws ++ [b.closing])) := by
  refine ⟨1, by simp, fun fuel opened rest _ => ?_⟩
  rw [List.cons_append, List.append_assoc]
  exact skipOpen_empty b hws rest

/-- What stands between brackets takes two steps more with them. -/
theorem Skipped.bracketed {b : Bracket} (h : Skipped b.inside ts) (hts : Derives b.inside ts) :
    Skipped .value (b.opening :: (ts ++ [b.closing])) := by
  obtain ⟨steps, hle, hskip⟩ := h
  refine ⟨1 + steps + 1, by simp; omega, fun fuel opened rest _ => ?_⟩
  have hfuel : fuel + (1 + steps + 1) = fuel + 1 + steps + 1 := by omega
  show skipOpen (fuel + (1 + steps + 1)) opened (b.opening :: (ts ++ [b.closing]) ++ rest) =
    skipClose fuel opened rest
  rw [hfuel, List.cons_append, List.append_assoc]
  calc skipOpen (fuel + 1 + steps + 1) opened (b.opening :: (ts ++ b.closing :: rest))
      = b.inside.skip (fuel + 1 + steps) opened (ts ++ b.closing :: rest) :=
        skipOpen_opening b hts _
    _ = skipClose (fuel + 1) (b.inside.within opened) (b.closing :: rest) :=
        hskip _ _ _ (follows_closing b rest)
    _ = skipClose fuel opened rest := by rw [within_inside, skipClose_closing]

/-- The comma between two parts takes one step. -/
theorem Skipped.joined {b : Bracket} (h : Skipped b.inside ts) (h' : Skipped b.inside us) :
    Skipped b.inside (ts ++ ',' :: us) := by
  obtain ⟨steps, hle, hskip⟩ := h
  obtain ⟨steps', hle', hskip'⟩ := h'
  refine ⟨steps + 1 + steps', by simp; omega, fun fuel opened rest hrest => ?_⟩
  have hcomma : Follows (',' :: (us ++ rest)) := follows_cons (by decide) _
  have hfuel : fuel + (steps + 1 + steps') = fuel + steps' + 1 + steps := by omega
  rw [hfuel, List.append_assoc, List.cons_append]
  calc b.inside.skip (fuel + steps' + 1 + steps) opened (ts ++ ',' :: (us ++ rest))
      = skipClose (fuel + steps' + 1) (b.inside.within opened) (',' :: (us ++ rest)) :=
        hskip _ _ _ hcomma
    _ = b.inside.skip (fuel + steps') opened (us ++ rest) := by rw [within_inside, skipClose_comma]
    _ = skipClose fuel (b.inside.within opened) rest := hskip' _ _ _ hrest

theorem Skipped.item (h : Skipped .value value) (hws : Blanks ws) (hws' : Blanks ws') :
    Skipped .items (ws ++ (value ++ ws')) := by
  obtain ⟨steps, hle, hskip⟩ := h
  refine ⟨steps, by simp; omega, fun fuel opened rest hrest => ?_⟩
  show skipOpen (fuel + steps) (.list :: opened) (ws ++ (value ++ ws') ++ rest) =
    skipClose fuel (.list :: opened) rest
  rw [List.append_assoc, List.append_assoc]
  calc skipOpen (fuel + steps) (.list :: opened) (ws ++ (value ++ (ws' ++ rest)))
      = skipOpen (fuel + steps) (.list :: opened) (value ++ (ws' ++ rest)) :=
        skipOpen_blanks hws _ _ _
    _ = skipClose fuel (.list :: opened) (ws' ++ rest) :=
        hskip _ _ _ (follows_blanks hws' hrest)
    _ = skipClose fuel (.list :: opened) rest := skipClose_blanks hws' _ _ _ _

theorem Skipped.member (h : Skipped .value value) (hws : Blanks ws) (hkey : Characters key)
    (hafter : Blanks afterKey) (hws' : Blanks ws') (hws'' : Blanks ws'') :
    Skipped .members
      (ws ++ '"' :: (key ++ '"' :: (afterKey ++ ':' :: (ws' ++ (value ++ ws''))))) := by
  obtain ⟨steps, hle, hskip⟩ := h
  refine ⟨steps + 1, by simp; omega, fun fuel opened rest hrest => ?_⟩
  show skipKey (fuel + steps + 1) (.object :: opened) (ws ++ '"' :: (key ++ '"' ::
    (afterKey ++ ':' :: (ws' ++ (value ++ ws'')))) ++ rest) =
      skipClose fuel (.object :: opened) rest
  simp only [List.append_assoc, List.cons_append]
  calc skipKey (fuel + steps + 1) (.object :: opened) (ws ++ '"' :: (key ++ '"' ::
        (afterKey ++ ':' :: (ws' ++ (value ++ (ws'' ++ rest))))))
      = skipKey (fuel + steps + 1) (.object :: opened) ('"' :: (key ++ '"' ::
        (afterKey ++ ':' :: (ws' ++ (value ++ (ws'' ++ rest)))))) :=
        skipKey_blanks hws _ _ _
    _ = skipOpen (fuel + steps) (.object :: opened) (ws' ++ (value ++ (ws'' ++ rest))) :=
        skipKey_member hkey hafter _
    _ = skipOpen (fuel + steps) (.object :: opened) (value ++ (ws'' ++ rest)) :=
        skipOpen_blanks hws' _ _ _
    _ = skipClose fuel (.object :: opened) (ws'' ++ rest) :=
        hskip _ _ _ (follows_blanks hws'' hrest)
    _ = skipClose fuel (.object :: opened) rest := skipClose_blanks hws'' _ _ _ _

theorem Derives.skipped (h : Derives part text) : Skipped part text := by
  induction h with
  | scalar h => exact skipped_scalar h
  | emptyList hws => exact skipped_empty .list hws
  | list hts ih => exact Skipped.bracketed (b := .list) ih hts
  | emptyObject hws => exact skipped_empty .object hws
  | object hts ih => exact Skipped.bracketed (b := .object) ih hts
  | item hws _ hws' ih => exact ih.item hws hws'
  | items _ _ ih ih' => exact Skipped.joined (b := .list) ih ih'
  | member hws hkey hafter hws' _ hws'' ih => exact ih.member hws hkey hafter hws' hws''
  | members _ _ ih ih' => exact Skipped.joined (b := .object) ih ih'

/-- **A value of any shape and depth is skipped to its end**, with the blanks before it. -/
theorem skip_value (h : Value text) (hws : Blanks ws) (hrest : Follows rest) :
    skipValue (ws ++ (text ++ rest)) = .ok rest := by
  obtain ⟨steps, hle, hskip⟩ := h.skipped
  -- the bound leaves at least one step after the value
  obtain ⟨fuel, hfuel⟩ : ∃ fuel, 2 * (ws ++ (text ++ rest)).length + 2 = fuel + 1 + steps := by
    refine ⟨2 * (ws ++ (text ++ rest)).length + 1 - steps, ?_⟩
    simp only [List.length_append]
    omega
  rw [skipValue, hfuel, skipOpen_blanks hws]
  exact hskip (fuel + 1) [] rest hrest

end Skipping

end PointQuery.Json
