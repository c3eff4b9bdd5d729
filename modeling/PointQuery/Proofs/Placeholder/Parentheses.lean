import PointQuery.Proofs.Placeholder.Scan
/-!
# Parentheses

A text is scanned for parentheses as it is for placeholders: outside quotes an opening parenthesis
leads one level down and a closing one leads back, inside quotes neither counts. A balanced text
never closes what it has not opened and ends where it began, so it may stand at any depth:
`after_raised` says that a scan runs the same further down, and the rest follows from it.
-/

namespace PointQuery.Sql

/-- Where a scan for parentheses stands: the quote that is open, if any, and the number of open
parentheses. -/
structure Nesting where
  quote : QuoteState := none
  depth : Nat := 0
deriving DecidableEq

namespace Nesting

variable {s t : Nesting} {c : Char} {as bs cs : List Char} {n : Nat}

/-! ## The scan -/

/-- Where the scan stands after one more character. A closing parenthesis that closes nothing stops
it. -/
def next (s : Nesting) (c : Char) : Option Nesting :=
  if s.quote = none ∧ c = '(' then some { s with depth := s.depth + 1 }
  else if s.quote = none ∧ c = ')' then
    match s.depth with
    | 0 => none
    | depth + 1 => some { s with depth }
  else some { s with quote := s.quote.next c }

/-- Where the scan stands after a text. -/
def after : Nesting → List Char → Option Nesting
  | s, [] => some s
  | s, c :: cs => (s.next c).bind fun t => t.after cs

theorem next_other (hopen : ¬ (s.quote = none ∧ c = '(')) (hclose : ¬ (s.quote = none ∧ c = ')')) :
    s.next c = some { s with quote := s.quote.next c } := by
  rw [next, if_neg hopen, if_neg hclose]

theorem after_cons (h : s.next c = some t) (cs : List Char) : s.after (c :: cs) = t.after cs := by
  rw [after, h, Option.bind_some]

theorem after_append (s : Nesting) (as bs : List Char) :
    s.after (as ++ bs) = (s.after as).bind fun t => t.after bs := by
  induction as generalizing s with
  | nil => rfl
  | cons c as ih =>
      rw [List.cons_append, after, after, Option.bind_assoc]
      exact congrArg (s.next c).bind (funext ih)

theorem after_of_append (h : s.after as = some t) (bs : List Char) :
    s.after (as ++ bs) = t.after bs := by
  rw [after_append, h, Option.bind_some]

/-- The same place with more parentheses open around it. -/
def raised (s : Nesting) (n : Nat) : Nesting := { s with depth := s.depth + n }

theorem next_raised (h : s.next c = some t) (n : Nat) :
    (s.raised n).next c = some (t.raised n) := by
  obtain ⟨quote, depth⟩ := s
  by_cases hopen : quote = none ∧ c = '('
  · obtain ⟨rfl, rfl⟩ := hopen
    obtain rfl : Nesting.mk none (depth + 1) = t := Option.some.inj h
    show some (Nesting.mk none (depth + n + 1)) = some (Nesting.mk none (depth + 1 + n))
    rw [Nat.add_right_comm]
  · by_cases hclose : quote = none ∧ c = ')'
    · obtain ⟨rfl, rfl⟩ := hclose
      cases depth with
      | zero => cases h
      | succ depth =>
          obtain rfl : Nesting.mk none depth = t := Option.some.inj h
          rw [raised, Nat.succ_add]
          rfl
    · rw [next_other hopen hclose] at h
      rw [next_other hopen hclose]
      cases h
      rfl

/-- What a text opens and closes it opens and closes at any depth. -/
theorem after_raised (h : s.after cs = some t) (n : Nat) :
    (s.raised n).after cs = some (t.raised n) := by
  induction cs generalizing s with
  | nil =>
      cases h
      rfl
  | cons c cs ih =>
      rw [after] at h
      obtain ⟨s', hnext, hrest⟩ := Option.bind_eq_some_iff.mp h
      rw [after_cons (next_raised hnext n)]
      exact ih hrest

theorem after_replicate (n depth : Nat) :
    ({ depth } : Nesting).after (List.replicate n '(') = some { depth := depth + n } := by
  induction n generalizing depth with
  | zero => rfl
  | succ n ih =>
      have hnext : ({ depth } : Nesting).next '(' = some { depth := depth + 1 } := rfl
      rw [List.replicate_succ, after_cons hnext, ih, Nat.add_right_comm, Nat.add_assoc]

/-! ## Outside all parentheses -/

/-- The characters of a text that stand outside all parentheses, without the parentheses
themselves. -/
def outside : Nesting → List Char → List Char
  | _, [] => []
  | s, c :: cs =>
    match s.next c with
    | none => []
    | some t => if s.depth = 0 ∧ t.depth = 0 then c :: t.outside cs else t.outside cs

theorem outside_append (h : s.after as = some t) (bs : List Char) :
    s.outside (as ++ bs) = s.outside as ++ t.outside bs := by
  induction as generalizing s with
  | nil =>
      cases h
      rfl
  | cons c as ih =>
      rw [after] at h
      obtain ⟨s', hnext, hrest⟩ := Option.bind_eq_some_iff.mp h
      simp only [List.cons_append, outside, hnext, ih hrest]
      split
      · rfl
      · rfl

/-- Parentheses that open are no text outside. -/
theorem outside_replicate (n depth : Nat) :
    ({ depth } : Nesting).outside (List.replicate n '(') = [] := by
  induction n generalizing depth with
  | zero => rfl
  | succ n ih =>
      have hnext : ({ depth } : Nesting).next '(' = some { depth := depth + 1 } := rfl
      rw [List.replicate_succ]
      simp only [outside, hnext, Nat.add_one_ne_zero, and_false, if_false]
      exact ih (depth + 1)

/-- A text that closes no more than it opens has nothing outside the parentheses around it. -/
theorem outside_raised (h : s.after cs = some t) (hn : 0 < n) : (s.raised n).outside cs = [] := by
  induction cs generalizing s with
  | nil => rfl
  | cons c cs ih =>
      rw [after] at h
      obtain ⟨s', hnext, hrest⟩ := Option.bind_eq_some_iff.mp h
      have hdepth : ¬ ((s.raised n).depth = 0 ∧ (s'.raised n).depth = 0) := by
        simp only [raised]
        omega
      simp only [outside, next_raised hnext n, if_neg hdepth]
      exact ih hrest

end Nesting

/-! ## Balanced texts -/

/-- Every parenthesis outside quotes is closed by one that follows it, and every quote is closed. -/
def Balanced (cs : List Char) : Prop := Nesting.after {} cs = some {}

instance (cs : List Char) : Decidable (Balanced cs) :=
  inferInstanceAs (Decidable (Nesting.after {} cs = some {}))

/-- Every character of the text, where it follows another text, stands inside parentheses: before
it as well as after it there is one open. -/
def Sheltered (before cs : List Char) : Prop :=
  ∀ us c vs, cs = us ++ c :: vs → ∃ s t : Nesting,
    Nesting.after {} (before ++ us) = some s ∧ s.next c = some t ∧ 0 < s.depth ∧ 0 < t.depth

namespace Balanced

variable {as bs cs before : List Char} {n : Nat}

theorem nil : Balanced [] := rfl

theorem append (ha : Balanced as) (hb : Balanced bs) : Balanced (as ++ bs) :=
  (Nesting.after_of_append ha bs).trans hb

/-- A balanced text can stand at any depth. -/
theorem after (h : Balanced cs) (n : Nat) :
    Nesting.after { depth := n } cs = some { depth := n } := by
  have hraised := Nesting.after_raised h n
  simpa only [Nesting.raised, Nat.zero_add] using hraised

theorem paren (h : Balanced cs) : Balanced ('(' :: (cs ++ [')'])) := by
  have hopen : Nesting.next {} '(' = some { depth := 1 } := rfl
  rw [Balanced, Nesting.after_cons hopen, Nesting.after_of_append (h.after 1)]
  rfl

/-- A balanced text has nothing outside the parentheses around it. -/
theorem outside (h : Balanced cs) (hn : 0 < n) : Nesting.outside { depth := n } cs = [] := by
  have hraised := Nesting.outside_raised h hn
  simpa only [Nesting.raised, Nat.zero_add] using hraised

/-- A balanced text after one that leaves a parenthesis open lies inside it. -/
theorem sheltered (h : Balanced cs) (hbefore : Nesting.after {} before = some { depth := n })
    (hn : 0 < n) : Sheltered before cs := by
  intro us c vs hcs
  -- where the scan of the text alone stands before and after the character
  rw [Balanced, hcs, Nesting.after_append] at h
  obtain ⟨s, hs, hrest⟩ := Option.bind_eq_some_iff.mp h
  rw [Nesting.after] at hrest
  obtain ⟨t, ht, -⟩ := Option.bind_eq_some_iff.mp hrest
  have hraised := Nesting.after_raised hs n
  simp only [Nesting.raised, Nat.zero_add] at hraised
  refine ⟨s.raised n, t.raised n, ?_, Nesting.next_raised ht n, ?_, ?_⟩
  · rw [Nesting.after_of_append hbefore]
    exact hraised
  · exact Nat.lt_add_left _ hn
  · exact Nat.lt_add_left _ hn

end Balanced

/-- A character that is neither a quote nor a parenthesis. -/
def isFlat (c : Char) : Bool := !isQuote c && c != '(' && c != ')'

theorem balanced_of_flat {cs : List Char} (h : ∀ c ∈ cs, isFlat c = true) : Balanced cs := by
  induction cs with
  | nil => exact Balanced.nil
  | cons c cs ih =>
      have hc := h c List.mem_cons_self
      simp only [isFlat, Bool.and_eq_true, Bool.not_eq_true', bne_iff_ne] at hc
      obtain ⟨⟨hquote, hopen⟩, hclose⟩ := hc
      have hnext : Nesting.next {} c = some {} := by
        simp [Nesting.next, QuoteState.next, hquote, hopen, hclose]
      rw [Balanced, Nesting.after_cons hnext]
      exact ih fun d hd => h d (List.mem_cons_of_mem c hd)

example : Balanced "a IN (1, ')')".toList ∧ ¬ Balanced "a) OR (b".toList := by decide

end PointQuery.Sql
