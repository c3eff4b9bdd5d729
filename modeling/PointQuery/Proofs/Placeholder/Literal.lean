import PointQuery.Proofs.Placeholder.Binding
/-!
# Text literals

A text literal stands between single quotes, and a single quote inside it is written twice. The
quote scan knows nothing of this rule: a doubled quote closes one quote for it and opens the next.
Both come to the same. `undoubleQuotes?_doubleQuotes` says that a literal can be read back,
`inert_quoted` that the scan goes over it without a trace, and `inline_text_oneLiteral` puts it
between other texts.
-/

namespace PointQuery.Sql

/-! ## Reading a literal back -/

namespace Value

/-- The text that the characters between the quotes of a literal stand for, two single quotes for
one. There is none if a single quote stands alone, as the literal would end at it. -/
def undoubleQuotes? : List Char → Option (List Char)
  | [] => some []
  | '\'' :: '\'' :: cs => (undoubleQuotes? cs).map ('\'' :: ·)
  | c :: cs => if c = '\'' then none else (undoubleQuotes? cs).map (c :: ·)

theorem doubleQuotes_quote (cs : List Char) :
    doubleQuotes ('\'' :: cs) = '\'' :: '\'' :: doubleQuotes cs := rfl

theorem doubleQuotes_other {c : Char} (h : c ≠ '\'') (cs : List Char) :
    doubleQuotes (c :: cs) = c :: doubleQuotes cs := by
  simp [doubleQuotes, h]

theorem undoubleQuotes?_doubleQuotes (cs : List Char) :
    undoubleQuotes? (doubleQuotes cs) = some cs := by
  induction cs with
  | nil => rfl
  | cons c cs ih =>
      by_cases hc : c = '\''
      · subst hc
        rw [doubleQuotes_quote, undoubleQuotes?, ih]
        rfl
      · rw [doubleQuotes_other hc, undoubleQuotes?, if_neg hc, ih]
        · rfl
        · intro _ hquote
          exact absurd hquote hc

theorem toList_quoted (s : String) :
    (quoted s).toList = '\'' :: (doubleQuotes s.toList ++ ['\'']) := String.toList_ofList

theorem quoted_eq (s : String) :
    quoted s = "'" ++ String.ofList (doubleQuotes s.toList) ++ "'" := by
  rw [← String.toList_inj, toList_quoted]
  simp

/-- Distinct texts have distinct literals. -/
theorem quoted_injective {s s' : String} (h : quoted s' = quoted s) : s' = s := by
  have hchars := congrArg String.toList h
  rw [toList_quoted, toList_quoted, List.cons.injEq, List.append_left_inj] at hchars
  have hbody := congrArg undoubleQuotes? hchars.2
  rw [undoubleQuotes?_doubleQuotes, undoubleQuotes?_doubleQuotes] at hbody
  exact String.toList_inj.mp (Option.some.inj hbody)

end Value

/-! ## Scanning a literal -/

open Value

/-- Inside a literal the scan stays inside quotes: where a quote is doubled, it leaves them and
enters them again. On its way it meets no placeholder. -/
theorem scan_doubleQuotes (cs : List Char) :
    QuoteState.after (some '\'') (doubleQuotes cs) = some '\'' ∧
      QuoteState.placeholders (some '\'') (doubleQuotes cs) = 0 := by
  induction cs with
  | nil => exact ⟨rfl, rfl⟩
  | cons c cs ih =>
      by_cases hc : c = '\''
      · subst hc
        rw [doubleQuotes_quote]
        refine ⟨ih.1, ?_⟩
        show 0 + (0 + QuoteState.placeholders (some '\'') (doubleQuotes cs)) = 0
        rw [ih.2]
      · have hnext : QuoteState.next (some '\'') c = some '\'' := if_neg hc
        rw [doubleQuotes_other hc, QuoteState.after, List.foldl_cons, QuoteState.placeholders,
          hnext]
        exact ⟨ih.1, by simpa using ih.2⟩

/-- A literal can stand wherever the scan is outside quotes. -/
theorem inert_quoted (s : String) : Inert (quoted s).toList := by
  obtain ⟨hafter, hcount⟩ := scan_doubleQuotes s.toList
  rw [toList_quoted]
  constructor
  · show QuoteState.after (some '\'') (doubleQuotes s.toList ++ ['\'']) = none
    rw [QuoteState.after_append, hafter]
    rfl
  · show 0 + QuoteState.placeholders (some '\'') (doubleQuotes s.toList ++ ['\'']) = 0
    rw [QuoteState.placeholders_append, hcount, hafter]
    rfl

/-! ## A literal between other texts -/

/-- An inert text behind a closed one is written as it stands, and the numbers of what follows go on
from the closed one. -/
theorem writePlaceholders_around (d : Dialect) {a t : String} (ha : Closed a.toList)
    (ht : Inert t.toList) (b : String) :
    (d.writePlaceholders (a ++ t ++ b)).toList =
      (d.writePlaceholders a).toList ++ t.toList ++
        replacePlaceholders (numbered d) none (placeholderCount a.toList) b.toList := by
  obtain ⟨hclosed, hcount⟩ := ht
  have hsame : replacePlaceholders (numbered d) none (placeholderCount a.toList) t.toList =
      t.toList := replacePlaceholders_of_no_placeholders _ _ hcount
  have hboth : placeholderCount (a.toList ++ t.toList) = placeholderCount a.toList := by
    rw [ha.count_append, hcount, Nat.add_zero]
  rw [toList_writePlaceholders, toList_writePlaceholders, String.toList_append,
    String.toList_append, replacePlaceholders_append, ha.append hclosed,
    replacePlaceholders_append, ha, Nat.zero_add, Nat.zero_add]
  show _ ++ replacePlaceholders _ none (placeholderCount a.toList) t.toList ++
    replacePlaceholders _ none (placeholderCount (a.toList ++ t.toList)) b.toList = _
  rw [hsame, hboth]

/-- **A text is written as one literal.** The literal of a text starts and ends with a single quote;
what is between them, with two quotes read as one, is the text, so distinct texts have distinct
literals. Put it behind a text that ends outside quotes and before any other: the scan is outside
quotes again behind it, and to write the placeholders leaves the literal as it stands, while their
numbers go on behind it from those before it. -/
theorem inline_text_oneLiteral (s : String) :
    (∃ body, (Value.text s).inline = "'" ++ body ++ "'" ∧
        undoubleQuotes? body.toList = some s.toList) ∧
      (∀ s', (Value.text s').inline = (Value.text s).inline → s' = s) ∧
      ∀ a b : String, Closed a.toList →
        Closed (a ++ (Value.text s).inline).toList ∧
          ∀ d : Dialect, (d.writePlaceholders (a ++ (Value.text s).inline ++ b)).toList =
            (d.writePlaceholders a).toList ++ (Value.text s).inline.toList ++
              replacePlaceholders (numbered d) none (placeholderCount a.toList) b.toList := by
  have hread : undoubleQuotes? (String.ofList (doubleQuotes s.toList)).toList = some s.toList := by
    rw [String.toList_ofList, undoubleQuotes?_doubleQuotes]
  refine ⟨⟨_, quoted_eq s, hread⟩, fun s' h => quoted_injective h, ?_⟩
  intro a b ha
  refine ⟨?_, fun d => writePlaceholders_around d ha (inert_quoted s) b⟩
  rw [String.toList_append]
  exact ha.append (inert_quoted s).1

/-- A name with quotes and a question mark, as a literal between two placeholders. -/
theorem crumpets_oneLiteral :
    let t := (Value.text "Crumpets'? 'n\" tea'").inline
    let a := "price < ? AND name = "
    let b := " AND stars > ?"
    (∃ body, t = "'" ++ body ++ "'" ∧
        undoubleQuotes? body.toList = some "Crumpets'? 'n\" tea'".toList) ∧
      (∀ s', (Value.text s').inline = t → s' = "Crumpets'? 'n\" tea'") ∧
      Closed a.toList ∧ Closed (a ++ t).toList ∧
      (Dialect.postgresql.writePlaceholders (a ++ t ++ b)).toList =
        (Dialect.postgresql.writePlaceholders a).toList ++ t.toList ++
          replacePlaceholders (numbered .postgresql) none (placeholderCount a.toList) b.toList := by
  intro t a b
  have ha : Closed a.toList := by decide
  obtain ⟨hread, hdistinct, haround⟩ := inline_text_oneLiteral "Crumpets'? 'n\" tea'"
  obtain ⟨hclosed, hwritten⟩ := haround a b ha
  exact ⟨hread, hdistinct, ha, hclosed, hwritten .postgresql⟩

example :
    Dialect.postgresql.writePlaceholders
        ("price < ? AND name = " ++ (Value.text "'n'?").inline ++ " AND stars > ?") =
      "price < $1 AND name = '''n''?' AND stars > $2" := by
  decide +kernel

end PointQuery.Sql
