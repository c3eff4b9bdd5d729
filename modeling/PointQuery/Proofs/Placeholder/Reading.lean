import PointQuery.Proofs.Placeholder.Binding
/-!
# Reading a text with quotes

The quote scan goes over a text character by character. `Reads` says what it should find without a
state: a text is a row of single characters and quoted runs, where a run goes from a quote to the
next character of the same kind, or to the end of the text if there is none. Each text can be read
in one way only, and its placeholders are the question marks that are read as single characters.
-/

namespace PointQuery.Sql

/-! ## Parts of a text -/

/-- A part of a text: a character outside quotes, or a quoted run together with its quotes. -/
inductive Part where
  | plain (c : Char)
  | quoted (run : List Char)
deriving DecidableEq

/-- The characters of a part. -/
def Part.chars : Part → List Char
  | plain c => [c]
  | quoted run => run

/-- A text, read from left to right, is these parts. -/
inductive Reads : List Char → List Part → Prop where
  | nil : Reads [] []
  | plain {c : Char} {cs : List Char} {parts : List Part} :
      isQuote c = false → Reads cs parts → Reads (c :: cs) (.plain c :: parts)
  | closed {q : Char} {body cs : List Char} {parts : List Part} :
      isQuote q = true → q ∉ body → Reads cs parts →
        Reads (q :: (body ++ q :: cs)) (.quoted (q :: (body ++ [q])) :: parts)
  | unclosed {q : Char} {body : List Char} :
      isQuote q = true → q ∉ body → Reads (q :: body) [.quoted (q :: body)]

/-- The stretches of a text before, between and after the question marks outside quotes. -/
def stretches (parts : List Part) : List (List Char) :=
  (parts.splitOn (.plain '?')).map (List.flatMap Part.chars)

theorem stretches_nil : stretches [] = [[]] := rfl

theorem stretches_placeholder (parts : List Part) :
    stretches (.plain '?' :: parts) = [] :: stretches parts := by
  rw [stretches, List.splitOn, List.splitOnP_cons_eq_if_modifyHead, if_pos (by simp)]
  rfl

theorem stretches_cons {part : Part} (h : part ≠ .plain '?') (parts : List Part) :
    stretches (part :: parts) = (stretches parts).modifyHead (part.chars ++ ·) := by
  rw [stretches, List.splitOn, List.splitOnP_cons_eq_if_modifyHead, if_neg (by simpa using h)]
  obtain ⟨first, rest, hsplit⟩ :=
    List.exists_cons_of_ne_nil (List.splitOnP_ne_nil (· == Part.plain '?') parts)
  rw [stretches, List.splitOn, hsplit]
  rfl

/-! ## One reading -/

/-- A text has one first occurrence of a character. -/
theorem eq_of_first_occurrence {q : Char} {body body' cs cs' : List Char} (h : q ∉ body)
    (h' : q ∉ body') (heq : body ++ q :: cs = body' ++ q :: cs') : body = body' ∧ cs = cs' := by
  rcases List.append_eq_append_iff.mp heq with ⟨more, rfl, hrest⟩ | ⟨more, rfl, hrest⟩
  · cases more with
    | nil => simpa using hrest
    | cons c more =>
        obtain ⟨rfl, -⟩ := List.cons.inj hrest
        simp at h'
  · cases more with
    | nil => simpa using hrest.symm
    | cons c more =>
        obtain ⟨rfl, -⟩ := List.cons.inj hrest
        simp at h

/-- The parts of a text are the text. -/
theorem Reads.chars {cs : List Char} {parts : List Part} (h : Reads cs parts) :
    parts.flatMap Part.chars = cs := by
  induction h with
  | nil => rfl
  | plain _ _ ih => rw [List.flatMap_cons, ih]; rfl
  | closed _ _ _ ih => rw [List.flatMap_cons, ih]; simp [Part.chars]
  | unclosed => simp [Part.chars]

/-- Every text can be read. -/
theorem exists_reads (cs : List Char) : ∃ parts, Reads cs parts := by
  induction hn : cs.length using Nat.strongRecOn generalizing cs with
  | ind n ih =>
      cases cs with
      | nil => exact ⟨[], .nil⟩
      | cons c cs =>
          cases hc : isQuote c with
          | false =>
              obtain ⟨parts, hparts⟩ := ih cs.length (by simp [← hn]) cs rfl
              exact ⟨_, .plain hc hparts⟩
          | true =>
              by_cases hmem : c ∈ cs
              · obtain ⟨body, rest, rfl, hbody⟩ := List.eq_append_cons_of_mem hmem
                have hshorter : rest.length < n := by
                  simp only [List.length_cons, List.length_append] at hn
                  omega
                obtain ⟨parts, hparts⟩ := ih rest.length hshorter rest rfl
                exact ⟨_, .closed hc hbody hparts⟩
              · exact ⟨_, .unclosed hc hmem⟩

/-- No text can be read in two ways: a character that is read by itself is no quote, and a run ends
at the first character of its kind. -/
theorem Reads.unique {cs : List Char} {parts parts' : List Part} (h : Reads cs parts)
    (h' : Reads cs parts') : parts' = parts := by
  induction h generalizing parts' with
  | nil => cases h'; rfl
  | plain hc _ ih =>
      cases h' with
      | plain _ hrest => rw [ih hrest]
      | closed hq => rw [hc] at hq; cases hq
      | unclosed hq => rw [hc] at hq; cases hq
  | @closed q body cs parts hq hbody _ ih =>
      generalize htext : body ++ q :: cs = text at h'
      cases h' with
      | plain hc => rw [hq] at hc; cases hc
      | closed _ hbody' hrest =>
          obtain ⟨rfl, rfl⟩ := eq_of_first_occurrence hbody hbody' htext
          rw [ih hrest]
      | unclosed _ hnone => exact absurd (by simp [← htext]) hnone
  | @unclosed q body hq hbody =>
      generalize htext : body = text at h'
      cases h' with
      | plain hc => rw [hq] at hc; cases hc
      | closed => exact absurd (by simp [htext]) hbody
      | unclosed => rfl

/-! ## The scan finds the parts -/

theorem ne_placeholder_of_isQuote {q : Char} (h : isQuote q = true) : q ≠ '?' := by
  rintro rfl
  exact absurd h (by decide)

/-- A run that is closed belongs to the piece it starts in, and the scan goes on outside quotes. -/
theorem pieces_close {q : Char} {body : List Char} (h : q ∉ body) (cs : List Char) :
    pieces (some q) (body ++ q :: cs) = (pieces none cs).modifyHead (body ++ [q] ++ ·) := by
  induction body with
  | nil =>
      rw [List.nil_append, pieces, if_neg (by simp), QuoteState.next, if_pos rfl]
      rfl
  | cons c body ih =>
      obtain ⟨hc, hbody⟩ : q ≠ c ∧ q ∉ body := by simpa using h
      rw [List.cons_append, pieces, if_neg (by simp), QuoteState.next, if_neg (Ne.symm hc),
        ih hbody, List.modifyHead_modifyHead]
      rfl

/-- A run that is not closed takes all that is left. -/
theorem pieces_unclosed {q : Char} {body : List Char} (h : q ∉ body) :
    pieces (some q) body = [body] := by
  induction body with
  | nil => rfl
  | cons c body ih =>
      obtain ⟨hc, hbody⟩ : q ≠ c ∧ q ∉ body := by simpa using h
      rw [pieces, if_neg (by simp), QuoteState.next, if_neg (Ne.symm hc), ih hbody]
      rfl

theorem pieces_quote {q : Char} (h : isQuote q = true) (cs : List Char) :
    pieces none (q :: cs) = (pieces (some q) cs).modifyHead (q :: ·) := by
  have hq : ¬ ((none : QuoteState) = none ∧ q = '?') := fun hp => ne_placeholder_of_isQuote h hp.2
  rw [pieces, if_neg hq, QuoteState.next, if_pos h]

/-- The pieces that the scan cuts a text into are the stretches between its placeholders. -/
theorem Reads.pieces_eq {cs : List Char} {parts : List Part} (h : Reads cs parts) :
    pieces none cs = stretches parts := by
  induction h with
  | nil => rfl
  | @plain c cs parts hc _ ih =>
      rw [pieces]
      by_cases hp : c = '?'
      · subst hp
        rw [if_pos ⟨rfl, rfl⟩, stretches_placeholder, ih]
      · rw [if_neg (fun h => hp h.2), stretches_cons (by simpa using hp), ← ih, QuoteState.next, hc]
        rfl
  | @closed q body cs parts hq hbody _ ih =>
      rw [pieces_quote hq, pieces_close hbody, List.modifyHead_modifyHead,
        stretches_cons Part.noConfusion, ← ih]
      rfl
  | unclosed hq hbody =>
      rw [pieces_quote hq, pieces_unclosed hbody, stretches_cons Part.noConfusion, stretches_nil]
      simp [Part.chars]

/-- **Exactly the question marks outside quotes are placeholders.** Every text can be read as single
characters and quoted runs, in one way only. Let the question marks among the single characters
divide it into stretches. Writing placeholders for MySQL leaves the text as it is; for PostgreSQL it
puts `$1`, `$2` and so on between the stretches, which stay as they are. -/
theorem writePlaceholders_reading (sql : String) :
    ∃ parts, (∀ parts', Reads sql.toList parts' ↔ parts' = parts) ∧
      parts.flatMap Part.chars = sql.toList ∧
      weave (fun _ => ['?']) 0 (stretches parts) = sql.toList ∧
      Dialect.mysql.writePlaceholders sql = sql ∧
      (Dialect.postgresql.writePlaceholders sql).toList =
        weave (fun n => '$' :: (toString n).toList) 0 (stretches parts) := by
  obtain ⟨parts, hparts⟩ := exists_reads sql.toList
  have hwritten : ∀ d : Dialect, (d.writePlaceholders sql).toList =
      weave (numbered d) 0 (stretches parts) := by
    intro d
    rw [toList_writePlaceholders, replacePlaceholders_eq_weave, hparts.pieces_eq]
  have hsame : (Dialect.mysql.writePlaceholders sql).toList = sql.toList := by
    rw [toList_writePlaceholders]
    exact replacePlaceholders_id none 0 sql.toList
  refine ⟨parts, fun parts' => ⟨hparts.unique, fun h => h ▸ hparts⟩, hparts.chars, ?_,
    String.toList_inj.mp hsame, hwritten .postgresql⟩
  exact (hwritten .mysql).symm.trans hsame

end PointQuery.Sql
