import PointQuery.Proofs.Json.Skipping
/-!
# Values however they are presented

A value has many texts. Blanks may stand between the tokens, a character may be given by its number,
and the members of an object may come in any order and among others. `Takes` says that a reader
takes a text after any blanks, whatever follows it; it is carried from strings to lists and from
fields to records. In a record each field is either still to come or has been read, and `Owed`
follows a field through the members from one to the next.
-/

namespace PointQuery.Json

variable {α : Type} {ws rest : List Char} {a : α}

/-- The reader takes this text after any blanks, whatever follows it, and gives this value. -/
def Takes (read : Reader α) (text : List Char) (a : α) : Prop :=
  ∀ ws rest, Blanks ws → read (ws ++ (text ++ rest)) = .ok (a, rest)

section

variable {read : Reader α} {text : List Char}

theorem Takes.map {β : Type} (h : Takes read text a) (f : α → β) :
    Takes (fun cs => (read cs).map fun r => (f r.1, r.2)) text (f a) := by
  intro ws rest hws
  show (read (ws ++ (text ++ rest))).map _ = _
  rw [h ws rest hws]
  rfl

/-- Without blanks before the text. -/
theorem Takes.bare (h : Takes read text a) (rest : List Char) :
    read (text ++ rest) = .ok (a, rest) := h [] rest .nil

/-- A text that is taken is read where it fills the whole text, but for blanks around it. -/
theorem Takes.whole {ws' : List Char} {s : String} (h : Takes read text a) (hws : Blanks ws)
    (hws' : Blanks ws') (hs : s.toList = ws ++ (text ++ ws')) : Json.whole read s = .ok a := by
  have hend : skipBlanks ws' = [] := List.dropWhile_eq_nil_iff.mpr hws'.isBlank
  rw [Json.whole, hs, h ws ws' hws]
  dsimp only [bind, Except.bind]
  rw [hend]
  rfl

end

/-! ## Scalars -/

/-- A text of a string: what spells it, in quotes. -/
inductive StringText (s : String) : List Char → Prop
  | mk {body : List Char} : Spells body s.toList → StringText s ('"' :: (body ++ ['"']))

/-- The text of a truth value. -/
inductive BoolText : Bool → List Char → Prop
  | yes : BoolText true "true".toList
  | no : BoolText false "false".toList

theorem takes_string {s : String} {text : List Char} (h : StringText s text) :
    Takes string text s := by
  intro ws rest hws
  cases h with
  | @mk body hbody =>
      have htext : '"' :: (body ++ ['"']) ++ rest = '"' :: (body ++ '"' :: rest) := by simp
      rw [htext, string, hws.skip_cons rfl]
      show (stringBody (body ++ '"' :: rest)).map _ = _
      rw [stringBody_spells hbody]
      simp [Except.map]

theorem takes_bool {b : Bool} {text : List Char} (h : BoolText b text) : Takes bool text b := by
  intro ws rest hws
  cases h with
  | yes =>
      show bool (ws ++ 't' :: ("rue".toList ++ rest)) = _
      rw [bool, hws.skip_cons rfl]
      rfl
  | no =>
      show bool (ws ++ 'f' :: ("alse".toList ++ rest)) = _
      rw [bool, hws.skip_cons rfl]
      rfl

theorem stringText_writeString (s : String) : StringText s (writeString s) :=
  .mk (spells_escape s.toList)

theorem boolText_writeBool (b : Bool) : BoolText b (writeBool b) := by
  cases b with
  | true => exact .yes
  | false => exact .no

/-! ## Lists -/

/-- The texts of the items of a list that has some: commas between them and blanks around each. -/
inductive ItemsText (Text : α → List Char → Prop) : List α → List Char → Prop
  | last {ws text ws' : List Char} {a : α} : Blanks ws → Text a text → Blanks ws' →
      ItemsText Text [a] (ws ++ (text ++ ws'))
  | cons {ws text ws' texts : List Char} {a : α} {as : List α} : Blanks ws → Text a text →
      Blanks ws' → ItemsText Text as texts →
      ItemsText Text (a :: as) (ws ++ (text ++ (ws' ++ ',' :: texts)))

/-- A text of a list. -/
inductive ListText (Text : α → List Char → Prop) : List α → List Char → Prop
  | empty {ws : List Char} : Blanks ws → ListText Text [] ('[' :: (ws ++ [']']))
  | items {as : List α} {texts : List Char} : ItemsText Text as texts →
      ListText Text as ('[' :: (texts ++ [']']))

section Lists

variable {Text : α → List Char → Prop} {item : Reader α} {as : List α} {text : List Char}
  {fuel : Nat}

theorem items_blanks (h : Blanks ws) (fuel : Nat) (first : Bool) (cs : List Char) :
    items item fuel first (ws ++ cs) = items item fuel first cs := by
  cases fuel with
  | zero => rfl
  | succ fuel => rw [items, items, h.skip]

/-- An item is read where the first may stand, or after a comma. -/
theorem items_item (hstart : StartsItem text) (hitem : Takes item text a) (hws : Blanks ws)
    (first : Bool) (rest : List Char) :
    items item (fuel + 1) first ((if first then [] else [',']) ++ (ws ++ (text ++ rest))) =
      (items item fuel false rest).map fun r => (a :: r.1, r.2) := by
  have hread := hitem.bare rest
  obtain ⟨c, cs, rfl, hc, hclose⟩ := hstart
  have hskip : skipBlanks (ws ++ (c :: cs ++ rest)) = c :: (cs ++ rest) := hws.skip_cons hc _
  cases first with
  | true => exact items_first hskip hclose hread
  | false => exact items_next (skipBlanks_cons rfl _) hskip hclose hread

theorem ItemsText.length_le (h : ItemsText Text as text)
    (hstart : ∀ a text, Text a text → StartsItem text) : as.length ≤ text.length := by
  induction h with
  | last _ htext _ =>
      obtain ⟨c, cs, rfl, -⟩ := hstart _ _ htext
      simp; omega
  | cons _ htext _ _ ih =>
      obtain ⟨c, cs, rfl, -⟩ := hstart _ _ htext
      simp; omega

theorem items_text (h : ItemsText Text as text) (hstart : ∀ a text, Text a text → StartsItem text)
    (hitem : ∀ a text, Text a text → Takes item text a) (hfuel : as.length < fuel) (first : Bool)
    (rest : List Char) :
    items item fuel first ((if first then [] else [',']) ++ (text ++ ']' :: rest)) =
      .ok (as, rest) := by
  induction h generalizing fuel first with
  | @last ws text ws' a hws htext hws' =>
      obtain ⟨fuel, rfl⟩ : ∃ n, fuel = n + 1 + 1 := ⟨fuel - 2, by simp at hfuel; omega⟩
      have hclose : items item (fuel + 1) false (ws' ++ ']' :: rest) = .ok ([], rest) :=
        items_close (hws'.skip_cons rfl rest) false
      simp only [List.append_assoc]
      rw [items_item (hstart a text htext) (hitem a text htext) hws, hclose]
      rfl
  | @cons ws text ws' texts a as hws htext hws' _ ih =>
      obtain ⟨fuel, rfl⟩ : ∃ n, fuel = n + 1 := ⟨fuel - 1, by omega⟩
      have hrest : items item fuel false (',' :: (texts ++ ']' :: rest)) = .ok (as, rest) :=
        ih (Nat.lt_of_succ_lt_succ hfuel) false
      simp only [List.append_assoc, List.cons_append]
      rw [items_item (hstart a text htext) (hitem a text htext) hws, items_blanks hws', hrest]
      rfl

/-- **A list is read however it is presented**, if its items are. -/
theorem takes_list (h : ListText Text as text) (hstart : ∀ a text, Text a text → StartsItem text)
    (hitem : ∀ a text, Text a text → Takes item text a) : Takes (list item) text as := by
  intro ws rest hws
  cases h with
  | @empty ws' hws' =>
      have htext : '[' :: (ws' ++ [']']) ++ rest = '[' :: (ws' ++ ']' :: rest) := by simp
      rw [htext, list, hws.skip_cons rfl]
      exact items_close (hws'.skip_cons rfl rest) true
  | @items as texts htexts =>
      have hlength : as.length < (texts ++ ']' :: rest).length + 1 := by
        have hle := htexts.length_le hstart
        simp only [List.length_append]
        omega
      have htext : '[' :: (texts ++ [']']) ++ rest = '[' :: (texts ++ ']' :: rest) := by simp
      rw [htext, list, hws.skip_cons rfl]
      exact items_text htexts hstart hitem hlength true rest

theorem itemsText_writeCommas {write : α → List Char} (h : ∀ a ∈ as, Text a (write a))
    (hne : as ≠ []) : ItemsText Text as (writeCommas (as.map write)) := by
  induction as with
  | nil => exact absurd rfl hne
  | cons a as ih =>
      obtain ⟨ha, has⟩ := List.forall_mem_cons.mp h
      cases as with
      | nil =>
          have hitem := ItemsText.last .nil ha .nil
          rw [List.nil_append, List.append_nil] at hitem
          exact hitem
      | cons b as => exact .cons .nil ha .nil (ih has (List.cons_ne_nil b as))

theorem listText_writeList {write : α → List Char} (h : ∀ a ∈ as, Text a (write a)) :
    ListText Text as (writeList (as.map write)) := by
  cases as with
  | nil => exact .empty .nil
  | cons a as => exact .items (itemsText_writeCommas h (List.cons_ne_nil a as))

end Lists

/-! ## Members -/

/-- A member of an object as it is written: a key, which spells a name, a colon and a value, with
blanks around them. -/
structure Entry where
  name : String
  before : List Char := []
  key : List Char
  afterKey : List Char := []
  beforeValue : List Char := []
  value : List Char
  after : List Char := []

namespace Entry

/-- The member without the blanks around it, and what follows it. -/
def core (e : Entry) (rest : List Char) : List Char :=
  '"' :: (e.key ++ '"' :: (e.afterKey ++ ':' :: (e.beforeValue ++ (e.value ++ rest))))

/-- The text of the member. -/
def text (e : Entry) : List Char := e.before ++ e.core e.after

theorem text_append (e : Entry) (rest : List Char) :
    e.text ++ rest = e.before ++ e.core (e.after ++ rest) := by simp [text, core]

/-- The key spells the name, and there are only blanks around the key and the value. -/
structure Written (e : Entry) : Prop where
  before : Blanks e.before
  key : Spells e.key e.name.toList
  afterKey : Blanks e.afterKey
  beforeValue : Blanks e.beforeValue
  after : Blanks e.after

/-- A key of plain characters spells itself. -/
theorem written_plain {e : Entry} (hkey : e.key = e.name.toList)
    (hplain : e.key.all (Plain ·) = true)
    (hblanks : Blanks (e.before ++ (e.afterKey ++ (e.beforeValue ++ e.after)))) : e.Written where
  before := fun c hc => hblanks c (by simp [hc])
  key := hkey ▸ spells_plain hplain
  afterKey := fun c hc => hblanks c (by simp [hc])
  beforeValue := fun c hc => hblanks c (by simp [hc])
  after := fun c hc => hblanks c (by simp [hc])

/-- A member as it is written without blanks. -/
def compact (name : String) (value : List Char) : Entry where
  name := name
  key := name.toList.flatMap escape
  value := value

theorem written_compact (name : String) (value : List Char) : (compact name value).Written :=
  ⟨.nil, spells_escape name.toList, .nil, .nil, .nil⟩

theorem text_compact (name : String) (value : List Char) :
    (compact name value).text = writeMember name value := by
  simp [compact, text, core, writeMember, writeString]

end Entry

/-- What the members with a key are if they give a field its value: one member, with a text of the
value, or none, if the value is the one that the field has when it is left out. Where the member
stands, and among what others, is left open. -/
def Gives (entries : List Entry) (key : String) (Text : α → List Char → Prop) (omitted : Option α)
    (a : α) : Prop :=
  match entries.filter (·.name == key) with
  | [] => omitted = some a
  | [e] => Text a e.value
  | _ => False

/-- What is still to come of a field, of which `collected` has been read: its value, if it has not
been read, and otherwise nothing. -/
def Owed (entries : List Entry) (key : String) (Text : α → List Char → Prop) (omitted : Option α)
    (a : α) : Option α → Prop
  | none => Gives entries key Text omitted a
  | some b => b = a ∧ entries.filter (·.name == key) = []

section Owed

variable {e : Entry} {entries : List Entry} {key : String} {Text : α → List Char → Prop}
  {omitted collected : Option α}

/-- At the end a field that cannot be left out has its value. -/
theorem Owed.eq_some (h : Owed [] key Text none a collected) : collected = some a := by
  cases collected with
  | none => cases h
  | some b => exact congrArg some h.1

/-- At the end a field that can be left out has its value, or this is the one that it then has. -/
theorem Owed.getD {b : α} (h : Owed [] key Text (some b) a collected) : collected.getD b = a := by
  cases collected with
  | none => exact Option.some.inj h
  | some b' => exact h.1

/-- A member with another key makes no difference. -/
theorem Owed.other (h : Owed (e :: entries) key Text omitted a collected) (hkey : e.name ≠ key) :
    Owed entries key Text omitted a collected := by
  have hfilter : (e :: entries).filter (·.name == key) = entries.filter (·.name == key) :=
    List.filter_cons_of_neg (by simp [hkey])
  cases collected with
  | none =>
      rw [Owed, Gives, hfilter] at h
      exact h
  | some b =>
      rw [Owed, hfilter] at h
      exact h

/-- A member with the key has a text of the value, which had not been read before. -/
theorem Owed.self (h : Owed (e :: entries) key Text omitted a collected) (hkey : e.name = key) :
    collected = none ∧ Text a e.value ∧ Owed entries key Text omitted a (some a) := by
  have hfilter : (e :: entries).filter (·.name == key) = e :: entries.filter (·.name == key) :=
    List.filter_cons_of_pos (by simp [hkey])
  cases collected with
  | none =>
      rw [Owed, Gives, hfilter] at h
      cases hrest : entries.filter (·.name == key) with
      | nil =>
          rw [hrest] at h
          exact ⟨rfl, h, rfl, hrest⟩
      | cons e' es =>
          rw [hrest] at h
          exact h.elim
  | some b =>
      rw [Owed, hfilter] at h
      cases h.2

end Owed

/-! ## Records -/

theorem colon_blanks (h : Blanks ws) (cs : List Char) : colon (ws ++ ':' :: cs) = .ok cs := by
  have hskip : skipBlanks (ws ++ ':' :: cs) = ':' :: cs := h.skip_cons rfl cs
  rw [colon, hskip]
  rfl

/-- The members that are left, or the end of the object, follow a value. -/
theorem follows_following (texts : List (List Char)) (rest : List Char) :
    Follows (following texts ++ '\x7d' :: rest) := by
  cases texts with
  | nil => exact follows_cons (by decide) rest
  | cons text texts =>
      rw [following_cons]
      exact follows_cons (by decide) _

namespace Record

/-- Members that are read one after another: the value of a field that has not been read is
collected, and a value with another key is skipped. -/
inductive Filled {σ : Type} (fields : List (Field σ)) : σ → List Entry → σ → Prop
  | nil (s : σ) : Filled fields s [] s
  | field {s s' s'' : σ} {f : Field σ} {e : Entry} {entries : List Entry} :
      field? fields e.name = some f → f.isSet s = false → Takes (f.read s) e.value s' →
      Filled fields s' entries s'' → Filled fields s (e :: entries) s''
  | other {s s' : σ} {e : Entry} {entries : List Entry} : field? fields e.name = none →
      Value e.value → Filled fields s entries s' → Filled fields s (e :: entries) s'

section

variable {σ : Type} {fields : List (Field σ)} {s s' : σ} {e : Entry} {entries : List Entry}
  {fuel : Nat}

theorem members_blanks (h : Blanks ws) (fuel : Nat) (first : Bool) (s : σ) (cs : List Char) :
    members fields fuel first s (ws ++ cs) = members fields fuel first s cs := by
  cases fuel with
  | zero => rfl
  | succ fuel => rw [members, members, h.skip]

theorem string_key (h : e.Written) (cs : List Char) :
    string ('"' :: (e.key ++ '"' :: cs)) = .ok (e.name, cs) := by
  have hread := (takes_string (.mk h.key)).bare cs
  rw [List.cons_append, List.append_assoc] at hread
  exact hread

theorem member_field {f : Field σ} (h : e.Written) (hfield : field? fields e.name = some f)
    (hunset : f.isSet s = false) (hread : Takes (f.read s) e.value s') (rest : List Char) :
    member fields s (e.core rest) = .ok (s', rest) := by
  rw [Entry.core, member, string_key h]
  dsimp only [bind, Except.bind]
  rw [hfield]
  dsimp only
  rw [hunset, if_neg Bool.false_ne_true, colon_blanks h.afterKey]
  exact hread e.beforeValue rest h.beforeValue

theorem member_other (h : e.Written) (hfield : field? fields e.name = none)
    (hvalue : Value e.value) (hrest : Follows rest) :
    member fields s (e.core rest) = .ok (s, rest) := by
  rw [Entry.core, member, string_key h]
  dsimp only [bind, Except.bind]
  rw [hfield]
  dsimp only
  rw [colon_blanks h.afterKey]
  dsimp only
  rw [skip_value hvalue h.beforeValue hrest]
  rfl

/-- The first of the members is read, and the others are read after it. -/
theorem Filled.member {s'' : σ} (h : Filled fields s (e :: entries) s'') (he : e.Written) :
    ∃ s', (∀ rest, Follows rest → Record.member fields s (e.core rest) = .ok (s', rest)) ∧
      Filled fields s' entries s'' := by
  cases h with
  | field hfield hunset hread hrest =>
      exact ⟨_, fun rest _ => member_field he hfield hunset hread rest, hrest⟩
  | other hfield hvalue hrest =>
      exact ⟨s, fun rest hfollows => member_other he hfield hvalue hfollows, hrest⟩

/-- A member is read where the first may stand, or after a comma. -/
theorem members_entry (he : e.Written)
    (hmember : ∀ rest, Follows rest → Record.member fields s (e.core rest) = .ok (s', rest))
    (hrest : Follows rest) (first : Bool) :
    members fields (fuel + 1) first s ((if first then [] else [',']) ++ (e.text ++ rest)) =
      members fields fuel false s' rest := by
  have hread := hmember (e.after ++ rest) (follows_blanks he.after hrest)
  have hskip : skipBlanks (e.before ++ e.core (e.after ++ rest)) = e.core (e.after ++ rest) :=
    he.before.skip_cons rfl _
  rw [e.text_append, ← members_blanks he.after fuel false s' rest]
  cases first with
  | true => exact members_first hskip hread
  | false => exact members_next (skipBlanks_cons rfl _) hskip hread

theorem members_entries (h : Filled fields s entries s') (hentries : ∀ e ∈ entries, e.Written)
    (hrequired : (fields.all fun f => !f.required || f.isSet s') = true)
    (hfuel : entries.length < fuel) (rest : List Char) :
    members fields fuel false s (following (entries.map Entry.text) ++ '\x7d' :: rest) =
      .ok (s', rest) := by
  induction entries generalizing s fuel with
  | nil =>
      cases h
      obtain ⟨fuel, rfl⟩ := Nat.exists_eq_add_one_of_ne_zero (Nat.ne_zero_of_lt hfuel)
      exact members_close (skipBlanks_cons rfl rest) hrequired false
  | cons e entries ih =>
      obtain ⟨fuel, rfl⟩ := Nat.exists_eq_add_one_of_ne_zero (Nat.ne_zero_of_lt hfuel)
      obtain ⟨he, hothers⟩ := List.forall_mem_cons.mp hentries
      obtain ⟨s₁, hmember, hrest⟩ := h.member he
      rw [List.map_cons, following_cons]
      refine (members_entry he hmember (follows_following _ rest) false).trans ?_
      exact ih hrest hothers (Nat.lt_of_succ_lt_succ hfuel)

theorem members_object (h : Filled fields s entries s') (hentries : ∀ e ∈ entries, e.Written)
    (hrequired : (fields.all fun f => !f.required || f.isSet s') = true)
    (hfuel : entries.length < fuel) (rest : List Char) :
    members fields fuel true s (writeCommas (entries.map Entry.text) ++ '\x7d' :: rest) =
      .ok (s', rest) := by
  obtain ⟨fuel, rfl⟩ := Nat.exists_eq_add_one_of_ne_zero (Nat.ne_zero_of_lt hfuel)
  cases entries with
  | nil =>
      cases h
      exact members_close (skipBlanks_cons rfl rest) hrequired true
  | cons e entries =>
      obtain ⟨he, hothers⟩ := List.forall_mem_cons.mp hentries
      obtain ⟨s₁, hmember, hrest⟩ := h.member he
      rw [List.map_cons, writeCommas_cons]
      refine (members_entry he hmember (follows_following _ rest) true).trans ?_
      exact members_entries hrest hothers hrequired (Nat.lt_of_succ_lt_succ hfuel) rest

/-- **A record is read however it is presented**, if its members fill it. -/
theorem takes_record (h : Filled fields s entries s') (hentries : ∀ e ∈ entries, e.Written)
    (hrequired : (fields.all fun f => !f.required || f.isSet s') = true) :
    Takes (read fields s) (writeObject (entries.map Entry.text)) s' := by
  intro ws rest hws
  have hlength := length_le_writeCommas (entries.map Entry.text) '\x7d' rest
  rw [List.length_map] at hlength
  have htext : writeObject (entries.map Entry.text) ++ rest =
      '\x7b' :: (writeCommas (entries.map Entry.text) ++ '\x7d' :: rest) := by simp [writeObject]
  rw [htext, read, hws.skip_cons rfl]
  exact members_object h hentries hrequired (Nat.lt_succ_of_le hlength) rest

end

end Record

end PointQuery.Json
