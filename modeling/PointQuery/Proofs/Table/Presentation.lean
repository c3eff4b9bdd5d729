import PointQuery.Proofs.Json.Presented
import PointQuery.Table.Json
/-!
# Tables however they are presented

The texts that present a table, and that each of them is read as it: `ofJson_presented`. Which
members an object has is said of the members with one key at a time, so their order does not
matter, nor do the members with other keys that stand among them. The compact text of a table is one
of them, so what is written is read back: `ofJson_toJson`.
-/

namespace PointQuery

open Json Record

/-! ## Columns -/

namespace Column

/-- **The texts that present a column**: objects that give its fields, where an empty type and the
mark of no point may be left out, among members with other keys and values of any kind. -/
inductive Presented (c : Column) : List Char → Prop
  | mk {entries : List Entry} : (∀ e ∈ entries, e.Written) →
      Gives entries "name" StringText none c.name →
      Gives entries "type" StringText (some "") c.dataType →
      Gives entries "point" BoolText (some false) c.point →
      (∀ e ∈ entries, e.name ∉ ["name", "type", "point"] → Value e.value) →
      Presented c (writeObject (entries.map Entry.text))

variable {c : Column} {entries : List Entry}

/-- The members fill what is still to come of the fields. -/
theorem exists_filled (d : Draft) (hname : Owed entries "name" StringText none c.name d.name)
    (htype : Owed entries "type" StringText (some "") c.dataType d.dataType)
    (hpoint : Owed entries "point" BoolText (some false) c.point d.point)
    (hothers : ∀ e ∈ entries, e.name ∉ ["name", "type", "point"] → Value e.value) :
    ∃ d', Filled fields d entries d' ∧ d'.name = some c.name ∧ d'.column = c := by
  induction entries generalizing d with
  | nil =>
      have hcolumn : d.column = c := by
        simp only [Draft.column, hname.eq_some, htype.getD, hpoint.getD, Option.getD_some]
      exact ⟨d, .nil d, hname.eq_some, hcolumn⟩
  | cons e entries ih =>
      obtain ⟨hother, hothers⟩ := List.forall_mem_cons.mp hothers
      by_cases hn : e.name = "name"
      · obtain ⟨hunset, hvalue, hname⟩ := hname.self hn
        obtain ⟨d', hfilled, hd'⟩ := ih { d with name := some c.name } hname
          (htype.other (by simp [hn])) (hpoint.other (by simp [hn])) hothers
        have hread := (takes_string hvalue).map fun name => { d with name := some name }
        exact ⟨d', .field (by rw [hn]; rfl) (by simp [hunset]) hread hfilled, hd'⟩
      by_cases ht : e.name = "type"
      · obtain ⟨hunset, hvalue, htype⟩ := htype.self ht
        obtain ⟨d', hfilled, hd'⟩ := ih { d with dataType := some c.dataType }
          (hname.other (by simp [ht])) htype (hpoint.other (by simp [ht])) hothers
        have hread := (takes_string hvalue).map fun dataType => { d with dataType := some dataType }
        exact ⟨d', .field (by rw [ht]; rfl) (by simp [hunset]) hread hfilled, hd'⟩
      by_cases hp : e.name = "point"
      · obtain ⟨hunset, hvalue, hpoint⟩ := hpoint.self hp
        obtain ⟨d', hfilled, hd'⟩ := ih { d with point := some c.point }
          (hname.other (by simp [hp])) (htype.other (by simp [hp])) hpoint hothers
        have hread := (takes_bool hvalue).map fun point => { d with point := some point }
        exact ⟨d', .field (by rw [hp]; rfl) (by simp [hunset]) hread hfilled, hd'⟩
      · obtain ⟨d', hfilled, hd'⟩ := ih d (hname.other hn) (htype.other ht) (hpoint.other hp)
          hothers
        have hnone : field? fields e.name = none := by
          simp [field?, fields, Ne.symm hn, Ne.symm ht, Ne.symm hp]
        have hvalue : Value e.value := hother (by simp [hn, ht, hp])
        exact ⟨d', .other hnone hvalue hfilled, hd'⟩

/-- A column is read however it is presented. -/
theorem takes_json {text : List Char} (h : c.Presented text) : Takes json text c := by
  cases h with
  | @mk entries hwritten hname htype hpoint hothers =>
      obtain ⟨d, hfilled, hset, hcolumn⟩ := exists_filled {} hname htype hpoint hothers
      have hrequired : (fields.all fun f => !f.required || f.isSet d) = true := by
        simp [fields, hset]
      rw [← hcolumn]
      exact (takes_record hfilled hwritten hrequired).map Draft.column

theorem Presented.startsItem {text : List Char} (h : c.Presented text) : StartsItem text := by
  obtain ⟨-⟩ := h
  exact ⟨'\x7b', _, rfl, rfl, by decide⟩

/-- The compact text of a column presents it. -/
theorem presented_toJson (c : Column) : c.Presented c.toJson := by
  have htext : c.toJson = writeObject ([.compact "name" (writeString c.name),
      .compact "type" (writeString c.dataType), .compact "point" (writeBool c.point)].map
        Entry.text) := by
    simp only [toJson, List.map_cons, List.map_nil, Entry.text_compact]
  rw [htext]
  refine .mk ?_ (stringText_writeString c.name) (stringText_writeString c.dataType)
    (boolText_writeBool c.point) ?_
  · simp [Entry.written_compact]
  · simp [Entry.compact]

end Column

/-! ## Tables -/

namespace Table

/-- **The texts that present a table**: objects that give its fields, with any blanks around them,
where the list of no columns may be left out, among members with other keys and values of any
kind. -/
inductive Presented (t : Table) : List Char → Prop
  | mk {ws ws' : List Char} {entries : List Entry} : Blanks ws → Blanks ws' →
      (∀ e ∈ entries, e.Written) →
      Gives entries "name" StringText none t.name →
      Gives entries "columns" (ListText Column.Presented) (some []) t.columns →
      (∀ e ∈ entries, e.name ∉ ["name", "columns"] → Value e.value) →
      Presented t (ws ++ (writeObject (entries.map Entry.text) ++ ws'))

variable {t : Table} {entries : List Entry}

theorem takes_columns {columns : List Column} {text : List Char}
    (h : ListText Column.Presented columns text) : Takes (list Column.json) text columns :=
  takes_list h (fun _ _ h => h.startsItem) (fun _ _ h => Column.takes_json h)

/-- The members fill what is still to come of the fields. -/
theorem exists_filled (d : Draft) (hname : Owed entries "name" StringText none t.name d.name)
    (hcolumns : Owed entries "columns" (ListText Column.Presented) (some []) t.columns d.columns)
    (hothers : ∀ e ∈ entries, e.name ∉ ["name", "columns"] → Value e.value) :
    ∃ d', Filled fields d entries d' ∧ d'.name = some t.name ∧ d'.table = t := by
  induction entries generalizing d with
  | nil =>
      have htable : d.table = t := by
        simp only [Draft.table, hname.eq_some, hcolumns.getD, Option.getD_some]
      exact ⟨d, .nil d, hname.eq_some, htable⟩
  | cons e entries ih =>
      obtain ⟨hother, hothers⟩ := List.forall_mem_cons.mp hothers
      by_cases hn : e.name = "name"
      · obtain ⟨hunset, hvalue, hname⟩ := hname.self hn
        obtain ⟨d', hfilled, hd'⟩ := ih { d with name := some t.name } hname
          (hcolumns.other (by simp [hn])) hothers
        have hread := (takes_string hvalue).map fun name => { d with name := some name }
        exact ⟨d', .field (by rw [hn]; rfl) (by simp [hunset]) hread hfilled, hd'⟩
      by_cases hc : e.name = "columns"
      · obtain ⟨hunset, hvalue, hcolumns⟩ := hcolumns.self hc
        obtain ⟨d', hfilled, hd'⟩ := ih { d with columns := some t.columns }
          (hname.other (by simp [hc])) hcolumns hothers
        have hread := (takes_columns hvalue).map fun columns => { d with columns := some columns }
        exact ⟨d', .field (by rw [hc]; rfl) (by simp [hunset]) hread hfilled, hd'⟩
      · obtain ⟨d', hfilled, hd'⟩ := ih d (hname.other hn) (hcolumns.other hc) hothers
        have hnone : field? fields e.name = none := by
          simp [field?, fields, Ne.symm hn, Ne.symm hc]
        have hvalue : Value e.value := hother (by simp [hn, hc])
        exact ⟨d', .other hnone hvalue hfilled, hd'⟩

/-- The compact text of a table presents it, so each table has a text that does. -/
theorem presented_toJson (t : Table) : t.Presented t.toJson.toList := by
  have htext : t.toJson.toList = [] ++ (writeObject ([.compact "name" (writeString t.name),
      .compact "columns" (writeList (t.columns.map Column.toJson))].map Entry.text) ++ []) := by
    simp only [toJson, String.toList_ofList, List.map_cons, List.map_nil, Entry.text_compact,
      List.nil_append, List.append_nil]
  rw [htext]
  refine .mk .nil .nil ?_ (stringText_writeString t.name)
    (listText_writeList fun c _ => c.presented_toJson) ?_
  · simp [Entry.written_compact]
  · simp [Entry.compact]

/-- The reader takes the text of a table but for the blanks around it. -/
theorem Presented.exists_takes {text : List Char} (h : t.Presented text) :
    ∃ ws object ws', Blanks ws ∧ Blanks ws' ∧ text = ws ++ (object ++ ws') ∧
      Takes json object t := by
  cases h with
  | @mk ws ws' entries hws hws' hwritten hname hcolumns hothers =>
      obtain ⟨d, hfilled, hset, htable⟩ := exists_filled {} hname hcolumns hothers
      have hrequired : (fields.all fun f => !f.required || f.isSet d) = true := by
        simp [fields, hset]
      have hread : Takes json (writeObject (entries.map Entry.text)) d.table :=
        (takes_record hfilled hwritten hrequired).map Draft.table
      exact ⟨ws, _, ws', hws, hws', rfl, htable ▸ hread⟩

/-- **A table is read however it is presented**: whatever the order of the members of each object,
whatever stands among them under other keys, whether or not what may be left out is, and whatever
blanks stand between the tokens. -/
theorem ofJson_presented {text : String} (h : t.Presented text.toList) : ofJson text = .ok t := by
  obtain ⟨ws, object, ws', hws, hws', htext, htakes⟩ := h.exists_takes
  exact htakes.whole hws hws' htext

/-- **Reading undoes writing.** A table that is written as compact JSON is read back as it is, with
all its columns and marks, and whatever the characters of its names and types. -/
theorem ofJson_toJson (t : Table) : ofJson t.toJson = .ok t := by
  obtain ⟨ws, object, ws', hws, hws', htext, htakes⟩ := t.presented_toJson.exists_takes
  exact htakes.whole hws hws' htext

/-! ## A table with its members in another order -/

/-- A point column and another one. -/
def mines : Table := ⟨"mines", [⟨"shaft", "", true⟩, ⟨"id", "", false⟩]⟩

/-- The members of the point column: its mark first, and a letter of the key of its name given by
its number. -/
def shaftEntries : List Entry :=
  [{ name := "point", key := "point".toList, beforeValue := [' '], value := "true".toList },
   { name := "name", before := [' '], key := "n\\u0061me".toList, beforeValue := [' ']
     value := "\"shaft\"".toList }]

/-- The only member of the other column. -/
def idEntries : List Entry :=
  [{ name := "name", key := "name".toList, beforeValue := [' '], value := "\"id\"".toList }]

/-- The two columns, with a blank before each and one after the last. -/
def minesColumns : List Char :=
  [' '] ++ (writeObject (shaftEntries.map Entry.text) ++ ([] ++ ',' ::
    ([' '] ++ (writeObject (idEntries.map Entry.text) ++ [' ']))))

/-- The members of the table: the columns first, and an owner, which no field takes. -/
def minesEntries : List Entry :=
  [{ name := "columns", key := "columns".toList, beforeValue := [' ']
     value := '[' :: (minesColumns ++ [']']) },
   { name := "owner", before := "\n  ".toList, key := "owner".toList, beforeValue := [' ']
     value := "\x7b\"since\": [-1.5e2, null], \"\\ud800\": \x7b\x7d\x7d".toList },
   { name := "name", before := [' '], key := "name".toList, afterKey := ['\t']
     value := "\"mines\"".toList }]

/-- The text of these members. -/
def minesText : String :=
  "\x7b\"columns\": [ \x7b\"point\": true, \"n\\u0061me\": \"shaft\"\x7d," ++
  " \x7b\"name\": \"id\"\x7d ],\n  \"owner\": \x7b\"since\": [-1.5e2, null]," ++
  " \"\\ud800\": \x7b\x7d\x7d, \"name\"\t:\"mines\"\x7d\n"

theorem shaft_presented : Column.Presented ⟨"shaft", "", true⟩
    (writeObject (shaftEntries.map Entry.text)) := by
  have hunit : CodeUnit ['0', '0', '6', '1'] 'a'.toNat :=
    @CodeUnit.mk '0' '0' '6' '1' 0 0 6 1 (.inl rfl) (.inl rfl) (.inl rfl) (.inl rfl)
  have hkey : Spells "n\\u0061me".toList "name".toList :=
    .plain (by decide) (.unit hunit (spells_plain (by decide)))
  have hname : StringText "shaft" "\"shaft\"".toList := .mk (spells_plain (by decide))
  refine .mk ?_ hname rfl .yes (by simp [shaftEntries])
  refine List.forall_mem_cons.mpr ⟨?_, List.forall_mem_singleton.mpr ?_⟩
  · exact Entry.written_plain rfl (by decide) (by decide)
  · exact ⟨by decide, hkey, by decide, by decide, by decide⟩

theorem id_presented : Column.Presented ⟨"id", "", false⟩
    (writeObject (idEntries.map Entry.text)) := by
  have hname : StringText "id" "\"id\"".toList := .mk (spells_plain (by decide))
  refine .mk (List.forall_mem_singleton.mpr ?_) hname rfl rfl (by simp [idEntries])
  exact Entry.written_plain rfl (by decide) (by decide)

/-- The owner's number, word and lone surrogate are a value. -/
theorem value_owner :
    Value "\x7b\"since\": [-1.5e2, null], \"\\ud800\": \x7b\x7d\x7d".toList := by
  have hblank : Blanks [' '] := by decide
  have hnumber : Unsigned (['1'] ++ (['.', '5'] ++ 'e' :: ([] ++ ['2']))) :=
    .mk (.digits (List.forall_mem_singleton.mpr rfl) (by decide))
      (.present (List.forall_mem_singleton.mpr rfl))
      (.present (.inl rfl) .absent (List.forall_mem_singleton.mpr rfl) (by decide))
  have hlist : Value "[-1.5e2, null]".toList :=
    .list (.items (.item .nil (.scalar (.minus hnumber)) .nil) (.item hblank (.scalar .null) .nil))
  have hsurrogate : CodeUnit ['d', '8', '0', '0'] 0xd800 :=
    @CodeUnit.mk 'd' '8' '0' '0' 13 8 0 0 (.inl rfl) (.inl rfl) (.inl rfl) (.inl rfl)
  have hsince : Characters "since".toList := (spells_plain (by decide)).characters
  exact .object (.members (.member .nil hsince .nil hblank hlist .nil)
    (.member hblank (.unit hsurrogate .nil) .nil hblank (.emptyObject .nil) .nil))

theorem mines_presented : mines.Presented minesText.toList := by
  have hblank : Blanks [' '] := by decide
  have hname : StringText "mines" "\"mines\"".toList := .mk (spells_plain (by decide))
  have hcolumns : ListText Column.Presented mines.columns ('[' :: (minesColumns ++ [']'])) :=
    .items (.cons hblank shaft_presented .nil (.last hblank id_presented hblank))
  have htext : minesText.toList = [] ++ (writeObject (minesEntries.map Entry.text) ++ ['\n']) := by
    decide +kernel
  rw [htext]
  refine .mk .nil (by decide) ?_ hname hcolumns ?_
  · refine List.forall_mem_cons.mpr ⟨?_, List.forall_mem_cons.mpr ⟨?_,
      List.forall_mem_singleton.mpr ?_⟩⟩
    · exact Entry.written_plain rfl (by decide) (by decide)
    · exact Entry.written_plain rfl (by decide) (by decide)
    · exact Entry.written_plain rfl (by decide) (by decide)
  · refine List.forall_mem_cons.mpr ⟨?_, List.forall_mem_cons.mpr ⟨?_,
      List.forall_mem_singleton.mpr ?_⟩⟩
    · exact fun h => absurd h (by decide)
    · exact fun _ => value_owner
    · exact fun h => absurd h (by decide)

/-- The table is read from the text. -/
theorem ofJson_minesText : mines.Presented minesText.toList ∧ ofJson minesText = .ok mines :=
  ⟨mines_presented, ofJson_presented mines_presented⟩

end Table

end PointQuery
