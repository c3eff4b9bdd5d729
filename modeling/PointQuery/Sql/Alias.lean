import PointQuery.Sql.Query
import PointQuery.Text.Basic
import PointQuery.Text.Word
/-!
# Aliases

The names under which the tables of a query are visible. A table may be written together with its
alias, `"places p"` or `"places AS p"`: the alias is then the last word of the text.
-/

namespace PointQuery.Sql

/-- The characters of the name under which a table is visible, from a text without blanks at its
ends: the word after the last run of blanks, if it is made of word characters and no line ends
before that run; otherwise the whole text. -/
def tableAliasChars (cs : List Char) : List Char :=
  let word := (cs.reverse.takeWhile fun c => !Text.isBlank c).reverse
  let before := (cs.reverse.dropWhile fun c => !Text.isBlank c).dropWhile Text.isBlank
  if word.length < cs.length ∧ word.all Text.isWord ∧ '\n' ∉ before then word else cs

/-- The name under which a table is visible. -/
def tableAlias (table : String) : String :=
  String.ofList (tableAliasChars (Text.trimChars table.toList))

namespace Query

/-- The name under which the source of a query is visible: its alias, or the visible name of its
table, or `table` if it has no source. -/
def sourceAlias (q : Query) (table : String) : String :=
  match q.source with
  | none => table
  | some (.derived _ label) => label
  | some (.table _ (some label)) => label
  | some (.table name none) => tableAlias name

/-- The names under which the joined tables are visible, in order. -/
def joinAliases (q : Query) : List String := q.joins.map fun j => tableAlias j.table

end Query

end PointQuery.Sql
