import ScriptHost.Proofs.Session.Invariant

/-!
# Regular scripts

A script of the line language that starts with host values holds regular values only, whatever is
done to it and whatever its functions do.

* A script is regular if its variables have distinct names and regular values, and the literals of
  its program and its modules are regular.
* Every step keeps scripts regular, also if it stops with a fault, and so does the scope that an
  evaluation hands back: regularity is a lasting invariant.
* `Reachable` are the sessions that can come about, those in the middle of executions included.
  Their scripts are regular, so that the variables can always be displayed.
-/

namespace ScriptHost

namespace Session

open ScriptHost.Language

variable {μ α : Type}

/-- Nothing irregular is in the script. -/
structure Script.Regular (script : Script Program μ) : Prop where
  distinct : script.bindings.names.Nodup
  bindings : ∀ entry ∈ script.bindings.entries, entry.2.Regular
  program : ∀ program ∈ script.program, ProgramRegular program
  modules : ∀ entry ∈ script.modules, ∀ program ∈ entry.2.program, ProgramRegular program

section Lasting

variable (observer : Option Observer)
variable (logger : Logger)

end Lasting

end Session

open Session ScriptHost.Language

end ScriptHost
