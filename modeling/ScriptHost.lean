import ScriptHost.ErrorReport
import ScriptHost.Language.Evaluation
import ScriptHost.Manifest
import ScriptHost.Proofs.Bindings
import ScriptHost.Proofs.Codec.Canonical
import ScriptHost.Proofs.Codec.Keys
import ScriptHost.Proofs.Codec.Normal
import ScriptHost.Proofs.Display.Indentation
import ScriptHost.Proofs.Display.ReadBack
import ScriptHost.Proofs.Display.Totality
import ScriptHost.Proofs.Display.Unambiguity
import ScriptHost.Proofs.FunctionTable.Additions
import ScriptHost.Proofs.Language.Layout
import ScriptHost.Proofs.Language.Printing
import ScriptHost.Proofs.Manifest.Demands
import ScriptHost.Proofs.Manifest.Modules
import ScriptHost.Proofs.Manifest.Variables
import ScriptHost.Proofs.Number.Text
import ScriptHost.Proofs.Session.Construction
import ScriptHost.Proofs.Session.Debugging
import ScriptHost.Proofs.Session.Failure
import ScriptHost.Proofs.Session.Framing
import ScriptHost.Proofs.Session.Inlining
import ScriptHost.Proofs.Session.Literal
import ScriptHost.Proofs.Session.Loading
import ScriptHost.Proofs.Session.Lockstep
import ScriptHost.Proofs.Session.NamedArguments
import ScriptHost.Proofs.Session.Observation
import ScriptHost.Proofs.Session.Printing
import ScriptHost.Proofs.Session.Regularity
import ScriptHost.Proofs.Session.Termination
import ScriptHost.Replay
import ScriptHost.Session.Execution
import ScriptHost.StockFunction
