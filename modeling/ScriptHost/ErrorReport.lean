import ScriptHost.HostValue.Display

/-!
# Error reports

Errors as a host application builds and shows them: errors with a code and a context, errors about a
configuration file, and exceptions that scripts survive.
-/

namespace ScriptHost

/-- The classes of error that a host application builds. -/
inductive ReportClass where
  /-- An error with details; there may be none. -/
  | script (context : Option (List (String × HostValue)))
  /-- An error about the configuration file at a path. -/
  | config (path : String)
  | exception
  deriving Inhabited

/-- An error as a host application builds it. -/
structure ErrorReport where
  reportClass : ReportClass
  code : String
  message : String
  /-- The message of what caused it. -/
  cause : Option String

namespace ErrorReport

/-- The name of the error's class. -/
def name (report : ErrorReport) : String :=
  match report.reportClass with
  | .script _ => "ScriptError"
  | .config _ => "ConfigError"
  | .exception => "ScriptException"

/-- Name and message, or the name alone if the message is empty. -/
def text (report : ErrorReport) : String :=
  if report.message = "" then report.name else report.name ++ ": " ++ report.message

/-- Does the error carry a code? -/
def isScriptError (report : ErrorReport) : Bool :=
  match report.reportClass with
  | .exception => false
  | _ => true

/-- The path that the error is about. -/
def path? (report : ErrorReport) : Option String :=
  match report.reportClass with
  | .config path => some path
  | _ => none

/-- The details of the error; an error about a file has the path as its only detail. -/
def context? (report : ErrorReport) : Option (List (String × HostValue)) :=
  match report.reportClass with
  | .script context => context
  | .config path => some [("path", .text path)]
  | .exception => none

/-- The cause, which exceptions do not keep. -/
def cause? (report : ErrorReport) : Option String :=
  match report.reportClass with
  | .exception => none
  | _ => report.cause

/-- Code, message and the names of the details in one line. -/
def summary (report : ErrorReport) : String :=
  let details := match report.context? with
    | some entries => String.intercalate "," (Entries.names entries)
    | none => "no context"
  "[" ++ report.code ++ "] " ++ report.message ++ " (" ++ details ++ ")"

end ErrorReport

end ScriptHost
