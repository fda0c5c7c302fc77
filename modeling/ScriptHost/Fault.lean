import ScriptHost.Number.Decimal
import ScriptHost.Text.Utf16

/-!
# Faults

Everything that can stop an operation, as causes.  Each cause has a name for its class and one
message, and those that this library raises on its own account carry a code, a context and, when
they concern a manifest, a path.

* `Fault.exception` is the one cause that a script survives: a call that ends in it yields an error
  value.
* `SourceFault` lists what can be wrong with the text of a script.
* `ManifestProblem` lists what can be wrong with the shape of a manifest.
-/

namespace ScriptHost

/-- The codes that tell this library's own faults apart. -/
inductive FaultCode where
  | scriptNotParsed
  | functionNameRequired
  | functionAlreadyRegistered
  | configFileNotFound
  | configParseFailed
  | configInvalid
  deriving DecidableEq, Repr

namespace FaultCode

/-- Every code, in the order of its listing. -/
def all : List FaultCode :=
  [scriptNotParsed, functionNameRequired, functionAlreadyRegistered, configFileNotFound,
    configParseFailed, configInvalid]

/-- The text of a code. -/
def text : FaultCode → String
  | scriptNotParsed => "SCRIPT_NOT_PARSED"
  | functionNameRequired => "FUNCTION_NAME_REQUIRED"
  | functionAlreadyRegistered => "FUNCTION_ALREADY_REGISTERED"
  | configFileNotFound => "CONFIG_FILE_NOT_FOUND"
  | configParseFailed => "CONFIG_PARSE_FAILED"
  | configInvalid => "CONFIG_INVALID"

end FaultCode

/-- What can be wrong with the text of a script. -/
inductive SourceFault where
  | unterminatedString
  /-- A code unit that starts no token: a character, or the first half of one. -/
  | unexpectedUnit (unit : UInt16)
  | unexpectedToken (text : String)
  | unexpectedEnd
  | expectedName (found : String)
  | expectedToken (wanted found : String)
  | trailingInput (text : String)
  | notLiteral
  /-- A source that a replaying engine was told to refuse in the given phase. -/
  | refused (phase source : String)
  deriving DecidableEq, Repr

/-- The message of a source fault. -/
def SourceFault.message : SourceFault → String
  | unterminatedString => "Unterminated string"
  | unexpectedUnit unit => "Unexpected character '" ++ Utf16.shown [unit] ++ "'"
  | unexpectedToken text => "Unexpected token '" ++ text ++ "'"
  | unexpectedEnd => "Unexpected end of input"
  | expectedName found => "Expected name, got '" ++ found ++ "'"
  | expectedToken wanted found => "Expected '" ++ wanted ++ "', got '" ++ found ++ "'"
  | trailingInput text => "Trailing input in '" ++ text ++ "'"
  | notLiteral => "Literals cannot reference names"
  | refused phase source => phase ++ " " ++ source

/-- What can be wrong with the shape of a manifest. -/
inductive ManifestProblem where
  | topLevel
  | main
  | modules
  | modulePath (name : String)
  | variableMapping
  | debug
  | duplicateFunctions
  deriving DecidableEq, Repr

/-- The message of a manifest problem. -/
def ManifestProblem.message : ManifestProblem → String
  | topLevel => "top level must be a mapping"
  | main => "'main' must be a path"
  | modules => "'modules' must map names to paths"
  | modulePath name => "module '" ++ name ++ "' must be a path"
  | variableMapping => "'variables' must be a mapping"
  | debug => "'debug' must be true or false"
  | duplicateFunctions => "'duplicateFunctions' must be one of shadow, first, reject"

/-- The classes of error that host code raises with a message of its own. -/
inductive ErrorClass where
  | error
  | typeError
  | rangeError
  deriving DecidableEq, Repr

/-- The name of an error class. -/
def ErrorClass.name : ErrorClass → String
  | error => "Error"
  | typeError => "TypeError"
  | rangeError => "RangeError"

/-- Why an operation stopped. -/
inductive Fault where
  /-- A domain exception raised by a host function. -/
  | exception (message : String)
  /-- Any other error raised by host code. -/
  | raised (errorClass : ErrorClass) (message : String)
  /-- A script whose text cannot be read. -/
  | malformed (cause : SourceFault)
  | undefinedVariable (name : String)
  | unknownFunction (name : String)
  /-- Imports, or executions started from host functions, nested without end. -/
  | nestingTooDeep
  /-- An absent value has no display form. -/
  | absentValue
  /-- An object that has no text. -/
  | textlessObject
  /-- A symbol cannot be a part of a text. -/
  | symbolInText
  /-- Indentation below the margin. -/
  | negativeIndent (count : Int)
  | scriptNotParsed
  | functionNameRequired
  | functionAlreadyRegistered (name : String)
  /-- A file that a manifest names, as written there, and where it was looked for. -/
  | fileNotFound (specifier path : String)
  /-- A manifest, at the path given, that is not a readable document for a reason. -/
  | unreadableManifest (path reason : String)
  | invalidManifest (path : String) (problem : ManifestProblem)
  /-- A directory in the place of a file. -/
  | directoryRead
  deriving DecidableEq, Repr

namespace Fault

/-- The name of a fault's class. -/
def name : Fault → String
  | exception _ => "ScriptException"
  | raised errorClass _ => errorClass.name
  | malformed _ => "SyntaxError"
  | undefinedVariable _ => "ReferenceError"
  | unknownFunction _ => "Error"
  | nestingTooDeep => "RangeError"
  | absentValue => "TypeError"
  | textlessObject => "TypeError"
  | symbolInText => "TypeError"
  | negativeIndent _ => "RangeError"
  | scriptNotParsed => "ScriptError"
  | functionNameRequired => "ScriptError"
  | functionAlreadyRegistered _ => "ScriptError"
  | fileNotFound .. => "ConfigError"
  | unreadableManifest .. => "ConfigError"
  | invalidManifest .. => "ConfigError"
  | directoryRead => "Error"

/-- The message of a fault. -/
def message : Fault → String
  | exception text => text
  | raised _ text => text
  | malformed cause => cause.message
  | undefinedVariable name => "Undefined variable: " ++ name
  | unknownFunction name => "Unknown function: " ++ name
  | nestingTooDeep => "Maximum call stack size exceeded"
  | absentValue => "Cannot convert undefined or null to object"
  | textlessObject => "Cannot convert object to primitive value"
  | symbolInText => "Cannot convert a Symbol value to a string"
  | negativeIndent count => "Invalid count value: " ++ Decimal.integerText count
  | scriptNotParsed => "No program to execute: call parse() first"
  | functionNameRequired => "Anonymous functions need a name option to be registered"
  | functionAlreadyRegistered name => "Function '" ++ name ++ "' is already registered"
  | fileNotFound specifier _ => "File not found: " ++ specifier
  | unreadableManifest path reason => "Cannot parse manifest " ++ path ++ ": " ++ reason
  | invalidManifest path problem => "Invalid manifest " ++ path ++ ": " ++ problem.message
  | directoryRead => "EISDIR: illegal operation on a directory, read"

/-- The code of a fault that this library raises on its own account. -/
def code? : Fault → Option FaultCode
  | scriptNotParsed => some .scriptNotParsed
  | functionNameRequired => some .functionNameRequired
  | functionAlreadyRegistered _ => some .functionAlreadyRegistered
  | fileNotFound .. => some .configFileNotFound
  | unreadableManifest .. => some .configParseFailed
  | invalidManifest .. => some .configInvalid
  | _ => none

/-- The code that the file system gives a fault. -/
def systemCode? : Fault → Option String
  | directoryRead => some "EISDIR"
  | _ => none

/-- The path of a fault that concerns a manifest or one of its files. -/
def path? : Fault → Option String
  | fileNotFound _ path => some path
  | unreadableManifest path _ => some path
  | invalidManifest path _ => some path
  | _ => none

/-- The details that a fault carries besides its message. -/
def context? : Fault → Option (List (String × String))
  | functionAlreadyRegistered name => some [("functionName", name)]
  | fault => fault.path?.map fun path => [("path", path)]

end Fault

end ScriptHost
