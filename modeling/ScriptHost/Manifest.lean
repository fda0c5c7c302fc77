import ScriptHost.FileTree
import ScriptHost.Session.Basic
import ScriptHost.Yaml.Document

/-!
# Manifests

A manifest is a YAML document that names the parts of a script: the main source, the modules, the
initial variables and two settings.  Loading one reads every file that it names, relative to its own
directory.

* The parts are checked in a fixed order, and the first that is wrong decides the fault.
* `loadWith` takes the reader of documents as an argument; `load` uses YAML.
-/

namespace ScriptHost

/-- A manifest with the files that it names read. -/
structure Manifest where
  /-- The resolved path of the manifest. -/
  path : String
  source : Option String
  /-- The sources of the modules by name. -/
  modules : List (String × String)
  vars : List (String × HostValue)
  debug : Bool
  duplicateFunctions : Option DuplicatePolicy

/-- The properties that a value lists, if it is an object other than a list.  Those are the entries
of a record and the bytes of a buffer by their positions; other objects keep what they hold to
themselves. -/
def HostValue.properties? : HostValue → Option (List (String × HostValue))
  | record _ entries => some entries
  | bytes _ content =>
      some (content.mapIdx fun position byte => (position.repr, .number (.ofNat byte.toNat)))
  | mapping _ => some []
  | scope _ => some []
  | exception _ _ => some [("name", .text "ScriptException")]
  | reference _ (.object _ _) => some []
  | reference _ (.unclassed _ _) => some []
  | promise _ _ => some []
  | rejection _ _ => some []
  | _ => none

namespace Manifest

/-- The properties of a part that is an object, where nothing stands for an empty one. -/
def optionalRecord? : Option HostValue → Option (List (String × HostValue))
  | none => some []
  | some .absent => some []
  | some .null => some []
  | some value => value.properties?

/-- The truth value of a setting, where nothing stands for false. -/
def optionalFlag? : Option HostValue → Option Bool
  | none => some false
  | some .absent => some false
  | some .null => some false
  | some (.bool b) => some b
  | some _ => none

/-- The policy of a setting, which must be one of the known names if it is there. -/
def optionalPolicy? : Option HostValue → Option (Option DuplicatePolicy)
  | none => some none
  | some .absent => some none
  | some (.text name) =>
      (DuplicatePolicy.known.find? fun policy => policy.name == name).map some
  | some _ => none

/-- The text of a setting, which must be one if it is there. -/
def optionalText? : Option HostValue → Option (Option String)
  | none => some none
  | some .absent => some none
  | some (.text text) => some (some text)
  | some _ => none

/-- A part of a manifest, or the fault that it is not what it must be. -/
def require
    {α : Type}
    (manifest : String)
    (problem : ManifestProblem)
    (part : Option α) : Except Fault α :=
  match part with
  | some value => .ok value
  | none => .error (.invalidManifest manifest problem)

/-- The name that a module cannot be stored under. -/
def unstorableName : String := "__proto__"

/-- Reads the files of modules in order; a module whose name cannot be stored is read and
dropped. -/
def readModules (tree : FileTree) (directory : Path) (manifest : String) :
    List (String × HostValue) → Except Fault (List (String × String))
  | [] => .ok []
  | (name, value) :: rest =>
      match value with
      | .text specifier => do
          let source ← tree.read (directory.resolve specifier) specifier
          let others ← readModules tree directory manifest rest
          .ok (if name = unstorableName then others else (name, source) :: others)
      | _ => .error (.invalidManifest manifest (.modulePath name))

/-- Loads the manifest at a path, where `parse` reads documents or says why it cannot. -/
def loadWith
    (parse : String → Except String HostValue)
    (tree : FileTree)
    (manifest : String) : Except Fault Manifest := do
  let path := tree.root.resolve manifest
  let directory := path.parent
  let content ← tree.read path manifest
  let document ← (parse content).mapError fun reason => .unreadableManifest manifest reason
  let entries ← require manifest .topLevel (optionalRecord? (some document))
  let main ← require manifest .main (optionalText? (Entries.get? entries "main"))
  let source ← match main with
    | none => .ok none
    | some specifier => (tree.read (directory.resolve specifier) specifier).map some
  let moduleEntries ←
    require manifest .modules (optionalRecord? (Entries.get? entries "modules"))
  let modules ← readModules tree directory manifest moduleEntries
  let vars ←
    require manifest .variableMapping (optionalRecord? (Entries.get? entries "variables"))
  let debug ← require manifest .debug (optionalFlag? (Entries.get? entries "debug"))
  let policy ← require manifest .duplicateFunctions
    (optionalPolicy? (Entries.get? entries "duplicateFunctions"))
  .ok ⟨path.text, source, modules, vars, debug, policy⟩

/-- Loads the manifest at a path. -/
def load (tree : FileTree) (manifest : String) : Except Fault Manifest :=
  loadWith Yaml.document tree manifest

/-- The variables of a manifest with others that take precedence, in a record's order. -/
def variablesWith (manifest : Manifest) (others : List (String × HostValue)) :
    List (String × HostValue) :=
  (Entries.ofPairs (manifest.vars ++ others)).enumerate

/-- The policy that a manifest asks for. -/
def policy (manifest : Manifest) : DuplicatePolicy :=
  manifest.duplicateFunctions.getD .shadow

/-- The parts of a session for a manifest; functions and overriding variables come from
elsewhere. -/
def sessionOptions
    {μ : Type}
    (manifest : Manifest)
    (functions : List (Registration (HostFunction μ)))
    (others : List (String × HostValue)) : SessionOptions μ where
  source := manifest.source
  vars := .host (manifest.variablesWith others)
  functions := functions
  modules := manifest.modules

end Manifest

end ScriptHost
