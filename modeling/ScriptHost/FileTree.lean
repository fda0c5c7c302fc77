import ScriptHost.Fault
import ScriptHost.Text.Utf8

/-!
# File trees

The files that a manifest can name.  Paths are worked out by their text alone, before any file is
looked at: empty parts and single dots go, and two dots take back the part before them.

* `Path.resolve` follows a path from a directory; a path that starts with a slash starts at the top.
* `FileTree.read` reads a file as text.
-/

namespace ScriptHost

/-- A path from the top of the file system. -/
structure Path where
  parts : List String
  deriving DecidableEq

namespace Path

/-- The top of the file system. -/
def top : Path := ⟨[]⟩

/-- The text of a path. -/
def text (path : Path) : String :=
  "/" ++ String.intercalate "/" path.parts

/-- The directory that holds a path; nothing is above the top. -/
def parent (path : Path) : Path :=
  ⟨path.parts.dropLast⟩

/-- Follows one part of a path. -/
def follow (path : Path) (part : String) : Path :=
  if part = "" || part = "." then path
  else if part = ".." then path.parent
  else ⟨path.parts ++ [part]⟩

/-- The parts of a text between its slashes. -/
def split : List Char → List (List Char)
  | [] => [[]]
  | '/' :: rest => [] :: split rest
  | c :: rest =>
      match split rest with
      | first :: others => (c :: first) :: others
      | [] => [[c]]

/-- The path that a text names when it is read in a directory. -/
def resolve (directory : Path) (text : String) : Path :=
  let start := if text.toList.head? == some '/' then top else directory
  (split text.toList).foldl (fun path part => path.follow (String.ofList part)) start

end Path

/-- What stands at a path. -/
inductive FileNode where
  | file (content : List UInt8)
  | directory
  | missing

/-- Files and directories, and the working directory. -/
structure FileTree where
  /-- The working directory. -/
  root : Path
  /-- The files; of two at one path the last counts. -/
  files : List (Path × List UInt8)
  /-- Directories besides the working directory and those that hold others. -/
  directories : List Path

namespace FileTree

/-- A tree of files and directories given by their paths in the working directory. -/
def ofPaths
    (workingDirectory : String)
    (files : List (String × List UInt8))
    (directories : List String) : FileTree :=
  let root := Path.top.resolve workingDirectory
  { root := root
    files := files.map fun file => (root.resolve file.1, file.2)
    directories := directories.map root.resolve }

/-- Does a path lead to the other? -/
def leadsTo (path other : Path) : Bool :=
  path.parts.isPrefixOf other.parts

/-- What stands at a path. -/
def node (tree : FileTree) (path : Path) : FileNode :=
  match tree.files.reverse.find? fun file => file.1 == path with
  | some file => .file file.2
  | none =>
      if leadsTo path tree.root || tree.files.any (fun file => leadsTo path file.1) ||
          tree.directories.any (leadsTo path) then .directory
      else .missing

/-- Reads the file at a path as text; `specifier` is how the path was written. -/
def read (tree : FileTree) (path : Path) (specifier : String) : Except Fault String :=
  match tree.node path with
  | .file content => .ok (Utf8.decode content)
  | .directory => .error .directoryRead
  | .missing => .error (.fileNotFound specifier path.text)

end FileTree

end ScriptHost
