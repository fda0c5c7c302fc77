import ScriptHost.Yaml.Schema

/-!
# Nodes

The content of a document: scalars with what they mean, aliases, and collections.  Beside its
content a node keeps its anchor and its tag, and the comments and empty lines around it.
-/

namespace ScriptHost
namespace Yaml

/-- How a scalar is written. -/
inductive ScalarStyle where
  | plain
  | singleQuoted
  | doubleQuoted
  | block
  deriving DecidableEq, Repr

/-- A scalar. -/
structure Scalar where
  resolution : Resolution
  /-- Its text, whatever it means. -/
  text : List Char
  style : ScalarStyle

/-- What is written around a node. -/
structure Notes where
  anchor : Option String
  tag : Option String
  spaceBefore : Bool
  /-- The comment before it, empty if there is none. -/
  commentBefore : List Char
  /-- The comment after it, empty if there is none. -/
  comment : List Char

/-- Nothing written around a node. -/
def Notes.none : Notes := ⟨Option.none, Option.none, false, [], []⟩

/-- A node.  Wherever a collection has pairs, a missing value is no node at all. -/
inductive Node where
  | scalar (notes : Notes) (content : Scalar)
  | aliased (notes : Notes) (name : String)
  /-- A mapping; a set is one without values. -/
  | mapping (notes : Notes) (isSet : Bool) (pairs : List (Node × Option Node))
  | sequence (notes : Notes) (items : List Node)
  /-- A sequence of pairs; an ordered one is a mapping with keys of any kind. -/
  | pairList (notes : Notes) (ordered : Bool) (pairs : List (Node × Option Node))

namespace Node

/-- What is written around a node. -/
def notes : Node → Notes
  | scalar notes _ => notes
  | aliased notes _ => notes
  | mapping notes _ _ => notes
  | sequence notes _ => notes
  | pairList notes _ _ => notes

/-- Changes what is written around a node. -/
def annotate (f : Notes → Notes) : Node → Node
  | scalar notes content => scalar (f notes) content
  | aliased notes name => aliased (f notes) name
  | mapping notes isSet pairs => mapping (f notes) isSet pairs
  | sequence notes items => sequence (f notes) items
  | pairList notes ordered pairs => pairList (f notes) ordered pairs

/-- The anchor of a node; an alias has none. -/
def anchor? (node : Node) : Option String :=
  match node with
  | aliased _ _ => none
  | other => other.notes.anchor

/-- Is this a collection? -/
def isCollection : Node → Bool
  | scalar _ _ => false
  | aliased _ _ => false
  | _ => true

/-- Are two nodes the same as keys?  Only scalars are. -/
def sameKey : Node → Node → Bool
  | scalar _ a, scalar _ b => a.resolution.datum.same b.resolution.datum
  | _, _ => false

/-- Does a pair have no value, or null with nothing written around it? -/
def isKeyAlone : Option Node → Bool
  | none => true
  | some (.scalar notes content) =>
      content.resolution.datum == .null && notes.commentBefore.isEmpty && notes.comment.isEmpty &&
        notes.tag.isNone
  | some _ => false

/-- Is this a scalar? -/
def isScalar : Node → Bool
  | scalar _ _ => true
  | _ => false

/-- Adds a line to a comment. -/
def joinComment (comment more : List Char) : List Char :=
  if more.isEmpty then comment
  else if comment.isEmpty then more
  else comment ++ '\n' :: more

/-- Adds a line to the comment after a node. -/
def addComment (more : List Char) (node : Node) : Node :=
  node.annotate fun notes => { notes with comment := joinComment notes.comment more }

end Node

end Yaml
end ScriptHost
