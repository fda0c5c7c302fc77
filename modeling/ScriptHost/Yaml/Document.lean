import ScriptHost.Yaml.Construction
import ScriptHost.Yaml.Lexeme.Scan
import ScriptHost.Yaml.Node.OfTree
import ScriptHost.Yaml.Tree.Builder

/-!
# YAML documents

`document?` reads a text that is one YAML document as a host value.  The text is cut into lexemes,
the lexemes are arranged into a syntax tree, the tree gives nodes, and the nodes give the value; a
text that fails on the way is refused.  A text without a document stands for null.  Where it fails
is not told apart: `document` gives one reason for every text that is refused.
-/

namespace ScriptHost
namespace Yaml

/-- The value of what a text consists of. -/
def StreamTree.toHost? (tree : StreamTree) : Option HostValue := do
  let directives ← tree.directives.foldlM Directives.add? Directives.none
  let _ ← tree.laterDirectives.foldlM Directives.add? Directives.none
  let _ ← afterNode? true 0 tree.afterEnd
  match tree.document with
  | none => if tree.directives.isEmpty then some .null else none
  | some document =>
      let node ← Node.ofDocument? directives (!tree.directives.isEmpty) document
      node.toHost? directives

/-- The value of a text, if it is exactly one readable document. -/
def document? (text : String) : Option HostValue := do
  let tree ← StreamTree.ofLexemes? (scan text.toList)
  tree.toHost?

/-- The value of a text, or why there is none. -/
def document (text : String) : Except String HostValue :=
  match document? text with
  | some value => .ok value
  | none => .error "not a readable document"

end Yaml
end ScriptHost
