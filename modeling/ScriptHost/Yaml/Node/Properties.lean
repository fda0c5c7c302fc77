import ScriptHost.Yaml.Tree.Basic

/-!
# The tokens around a node

The tokens before a node hold its anchor, its tag and the mark that introduces it, and comments and
empty lines between these; those after a node may only be blanks, comments and line breaks.

* `Properties.read?` sorts out the tokens before a node, and refuses them where they are out of
  order, stick together, or use a tab for indentation.
* `afterNode?` reads the tokens after a node.
-/

namespace ScriptHost
namespace Yaml

/-- What stands before a node. -/
structure Properties where
  comma : Option Token
  /-- The mark that introduces the node. -/
  mark : Option Token
  spaceBefore : Bool
  comment : List Char
  hasNewline : Bool
  anchor : Option Token
  tag : Option Token
  /-- The last line break after the anchor or the tag. -/
  newlineAfter : Option Token
  /-- Where the anchor or the tag starts, whichever is first, or else the node. -/
  start : Nat
  stop : Nat

/-- What comes after the tokens before a node. -/
inductive Follower where
  | nothing
  | token (kind : LexemeKind)
  | tree (tree : Tree)

namespace Follower

/-- The follower that is a node, or else the first of these tokens. -/
def ofTree (tree : Option Tree) (otherwise : List Token) : Follower :=
  match tree, otherwise with
  | some t, _ => .tree t
  | none, t :: _ => .token t.kind
  | none, [] => .nothing

/-- Must there be a gap between an anchor or a tag and this? -/
def needsGap : Follower → Bool
  | nothing => false
  | token .space => false
  | token .newline => false
  | token .comma => false
  | token _ => true
  | tree (.inline scalar) => !(scalar.kind == .scalar && scalar.text.isEmpty)
  | tree _ => true

/-- Is this a flow collection? -/
def isFlow : Follower → Bool
  | tree (.flow ..) => true
  | _ => false

/-- Is this a collection in block form? -/
def isBlockCollection : Follower → Bool
  | tree t => t.isBlockCollection
  | _ => false

end Follower

/-- The circumstances under which tokens are sorted out. -/
structure Circumstances where
  /-- Is the node in a flow collection? -/
  inFlow : Bool
  /-- The kind of mark that introduces the node. -/
  mark : LexemeKind
  follower : Follower
  /-- Where the tokens start. -/
  offset : Nat
  /-- The indentation of the collection that the node is in. -/
  outerIndent : Nat
  /-- Do the tokens come first on their line? -/
  onNewLine : Bool

namespace Properties

/-- How far the sorting has come. -/
structure Progress where
  found : Properties
  /-- The place where an anchor or a tag was first met. -/
  start : Option Nat
  atNewLine : Bool
  hasSpace : Bool
  needsSpace : Bool
  /-- Blanks with a tab among them, if nothing came after them yet. -/
  tab : Option Token
  /-- The line breaks after the comment so far. -/
  gap : List Char

/-- The text of a comment without its mark; an empty one counts as a blank. -/
def commentText (text : List Char) : List Char :=
  if text.tail.isEmpty then [' '] else text.tail

/-- Notes an anchor or a tag. -/
def Progress.named (p : Progress) (found : Properties) (token : Token) : Progress :=
  { p with
    found := found
    start := p.start.or (some token.offset)
    atNewLine := false
    hasSpace := false
    needsSpace := true }

/-- Takes a token in. -/
def Progress.take? (c : Circumstances) (p : Progress) (token : Token) : Option Progress :=
  let found := p.found
  let isGap := token.kind == .space || token.kind == .newline || token.kind == .comma
  let isOver := token.kind == .comment || token.kind == .newline
  if (p.needsSpace && !isGap) || (p.tab.isSome && p.atNewLine && !isOver) then none
  else
    let p := { p with needsSpace := false, tab := none }
    match token.kind with
    | .space =>
        let matters := !c.inFlow && !(c.mark == .documentStart && c.follower.isFlow) &&
          token.text.contains '\t'
        some { p with hasSpace := true, tab := if matters then some token else none }
    | .comment =>
        if !p.hasSpace then none
        else
          let text := commentText token.text
          let comment :=
            if found.comment.isEmpty then text else found.comment ++ p.gap ++ text
          some { p with
            found := { found with comment := comment }
            gap := []
            atNewLine := false }
    | .newline =>
        let found := { found with
          hasNewline := true
          newlineAfter :=
            if found.anchor.isSome || found.tag.isSome then some token else found.newlineAfter }
        let next := { p with atNewLine := true, hasSpace := true }
        if !p.atNewLine then some { next with found := found, gap := p.gap ++ token.text }
        else if !found.comment.isEmpty then
          some { next with found := { found with comment := found.comment ++ token.text } }
        else if found.mark.isNone || c.mark != .dash then
          some { next with found := { found with spaceBefore := true } }
        else some { next with found := found }
    | .anchor =>
        if found.anchor.isSome then none
        else some (p.named { found with anchor := some token } token)
    | .tag =>
        if found.tag.isSome then none
        else some (p.named { found with tag := some token } token)
    | kind =>
        if kind = c.mark then
          if found.anchor.isSome || found.tag.isSome || found.mark.isSome then none
          else some { p with
            found := { found with mark := some token }
            atNewLine := c.mark == .dash || c.mark == .question
            hasSpace := false }
        else if kind = .comma && c.inFlow && found.comma.isNone then
          some { p with
            found := { found with comma := some token }
            atNewLine := false
            hasSpace := false }
        else none

/-- Sorts out the tokens before a node. -/
def read? (c : Circumstances) (tokens : List Token) : Option Properties := do
  let nothing : Properties := ⟨none, none, false, [], false, none, none, none, 0, 0⟩
  let p ← tokens.foldlM (fun p token => p.take? c token)
    (⟨nothing, none, c.onNewLine, c.onNewLine, false, none, []⟩ : Progress)
  let stop := (tokens.getLast?.map Token.stop).getD c.offset
  let tabMisused := p.tab.any fun tab =>
    (p.atNewLine && tab.indent ≤ c.outerIndent) || c.follower.isBlockCollection
  if (p.needsSpace && c.follower.needsGap) || tabMisused then none
  else some { p.found with start := p.start.getD stop, stop := stop }

end Properties

/-- Reads the tokens after a node: the comment among them, and where they end.  With `apart` a
comment must be set off by a gap. -/
def afterNode? (apart : Bool) (offset : Nat) (tokens : List Token) : Option (List Char × Nat) :=
  go false [] [] offset tokens
where
  /-- Goes on after a gap or not, with the comment so far and the line breaks after it. -/
  go (spaced : Bool) (comment gap : List Char) (offset : Nat) :
      List Token → Option (List Char × Nat)
    | [] => some (comment, offset)
    | token :: rest =>
        let next := offset + units token.text
        match token.kind with
        | .space => go true comment gap next rest
        | .newline => go true comment (if comment.isEmpty then gap else gap ++ token.text) next rest
        | .comment =>
            if apart && !spaced then none
            else
              let text := Properties.commentText token.text
              go spaced (if comment.isEmpty then text else comment ++ gap ++ text) [] next rest
        | _ => none

end Yaml
end ScriptHost
