import ScriptHost.Yaml.Node.ScalarText

/-!
# Writing nodes

The text of a collection in flow form, which is the name of an entry whose key is a collection.  A
collection is written on one line if it fits and has no comments, and else one item a line.
-/

namespace ScriptHost
namespace Yaml
namespace Node

/-- What a node is written into. -/
structure Setting where
  directives : Directives
  indent : Nat
  isKey : Bool
  taken : Option Nat

/-- Can this be the name of an anchor? -/
def isAnchorName (name : String) : Bool :=
  name.toList.all fun c => !(c.toNat ≤ 0x19 || Directives.isWhite c || isFlowMark c)

/-- The anchor and the tag of a node as they are written before it. -/
def propertiesText (directives : Directives) (notes : Notes) : List Char :=
  let anchor := notes.anchor.elim [] fun name => [("&" ++ name).toList]
  let tag := notes.tag.elim [] fun name => [(directives.tagText name).toList]
  List.intercalate [' '] (anchor ++ tag)

/-- How much of a line is taken once the properties of a node are written. -/
def takenAfter (directives : Directives) (taken : Option Nat) (notes : Notes) : Option Nat :=
  let text := propertiesText directives notes
  if text.isEmpty then taken else some (taken.getD 0 + units text + 1)

/-- Does this character end a line of a comment? -/
def endsLine (c : Char) : Bool := c == '\n' || c == '\r' || c == '\u2028' || c == '\u2029'

/-- A comment with its marks: one at the start of each line that holds something, where a line with
a single blank counts as empty. -/
def markComment (comment : List Char) : List Char :=
  go true comment
where
  /-- Goes on at the start of a line or within one. -/
  go : Bool → List Char → List Char
    | _, [] => []
    | true, c :: rest =>
        if endsLine c then c :: go true rest
        else if c = ' ' && (rest.isEmpty || rest.head?.any endsLine) then '#' :: go false rest
        else '#' :: c :: go false rest
    | false, c :: rest => c :: go (endsLine c) rest

/-- A comment with every line indented that holds more than spaces. -/
def indentComment (indent : Nat) (comment : List Char) : List Char :=
  if !comment.isEmpty && comment.all (· == '\n') then comment.tail
  else go true comment
where
  /-- Goes on at the start of a line or within one. -/
  go : Bool → List Char → List Char
    | _, [] => []
    | start, c :: rest =>
        let body := (c :: rest).dropWhile (· == ' ')
        let margin :=
          if start && !(body.isEmpty || body.head?.any endsLine) then List.replicate indent ' '
          else []
        margin ++ c :: go (endsLine c) rest

/-- A comment after the given text. -/
def lineComment (text : List Char) (indent : Nat) (comment : List Char) : List Char :=
  if text.getLast? == some '\n' then indentComment indent comment
  else if comment.contains '\n' then '\n' :: indentComment indent comment
  else if text.getLast? == some ' ' then comment
  else ' ' :: comment

/-- The lines before an item: an empty one, and its comment. -/
def linesBefore (indent : Nat) (notes : Notes) : List (List Char) :=
  (if notes.spaceBefore then [[]] else []) ++
    (if notes.commentBefore.isEmpty then []
    else [(indentComment indent (markComment notes.commentBefore)).dropWhile Directives.isWhite])

/-- An item of a collection as it is written, with its lines before and its comment after. -/
structure Written where
  before : List (List Char)
  text : List Char
  comment : List Char
  /-- Must each item have a line of its own? -/
  needsLines : Bool

/-- A collection from its items. -/
def assemble (opening closing : Char) (indent itemIndent : Nat) (items : List Written) :
    List Char :=
  let lines := items.zipIdx.flatMap fun (item, i) =>
    let text := if i + 1 < items.length then item.text ++ [','] else item.text
    item.before ++
      [text ++ if item.comment.isEmpty then []
        else lineComment text itemIndent (markComment item.comment)]
  let needsLines := items.any fun item =>
    item.needsLines || !item.before.isEmpty || !item.comment.isEmpty || item.text.contains '\n'
  let length := lines.foldl (fun n text => n + units text + 2) 2
  if lines.isEmpty then [opening, closing]
  else if needsLines || Scalar.lineWidth < length then
    let body := lines.flatMap fun text =>
      if text.isEmpty then ['\n'] else '\n' :: (List.replicate (indent + 2) ' ' ++ text)
    opening :: (body ++ '\n' :: (List.replicate indent ' ' ++ [closing]))
  else opening :: ' ' :: (List.intercalate [' '] lines ++ [' ', closing])

/-- What separates the value of a pair from its key. -/
def valueGap (explicit keyComment : Bool) (indent : Nat) (isCollection : Bool) (notes : Notes)
    (text : List Char) : List Char :=
  let margin := '\n' :: List.replicate indent ' '
  if keyComment || notes.spaceBefore || !notes.commentBefore.isEmpty then
    (if notes.spaceBefore then ['\n'] else []) ++
      (if notes.commentBefore.isEmpty then []
      else '\n' :: indentComment indent (markComment notes.commentBefore)) ++ margin
  else if !explicit && isCollection then
    let firstLine := text.takeWhile (· != '\n')
    if firstLine.length = text.length then [' ']
    else
      let afterFirst := (firstLine.dropWhile (· != ' ')).drop 1
      let head := text.head?
      let properties :=
        if head == some '&' && afterFirst.head? == some '!' then
          !afterFirst.contains ' '
        else (head == some '&' || head == some '!') && !firstLine.contains ' '
      if properties then [' '] else margin
  else if text.isEmpty || text.head? == some '\n' then []
  else [' ']

/-- Puts anchor and tag before the text of a node. -/
def withProperties (s : Setting) (notes : Notes) (isScalar : Bool) (text : List Char) :
    Option (List Char) :=
  let properties := propertiesText s.directives notes
  if notes.anchor.any (!isAnchorName ·) then none
  else if properties.isEmpty then some text
  else if isScalar || text.head? == some '\x7b' || text.head? == some '[' then
    some (properties ++ ' ' :: text)
  else some (properties ++ '\n' :: (List.replicate s.indent ' ' ++ text))

/-- Is a key written with a mark? -/
def needsMark : Node → Bool
  | scalar _ content => content.style == .block
  | _ => true

mutual

/-- The text of a node with its anchor and tag; none where its anchor cannot be written. -/
def render (s : Setting) : Node → Option (List Char)
  | scalar notes content =>
      withProperties s notes true (content.render
        ⟨s.directives.schema, s.indent, s.isKey, takenAfter s.directives s.taken notes⟩ notes.tag)
  | aliased _ name =>
      if isAnchorName name then some ('*' :: (name.toList ++ if s.isKey then [' '] else []))
      else none
  | mapping notes isSet pairs => do
      let inner := { s with
        indent := s.indent + 2
        taken := takenAfter s.directives s.taken notes }
      let alone := pairs.all fun pair => if isSet then isKeyAlone pair.2 else pair.2.isNone
      let items ← renderPairs inner s.indent alone pairs
      withProperties s notes false (assemble '\x7b' '\x7d' s.indent (s.indent + 2) items)
  | sequence notes nodes => do
      let inner := { s with
        indent := s.indent + 4
        taken := takenAfter s.directives s.taken notes }
      let items ← renderItems inner s.indent nodes
      withProperties s notes false (assemble '[' ']' s.indent (s.indent + 4) items)
  | pairList notes _ pairs => do
      let inner := { s with
        indent := s.indent + 4
        taken := takenAfter s.directives s.taken notes }
      let items ← renderPairs inner s.indent false pairs
      withProperties s notes false (assemble '[' ']' s.indent (s.indent + 4) items)

/-- The items of a sequence as they are written. -/
def renderItems (s : Setting) (outer : Nat) : List Node → Option (List Written)
  | [] => some []
  | node :: rest => do
      let text ← render s node
      let notes := node.notes
      let next := match node with
        | aliased _ _ => s.taken
        | other => takenAfter s.directives s.taken other.notes
      let others ← renderItems { s with taken := next } outer rest
      some (⟨linesBefore outer notes, text, notes.comment, false⟩ :: others)

/-- The pairs of a collection as they are written; `alone` says that no values are. -/
def renderPairs (s : Setting) (outer : Nat) (alone : Bool) :
    List (Node × Option Node) → Option (List Written)
  | [] => some []
  | pair :: rest => do
      let first ← renderPair s outer alone pair
      let others ← renderPairs s outer alone rest
      some (first :: others)

/-- A pair as it is written. -/
def renderPair (s : Setting) (outer : Nat) (alone : Bool) :
    Node × Option Node → Option Written
  | (key, value) => do
      let keyNotes := key.notes
      let explicit := key.needsMark
      let inner := { s with indent := s.indent + 2, isKey := !explicit && !alone }
      let keyText ← render inner key
      let before := linesBefore outer keyNotes
      let valueNotes := (value.map Node.notes).getD Notes.none
      let comment := if value.isSome then valueNotes.comment else keyNotes.comment
      let needsLines := !keyNotes.comment.isEmpty || !valueNotes.commentBefore.isEmpty
      if alone || value.isNone then
        let text :=
          if keyText.isEmpty then ['?'] else if explicit then '?' :: ' ' :: keyText else keyText
        some ⟨before, text, comment, needsLines⟩
      else
        let commented (text : List Char) : List Char :=
          if keyNotes.comment.isEmpty then text
          else text ++ lineComment text inner.indent (markComment keyNotes.comment)
        let head :=
          if explicit then
            '?' :: ' ' :: (commented keyText ++ '\n' :: (List.replicate s.indent ' ' ++ [':']))
          else commented (keyText ++ [':'])
        let keyTaken := match key with
          | aliased _ _ => s.taken
          | other => takenAfter s.directives s.taken other.notes
        let taken :=
          if !explicit && keyNotes.comment.isEmpty && value.any Node.isScalar then
            some (units head + 1)
          else keyTaken
        let valueText ← renderValue { inner with isKey := false, taken := taken } value
        let gap := valueGap explicit (!keyNotes.comment.isEmpty) inner.indent
          (value.any Node.isCollection) valueNotes valueText
        some ⟨before, head ++ gap ++ valueText, comment, needsLines⟩

/-- The text of a value. -/
def renderValue (s : Setting) : Option Node → Option (List Char)
  | none => some []
  | some node => render s node

end

end Node
end Yaml
end ScriptHost
