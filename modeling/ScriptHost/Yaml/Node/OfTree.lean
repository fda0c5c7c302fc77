import ScriptHost.Yaml.Directive
import ScriptHost.Yaml.Node.Basic
import ScriptHost.Yaml.Node.Properties

/-!
# Nodes from syntax trees

`Node.ofTree?` gives the node of a syntax tree, with the meaning of its scalars, its anchors and its
tags.  It refuses a tree whose tokens or indentation are out of order, two equal keys in a mapping,
and a key without a mark that is longer than `keyLimit` or runs over lines.

Together with a node it gives the place where the node ends, with the comments that belong to it.
-/

namespace ScriptHost
namespace Yaml

/-- How many units of text a key may take if it is not marked as one. -/
def keyLimit : Nat := 1024

namespace Tree

mutual

/-- Does a tree run over more than one line? -/
def isMultiline : Tree → Bool
  | inline scalar => scalar.text.contains '\n' || Token.includes scalar.after .newline
  | flow _ _ _ items _ => itemsMultiline items
  | _ => true

/-- Does one of the items run over more than one line? -/
def itemsMultiline : List (Item Tree) → Bool
  | [] => false
  | item :: rest => itemMultiline item || itemsMultiline rest

/-- Does an item run over more than one line? -/
def itemMultiline : Item Tree → Bool
  | ⟨start, _, key, between, value⟩ =>
      Token.includes start .newline || Token.includes (between.getD []) .newline ||
        partMultiline key || partMultiline value

/-- Does a part of an item run over more than one line? -/
def partMultiline : Option Tree → Bool
  | none => false
  | some tree => isMultiline tree

end

/-- Is this a mapping in block form? -/
def isBlockMapping : Tree → Bool
  | mapping .. => true
  | _ => false

/-- Is this a sequence in block form? -/
def isBlockSequence : Tree → Bool
  | sequence .. => true
  | _ => false

/-- Is this a block scalar? -/
def isBlockScalar : Tree → Bool
  | block .. => true
  | _ => false

end Tree

namespace Node

/-- The full name of the tag among the properties of a node, if it has one. -/
def tagName? (d : Directives) (p : Properties) : Option (Option String) :=
  match p.tag with
  | none => some none
  | some token => (d.tagName? token.text).map fun name => if name = "" then none else some name

/-- What a text means, given its tag and how it is written. -/
def resolve? (d : Directives) (isKey : Bool) (tag : Option String) (style : ScalarStyle)
    (text : List Char) : Option Resolution :=
  match tag with
  | some "!" => some (Schema.asText text)
  | some name => d.schema.tagged? name text
  | none =>
      if style = .plain then some (d.schema.untagged isKey text) else some (Schema.asText text)

/-- A scalar with the properties before it and the comment after it. -/
def ofText? (d : Directives) (isKey : Bool) (p : Properties) (style : ScalarStyle)
    (text comment : List Char) : Option Node := do
  let tag ← tagName? d p
  let resolution ← resolve? d isKey tag style text
  some (.scalar { Notes.none with tag := tag, comment := comment } ⟨resolution, text, style⟩)

/-- Puts the anchor among the properties on a node; an anchor must have a name. -/
def anchored? (p : Properties) (node : Node) : Option Node :=
  match p.anchor with
  | none => some node
  | some token =>
      if token.text.length ≤ 1 then none
      else
        some (node.annotate fun notes =>
          { notes with anchor := some (String.ofList token.text.tail) })

/-- Puts what stands before a node on it. -/
def preceded (p : Properties) (node : Node) : Node :=
  node.annotate fun notes =>
    { notes with spaceBefore := p.spaceBefore, commentBefore := p.comment }

/-- The node where nothing is written. -/
def ofNothing? (d : Directives) (isKey : Bool) (p : Properties) (offset : Nat) :
    Option (Node × Nat) := do
  let node ← ofText? d isKey p .plain [] p.comment
  let node ← anchored? p node
  some (node.annotate fun notes => { notes with spaceBefore := p.spaceBefore },
    if p.comment.isEmpty then offset else p.stop)

/-- The text and the style of a scalar within lines. -/
def inlineText? (scalar : InlineScalar) : Option (List Char × ScalarStyle) :=
  match scalar.kind with
  | .singleQuoted => (singleQuotedText? scalar.text).map (·, .singleQuoted)
  | .doubleQuoted => (doubleQuotedText? scalar.text).map (·, .doubleQuoted)
  | _ => (plainText? scalar.text).map (·, .plain)

/-- The node of a scalar within lines, or of an alias. -/
def ofInline? (d : Directives) (isKey : Bool) (p : Properties) (scalar : InlineScalar) :
    Option (Node × Nat) := do
  let (comment, stop) ← afterNode? true (scalar.offset + units scalar.text) scalar.after
  if scalar.kind = .aliased then
    if scalar.text.length ≤ 1 || p.anchor.isSome || p.tag.isSome then none
    else
      let name := String.ofList scalar.text.tail
      some (preceded p (.aliased { Notes.none with comment := comment } name), stop)
  else
    let (text, style) ← inlineText? scalar
    let node ← ofText? d isKey p style text comment
    let node ← anchored? p node
    if scalar.kind = .scalar && scalar.text.isEmpty then
      let comment := if p.comment.isEmpty then comment else p.comment
      some (node.annotate fun notes =>
        { notes with spaceBefore := p.spaceBefore, comment := comment }, stop)
    else some (preceded p node, stop)

/-- The node of a block scalar. -/
def ofBlock? (d : Directives) (isKey atRoot : Bool) (p : Properties) (offset indent : Nat)
    (head : List Token) (lines : List Char) : Option (Node × Nat) := do
  let head ← BlockHead.read? head
  let text ← BlockText.read? indent head atRoot lines
  let node ← ofText? d isKey p .block text head.comment
  let node ← anchored? p node
  some (preceded p node, offset + head.length + units lines)

/-- The pair that an item of a sequence of pairs is. -/
def toPair? : Node → Option (Node × Option Node)
  | .mapping _ _ pairs =>
      match pairs with
      | [] => some (.scalar Notes.none ⟨.plain .null, "null".toList, .plain⟩, none)
      | [pair] => some pair
      | _ => none
  | node => some (node, none)

/-- Are the scalars among the keys all different? -/
def distinctKeys : List (Node × Option Node) → Bool
  | [] => true
  | (key, _) :: rest =>
      rest.all (fun (other, _) => !sameEntry key other) && distinctKeys rest
where
  /-- Are these keys of one entry?  What is not a number is one key. -/
  sameEntry : Node → Node → Bool
    | .scalar _ a, .scalar _ b =>
        a.resolution.datum.same b.resolution.datum ||
          (a.resolution.datum == .number .nan && b.resolution.datum == .number .nan)
    | _, _ => false

/-- A collection that its tag makes a set or a sequence of pairs. -/
def ofTagged? (tag : String) (node : Node) : Option Node :=
  match node with
  | .mapping notes _ pairs =>
      if tag = standardTag "set" then
        if pairs.all fun pair => isKeyAlone pair.2 then some (.mapping notes true pairs) else none
      else some node
  | .sequence notes items =>
      if tag = standardTag "pairs" then
        (items.mapM toPair?).map (.pairList notes false)
      else if tag = standardTag "omap" then do
        let pairs ← items.mapM toPair?
        if distinctKeys pairs then some (.pairList notes true pairs) else none
      else some node
  | other => some other

/-- Does the anchor or tag of a block sequence share a line with its first dash? -/
def crowdsDash (p : Properties) : Bool :=
  let last := max ((p.anchor.map Token.offset).getD 0) ((p.tag.map Token.offset).getD 0)
  (p.anchor.isSome || p.tag.isSome) && !(p.newlineAfter.any fun nl => last ≤ nl.offset)

/-- Puts tag, anchor and comments on a collection. -/
def finishCollection? (d : Directives) (p : Properties) (node : Node) : Option Node := do
  let tag ← tagName? d p
  let own := standardTag (match node with
    | .mapping .. => "map"
    | _ => "seq")
  let made ← match tag with
    | none => some node
    | some name => if name = "!" || name = own then some node else ofTagged? name node
  let tag := tag.map fun name => if name = "!" then own else name
  let node ← anchored? p (made.annotate fun notes => { notes with tag := tag })
  some (preceded p node)

/-- How far the reading of a block collection has come. -/
structure BlockProgress where
  /-- Where the last item ended. -/
  offset : Nat
  /-- Where the comments after the items end. -/
  commentEnd : Option Nat
  comment : List Char
  /-- The pairs so far, last first. -/
  pairs : List (Node × Option Node)
  /-- The nodes so far, last first. -/
  nodes : List Node

/-- How far the reading of a flow collection has come. -/
structure FlowProgress where
  /-- Is the next item the first? -/
  first : Bool
  offset : Nat
  comment : List Char
  /-- The pairs so far, last first. -/
  pairs : List (Node × Option Node)
  /-- The nodes so far, last first. -/
  nodes : List Node

/-- The comment that stands on the line of a comma, which belongs to the item before it. -/
def commentAtComma : List Token → List Char
  | [] => []
  | token :: rest =>
      match token.kind with
      | .comma | .space => commentAtComma rest
      | .comment => token.text.tail
      | _ => []

/-- Adds a comment to the last node so far. -/
def FlowProgress.addComment (s : FlowProgress) (comment : List Char) : FlowProgress :=
  { s with
    pairs := match s.pairs with
      | (key, some value) :: rest => (key, some (value.addComment comment)) :: rest
      | (key, none) :: rest => (key.addComment comment, none) :: rest
      | [] => []
    nodes := match s.nodes with
      | node :: rest => node.addComment comment :: rest
      | [] => [] }

/-- Is there an equal key among the pairs? -/
def hasKey (pairs : List (Node × Option Node)) (key : Node) : Bool :=
  pairs.any fun pair => pair.1.sameKey key

mutual

/-- The node of a tree, and where it ends. -/
def ofTree? (d : Directives) (isKey atRoot : Bool) (p : Properties) :
    Tree → Option (Node × Nat)
  | .inline leaf => ofInline? d isKey p leaf
  | .block offset indent head lines => ofBlock? d isKey atRoot p offset indent head lines
  | .misfit _ => none
  | .mapping offset indent items => do
      let s ← mappingItems? d indent ⟨offset, none, [], [], []⟩ items
      if s.commentEnd.any fun stop => 0 < stop && stop < s.offset then none
      else
        let node := Node.mapping { Notes.none with comment := s.comment } false s.pairs.reverse
        let node ← finishCollection? d p node
        some (node, s.commentEnd.getD s.offset)
  | .sequence offset indent items =>
      if crowdsDash p then none
      else do
        let s ← sequenceItems? d indent ⟨offset, none, [], [], []⟩ items
        let node := Node.sequence { Notes.none with comment := s.comment } s.nodes.reverse
        let node ← finishCollection? d p node
        some (node, s.commentEnd.getD s.offset)
  | .flow offset indent opening items after => do
      let isMap := opening.kind == .mapOpen
      let s ← flowItems? d isMap indent ⟨true, offset + 1, [], [], []⟩ items
      match after with
      | [] => none
      | closing :: rest =>
          if closing.kind ≠ (if isMap then .mapClose else .seqClose) then none
          else
            let (comment, stop) ← afterNode? true closing.stop rest
            let notes := { Notes.none with comment := joinComment s.comment comment }
            let node :=
              if isMap then Node.mapping notes false s.pairs.reverse
              else Node.sequence notes s.nodes.reverse
            let node ← finishCollection? d p node
            some (node, stop)

/-- The node of a part of an item; where there is none, the node of nothing at the given place. -/
def ofPart? (d : Directives) (isKey : Bool) (p : Properties) (offset : Nat) :
    Option Tree → Option (Node × Nat)
  | none => ofNothing? d isKey p offset
  | some tree => ofTree? d isKey false p tree

/-- Reads the items of a block mapping. -/
def mappingItems? (d : Directives) (indent : Nat) (s : BlockProgress) :
    List (Item Tree) → Option BlockProgress
  | [] => some s
  | item :: rest => do
      let next ← mappingItem? d indent s item
      mappingItems? d indent next rest

/-- Reads an item of a block mapping. -/
def mappingItem? (d : Directives) (indent : Nat) (s : BlockProgress) :
    Item Tree → Option BlockProgress
  | ⟨start, _, key, between, value⟩ => do
      let keyProps ← Properties.read?
        ⟨false, .question, .ofTree key (between.getD []), s.offset, indent, true⟩ start
      let implicit := keyProps.mark.isNone
      let isMisplaced :=
        if implicit then key.any fun k => k.isBlockSequence || k.indent != indent
        else keyProps.mark.any fun mark => mark.indent != indent
      if isMisplaced then none
      else if implicit && keyProps.anchor.isNone && keyProps.tag.isNone && between.isNone then
        some { s with
          commentEnd := some keyProps.stop
          comment := joinComment s.comment keyProps.comment }
      else if implicit && (keyProps.newlineAfter.isSome || Tree.partMultiline key) then none
      else
        let (keyNode, keyStop) ← ofPart? d true keyProps keyProps.stop key
        if hasKey s.pairs keyNode then none
        else
          let valueProps ← Properties.read?
            ⟨false, .colon, .ofTree value [], keyStop, indent,
              key.isNone || key.any Tree.isBlockScalar⟩ (between.getD [])
          match valueProps.mark with
          | some mark =>
              let isWrong := implicit &&
                ((value.any Tree.isBlockMapping && !valueProps.hasNewline) ||
                  keyProps.start + keyLimit < mark.offset)
              if isWrong then none
              else
                let (valueNode, stop) ← ofPart? d false valueProps valueProps.stop value
                some { s with offset := stop, pairs := (keyNode, some valueNode) :: s.pairs }
          | none =>
              if implicit then none
              else
                some { s with
                  offset := valueProps.stop
                  pairs := (keyNode.addComment valueProps.comment, none) :: s.pairs }

/-- Reads the items of a block sequence. -/
def sequenceItems? (d : Directives) (indent : Nat) (s : BlockProgress) :
    List (Item Tree) → Option BlockProgress
  | [] => some s
  | item :: rest => do
      let next ← sequenceItem? d indent s item
      sequenceItems? d indent next rest

/-- Reads an item of a block sequence. -/
def sequenceItem? (d : Directives) (indent : Nat) (s : BlockProgress) :
    Item Tree → Option BlockProgress
  | ⟨start, _, _, _, value⟩ => do
      let p ← Properties.read? ⟨false, .dash, .ofTree value [], s.offset, indent, true⟩ start
      if p.mark.isNone then
        if p.anchor.isSome || p.tag.isSome || value.isSome then none
        else
          some { s with
            commentEnd := some p.stop
            comment := if p.comment.isEmpty then s.comment else p.comment }
      else
        let (node, stop) ← ofPart? d false p p.stop value
        some { s with offset := stop, nodes := node :: s.nodes }

/-- Reads the items of a flow collection. -/
def flowItems? (d : Directives) (isMap : Bool) (indent : Nat) (s : FlowProgress) :
    List (Item Tree) → Option FlowProgress
  | [] => some s
  | item :: rest => do
      let next ← flowItem? d isMap indent rest.isEmpty s item
      flowItems? d isMap indent next rest

/-- Reads an item of a flow collection. -/
def flowItem? (d : Directives) (isMap : Bool) (indent : Nat) (isLast : Bool) (s : FlowProgress) :
    Item Tree → Option FlowProgress
  | ⟨start, _, key, between, value⟩ => do
      let p ← Properties.read?
        ⟨true, .question, .ofTree key (between.getD []), s.offset, indent, false⟩ start
      let implicit := p.mark.isNone
      let isVoid := implicit && p.anchor.isNone && p.tag.isNone && between.isNone && value.isNone
      if s.first && p.comma.isSome then none
      else if isVoid then
        if !isLast then none
        else
          some { s with
            first := false
            offset := p.stop
            comment := joinComment s.comment p.comment }
      else if (implicit && !isMap && Tree.partMultiline key) ||
          (!s.first && p.comma.isNone) then none
      else
        let earlier := if s.first then [] else commentAtComma start
        let s := if earlier.isEmpty then s else s.addComment earlier
        let p :=
          if earlier.isEmpty then p
          else { p with comment := p.comment.drop (earlier.length + 1) }
        if !isMap && between.isNone && implicit then
          let (node, stop) ← ofPart? d false p p.stop value
          if value.any Tree.isBlockCollection then none
          else some { s with first := false, offset := stop, nodes := node :: s.nodes }
        else
          let (keyNode, keyStop) ← ofPart? d true p p.stop key
          let tokens := between.getD []
          let valueProps ← Properties.read?
            ⟨true, .colon, .ofTree value [], keyStop, indent, false⟩ tokens
          let tooFar := !isMap && implicit && valueProps.mark.any fun mark =>
            Token.includes (tokens.takeWhile (· != mark)) .newline ||
              p.start + keyLimit < mark.offset
          let isWrong := key.any Tree.isBlockCollection || value.any Tree.isBlockCollection ||
            tooFar || (valueProps.mark.isNone && value.isSome) ||
            (isMap && hasKey s.pairs keyNode)
          if isWrong then none
          else
            let (pair, stop) ←
              if valueProps.mark.isSome then do
                let (valueNode, stop) ← ofPart? d false valueProps valueProps.stop value
                some ((keyNode, some valueNode), stop)
              else some ((keyNode.addComment valueProps.comment, none), valueProps.stop)
            if isMap then
              some { s with first := false, offset := stop, pairs := pair :: s.pairs }
            else
              some { s with
                first := false
                offset := stop
                nodes := .mapping Notes.none false [pair] :: s.nodes }

end

/-- The node of a document; `marked` says that directives stand before it, so that its start must
be marked. -/
def ofDocument? (d : Directives) (marked : Bool) (tree : DocumentTree) : Option Node := do
  let p ← Properties.read?
    ⟨false, .documentStart, .ofTree tree.node tree.after, tree.offset, 0, true⟩ tree.start
  let isWrong := (marked && p.mark.isNone) ||
    (p.mark.isSome && !p.hasNewline && tree.node.any Tree.isBlockCollection)
  if isWrong then none
  else
    let (node, _) ← match tree.node with
      | some t => ofTree? d false true p t
      | none => ofNothing? d false p p.stop
    let _ ← afterNode? false 0 tree.after
    some node

end Node

end Yaml
end ScriptHost
