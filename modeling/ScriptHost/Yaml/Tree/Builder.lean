import ScriptHost.Yaml.Tree.Basic

/-!
# Building syntax trees

`StreamTree.ofLexemes?` arranges lexemes into the syntax tree of a document.  It keeps a stack of
the nodes that are still open, innermost first.  A lexeme either goes into the innermost open node,
or closes it and is offered to the one around it; which of the two is decided by indentation and by
what the node has so far.

* A scalar or a flow collection becomes the key of a block mapping when a colon follows it.
* Empty lines and comments at the end of a block collection move out to the node around it.
* The result is none where a lexeme fits nowhere, and where a second document starts.
-/

namespace ScriptHost
namespace Yaml

/-- A node that is still open.  Collections have their items last first. -/
inductive Frame where
  | inline (scalar : InlineScalar)
  | block (offset indent : Nat) (head : List Token)
  | mapping (offset indent : Nat) (last : Item Tree) (earlier : List (Item Tree))
  | sequence (offset indent : Nat) (last : Item Tree) (earlier : List (Item Tree))
  | flow (offset indent : Nat) (opening : Token) (items : List (Item Tree)) (after : List Token)

namespace Frame

/-- Is this a flow collection? -/
def isFlow : Frame → Bool
  | flow .. => true
  | _ => false

/-- The tree of an open node as it stands. -/
def tree : Frame → Tree
  | inline scalar => .inline scalar
  | block offset indent head => .block offset indent head []
  | mapping offset indent last earlier => .mapping offset indent (earlier.reverse ++ [last])
  | sequence offset indent last earlier => .sequence offset indent (earlier.reverse ++ [last])
  | flow offset indent opening items after =>
      .flow offset indent opening (Tree.settled opening items.reverse) after

/-- The empty lines and comments at the end of a block collection that belong to the node around
it.  Comments that are indented as much as the collection stay. -/
def trailing? (indent : Nat) (last : Item Tree) : Option (List Token) :=
  if last.between.isNone && last.value.isNone && !last.start.isEmpty &&
      Token.allFiller last.start &&
      (indent == 0 || last.start.all fun t => t.kind != .comment || t.indent < indent) then
    some last.start
  else none

/-- The tree of an open node without what belongs to the node around it, and that. -/
def split (frame : Frame) : Tree × Option (List Token) :=
  match frame with
  | mapping offset indent last earlier =>
      match trailing? indent last with
      | some tokens => (.mapping offset indent earlier.reverse, some tokens)
      | none => (frame.tree, none)
  | sequence offset indent last earlier =>
      match trailing? indent last with
      | some tokens => (.sequence offset indent earlier.reverse, some tokens)
      | none => (frame.tree, none)
  | _ => (frame.tree, none)

end Frame

/-- What surrounds the open nodes. -/
inductive Surroundings where
  /-- No document is open. -/
  | stream
  | document (tree : DocumentTree)
  /-- A document has just been ended by its mark; the tokens stand after that. -/
  | ended (after : List Token)

/-- What a text consists of. -/
structure StreamTree where
  /-- The directives before the document. -/
  directives : List (List Char)
  document : Option DocumentTree
  /-- The directives after the document. -/
  laterDirectives : List (List Char)
  /-- The tokens after the mark that ends the document. -/
  afterEnd : List Token

/-- How far the building of a tree has come. -/
structure Builder where
  /-- Has nothing but indentation been met on this line? -/
  atNewLine : Bool
  /-- The indentation of this line so far. -/
  indent : Nat
  /-- How many units of text came before. -/
  offset : Nat
  /-- Does this line hold the key of a block mapping? -/
  onKeyLine : Bool
  surroundings : Surroundings
  /-- The open nodes, innermost first. -/
  stack : List Frame
  done : StreamTree

namespace Builder

/-- The start of a text. -/
def start : Builder := ⟨true, 0, 0, false, .stream, [], ⟨[], none, [], []⟩⟩

/-- A lexeme at the place that building has come to. -/
def token (b : Builder) (lexeme : Lexeme) : Token :=
  ⟨lexeme.kind, b.offset, b.indent, lexeme.text⟩

/-- Opens a node. -/
def push (frame : Frame) (b : Builder) : Builder := { b with stack := frame :: b.stack }

/-- Replaces the innermost open node. -/
def setTop (frame : Frame) (b : Builder) : Builder := { b with stack := frame :: b.stack.tail }

/-- Puts a node into the node around it, together with what belongs after it. -/
def attach (tree : Tree) (trailing : Option (List Token)) (whole : Tree) (b : Builder) :
    Option Builder :=
  match b.stack with
  | [] =>
      match b.surroundings with
      | .document d =>
          let filled := { d with node := some tree, after := trailing.getD d.after }
          some { b with surroundings := .document filled }
      | _ => none
  | .mapping offset indent last earlier :: rest =>
      if last.value.isSome then
        some { b with
          onKeyLine := true
          stack := .mapping offset indent (.keyed [] (some whole) []) (last :: earlier) :: rest }
      else if last.between.isSome then
        let filled := { last with value := some tree }
        match trailing with
        | some tokens => some { b with
            stack := .mapping offset indent (.starting tokens) (filled :: earlier) :: rest }
        | none => some { b with stack := .mapping offset indent filled earlier :: rest }
      else
        some { b with
          onKeyLine := !last.explicitKey
          stack := .mapping offset indent (last.withKey (some whole) []) earlier :: rest }
  | .sequence offset indent last earlier :: rest =>
      let (filled, before) :=
        if last.value.isSome then (Item.valued tree, last :: earlier)
        else ({ last with value := some tree }, earlier)
      match trailing with
      | some tokens => some { b with
          stack := .sequence offset indent (.starting tokens) (filled :: before) :: rest }
      | none => some { b with stack := .sequence offset indent filled before :: rest }
  | .flow offset indent opening items after :: rest =>
      let items :=
        match items with
        | [] => [.keyed [] (some whole) []]
        | last :: earlier =>
            if last.value.isSome then .keyed [] (some whole) [] :: last :: earlier
            else if last.between.isSome then { last with value := some whole } :: earlier
            else last.withKey (some whole) [] :: earlier
      some { b with stack := .flow offset indent opening items after :: rest }
  | _ => none

/-- The indentation of the innermost open node; a document has none. -/
def innerIndent (b : Builder) : Nat :=
  match b.stack with
  | .mapping _ indent _ _ :: _ => indent
  | .sequence _ indent _ _ :: _ => indent
  | .flow _ indent _ _ _ :: _ => indent
  | _ => 0

/-- Closes a block scalar with its lines; it counts as indented like the node around it. -/
def closeBlock (offset : Nat) (head : List Token) (lines : List Char) (b : Builder) :
    Option Builder :=
  let outer := { b with stack := b.stack.tail }
  let tree := Tree.block offset outer.innerIndent head lines
  outer.attach tree none tree

/-- Closes the innermost open node. -/
def close (b : Builder) : Option Builder :=
  match b.stack with
  | [] => none
  | .block offset _ head :: _ => b.closeBlock offset head []
  | .flow offset indent opening items after :: rest =>
      let tree := Tree.flow offset (if rest.isEmpty then 0 else indent) opening
        (Tree.settled opening items.reverse) after
      { b with stack := rest }.attach tree none tree
  | frame :: rest =>
      let (tree, trailing) := frame.split
      { b with stack := rest }.attach tree trailing frame.tree

/-- Closes every open node. -/
def closeAll : Nat → Builder → Option Builder
  | 0, b => some b
  | count + 1, b => if b.stack.isEmpty then some b else b.close.bind (closeAll count)

/-- Ends the document. -/
def finishDocument (b : Builder) : Option Builder :=
  match b.surroundings with
  | .stream => some b
  | .document d =>
      some { b with
        surroundings := .stream
        done := { b.done with document := some d } }
  | .ended after =>
      some { b with
        surroundings := .stream
        done := { b.done with afterEnd := b.done.afterEnd ++ after } }

/-- Divides the tokens before a node: those of the last line from its first word on belong to the
first key of a mapping that starts there. -/
def splitKeyTokens (tokens : List Token) : List Token × List Token :=
  let ends (t : Token) : Bool :=
    match t.kind with
    | .documentStart | .question | .colon | .dash | .newline => true
    | _ => false
  let tail := (tokens.reverse.takeWhile fun t => !ends t).reverse
  let own := tail.dropWhile (·.kind == .space)
  (tokens.take (tokens.length - own.length), own)

/-- Takes the tokens that belong to the first key of a new mapping out of the node around it. -/
def takeKeyTokens (b : Builder) : List Token × Builder :=
  match b.stack with
  | [] =>
      match b.surroundings with
      | .document d =>
          let (kept, own) := splitKeyTokens d.start
          (own, { b with surroundings := .document { d with start := kept } })
      | _ => ([], b)
  | .mapping offset indent last earlier :: rest =>
      let (own, last) :=
        match last.between with
        | some tokens =>
            let (kept, own) := splitKeyTokens tokens
            (own, { last with between := some kept })
        | none =>
            let (kept, own) := splitKeyTokens last.start
            (own, { last with start := kept })
      (own, { b with stack := .mapping offset indent last earlier :: rest })
  | .sequence offset indent last earlier :: rest =>
      let (kept, own) := splitKeyTokens last.start
      (own, { b with
        stack := .sequence offset indent { last with start := kept } earlier :: rest })
  | _ => ([], b)

/-- The scalar that a lexeme is. -/
def inlineScalar (b : Builder) (lexeme : Lexeme) : InlineScalar :=
  ⟨lexeme.kind, b.offset, b.indent, lexeme.text, []⟩

/-- Opens a block mapping with the given first item. -/
def openMapping (item : Item Tree) (b : Builder) : Builder :=
  b.push (.mapping b.offset b.indent item [])

/-- Opens the node that a lexeme starts, if it starts one. -/
def openNode (lexeme : Lexeme) (b : Builder) : Option Builder :=
  let token := b.token lexeme
  match lexeme.kind with
  | .aliased | .scalar | .singleQuoted | .doubleQuoted =>
      some (b.push (.inline (b.inlineScalar lexeme)))
  | .blockHeader => some (b.push (.block b.offset b.indent [token]))
  | .mapOpen | .seqOpen => some (b.push (.flow b.offset b.indent token [] []))
  | .dash => some (b.push (.sequence b.offset b.indent (.starting [token]) []))
  | .question =>
      let (own, b) := b.takeKeyTokens
      some ({ b with onKeyLine := true }.openMapping
        { Item.starting (own ++ [token]) with explicitKey := true })
  | .colon =>
      let (own, b) := b.takeKeyTokens
      some ({ b with onKeyLine := true }.openMapping (.keyed own none [token]))
  | _ => none

/-- What becomes of a lexeme. -/
inductive Verdict where
  /-- It was taken. -/
  | taken (b : Builder)
  /-- The innermost node was closed, and the lexeme is still to be placed. -/
  | offered (b : Builder)

/-- Closes the innermost node and offers the lexeme to the one around it. -/
def passOn (b : Builder) : Option Verdict := b.close.map .offered

/-- Places a lexeme outside of documents. -/
def inStream (lexeme : Lexeme) (b : Builder) : Option Verdict :=
  let opened (start : List Token) : Option Verdict :=
    match b.done.document with
    | some _ => none
    | none => some (.taken { b with surroundings := .document ⟨b.offset, start, none, []⟩ })
  match lexeme.kind with
  | .directive =>
      some (.taken { b with done :=
        match b.done.document with
        | none => { b.done with directives := b.done.directives ++ [lexeme.text] }
        | some _ => { b.done with laterDirectives := b.done.laterDirectives ++ [lexeme.text] } })
  | .byteOrderMark | .space | .comment | .newline => some (.taken b)
  | .opening => opened []
  | .documentStart => opened [b.token lexeme]
  | _ => none

/-- Places a lexeme after the mark that ends a document. -/
def inEnd (after : List Token) (lexeme : Lexeme) (b : Builder) : Option Verdict :=
  if lexeme.kind = .opening then some (.taken b)
  else
    let b := { b with surroundings := .ended (after ++ [b.token lexeme]) }
    if lexeme.kind = .newline then b.finishDocument.map .taken else some (.taken b)

/-- Does this kind of lexeme close a node on whose line it stands? -/
def closesLine : LexemeKind → Bool
  | .comma | .documentStart | .documentEnd | .seqClose | .mapClose | .colon => true
  | _ => false

/-- Places a lexeme in a document whose node is closed, or has not begun. -/
def inDocument (d : DocumentTree) (lexeme : Lexeme) (b : Builder) : Option Verdict :=
  let token := b.token lexeme
  if d.node.isSome then
    if closesLine lexeme.kind then none
    else
      let b := { b with surroundings := .document { d with after := d.after ++ [token] } }
      if lexeme.kind = .newline then { b with onKeyLine := false }.finishDocument.map .taken
      else some (.taken b)
  else
    let pushed := some (Verdict.taken
      { b with surroundings := .document { d with start := d.start ++ [token] } })
    match lexeme.kind with
    | .documentStart => if Token.allFiller d.start then pushed else none
    | .anchor | .tag | .space | .comment | .newline => pushed
    | _ => (b.openNode lexeme).map .taken

/-- Turns the innermost node, which has just been taken off, into the key of a block mapping. -/
def becomeKey
    (offset indent : Nat)
    (key : Tree)
    (between : List Token)
    (b : Builder) : Builder :=
  let (own, b) := { b with stack := b.stack.tail }.takeKeyTokens
  { b with onKeyLine := true }.push (.mapping offset indent (.keyed own (some key) between) [])

/-- Places a lexeme after an inline node that it does not turn into a key. -/
def afterInline (frame : Token → Frame) (lexeme : Lexeme) (b : Builder) : Option Verdict :=
  if closesLine lexeme.kind then b.passOn
  else
    let b := b.setTop (frame (b.token lexeme))
    if lexeme.kind = .newline then { b with onKeyLine := false }.close.map .taken
    else some (.taken b)

/-- Places a lexeme after a scalar. -/
def inScalar (scalar : InlineScalar) (lexeme : Lexeme) (b : Builder) : Option Verdict :=
  if lexeme.kind = .colon then
    some (.taken (b.becomeKey scalar.offset scalar.indent (.inline { scalar with after := [] })
      (scalar.after ++ [b.token lexeme])))
  else
    b.afterInline (fun token => .inline { scalar with after := scalar.after ++ [token] }) lexeme

/-- Places a lexeme in the head of a block scalar, or takes its lines. -/
def inBlock (offset indent : Nat) (head : List Token) (lexeme : Lexeme) (b : Builder) :
    Option Verdict :=
  match lexeme.kind with
  | .space | .comment | .newline =>
      some (.taken (b.setTop (.block offset indent (head ++ [b.token lexeme]))))
  | .scalar =>
      (b.closeBlock offset head lexeme.text).map fun b =>
        .taken { b with atNewLine := true, indent := 0 }
  | _ => b.passOn

/-- The items after a line break, a blank or a comment: it goes to the item at hand if that has no
value yet.  A comment that is indented further than the collection belongs to the node before it. -/
def pushFiller
    (indent : Nat)
    (token : Token)
    (last : Item Tree)
    (earlier : List (Item Tree)) : Item Tree × List (Item Tree) :=
  match last.value with
  | some value =>
      if token.kind = .newline && (value.after.getLast?.any (·.kind == .comment)) then
        ({ last with value := some (value.pushAfter [token]) }, earlier)
      else (.starting [token], last :: earlier)
  | none =>
      if last.between.isNone && token.kind = .comment && indent < token.indent &&
          last.start.all (fun t => t.kind == .newline || t.kind == .space) then
        match earlier with
        | previous :: others =>
            match previous.value with
            | some value =>
                if value.after.isEmpty then (last.push token, earlier)
                else
                  ({ previous with value := some (value.pushAfter (last.start ++ [token])) },
                    others)
            | none => (last.push token, earlier)
        | [] => (last.push token, earlier)
      else (last.push token, earlier)

/-- Divides the tokens after a key that has no value at its second empty line, where no comment
that is indented further, or anything else, follows. -/
def splitAtSecondBreak (indent : Nat) (tokens : List Token) : List Token × List Token :=
  let breaks := tokens.zipIdx.foldl
    (fun (found : List Nat) (entry : Token × Nat) =>
      match entry.1.kind with
      | .newline => found ++ [entry.2]
      | .space => found
      | .comment => if indent < entry.1.indent then [] else found
      | _ => [])
    []
  match breaks with
  | _ :: second :: _ => tokens.splitAt second
  | _ => (tokens, [])

/-- Places a lexeme in a block mapping. -/
def inMapping
    (offset indent : Nat)
    (last : Item Tree)
    (earlier : List (Item Tree))
    (lexeme : Lexeme)
    (b : Builder) : Option Verdict :=
  let token := b.token lexeme
  if lexeme.kind.isFiller then
    let (last, earlier) := pushFiller indent token last earlier
    let b := b.setTop (.mapping offset indent last earlier)
    some (.taken (if lexeme.kind = .newline then { b with onKeyLine := false } else b))
  else if b.indent < indent then b.passOn
  else
    let atIndent := !b.onKeyLine && b.indent == indent
    let atNext := atIndent && (last.between.isSome || last.explicitKey) && lexeme.kind != .dash
    let (last, start) :=
      match last.between with
      | some tokens =>
          if atNext && last.value.isNone then
            let (kept, start) := splitAtSecondBreak indent tokens
            ({ last with between := some kept }, start)
          else (last, [])
      | none => (last, [])
    let between := last.between.getD []
    let stay (last : Item Tree) : Builder := b.setTop (.mapping offset indent last earlier)
    let grow (item : Item Tree) : Builder :=
      b.setTop (.mapping offset indent item (last :: earlier))
    let keyLine (b : Builder) : Option Verdict := some (.taken { b with onKeyLine := true })
    match lexeme.kind with
    | .anchor | .tag =>
        if atNext || last.value.isSome then keyLine (grow (.starting (start ++ [token])))
        else some (.taken (stay (last.push token)))
    | .question =>
        let marked : Item Tree := { Item.starting [token] with explicitKey := true }
        if last.between.isNone && !last.explicitKey then
          keyLine (stay { last with start := last.start ++ [token], explicitKey := true })
        else if atNext || last.value.isSome then
          keyLine (grow { marked with start := start ++ [token] })
        else keyLine ((stay last).openMapping marked)
    | .colon =>
        if last.explicitKey then
          match last.between with
          | none =>
              if Token.includes last.start .newline then
                keyLine (stay (last.withKey none [token]))
              else
                let (kept, own) := splitKeyTokens last.start
                keyLine ((stay { last with start := kept }).openMapping (.keyed own none [token]))
          | some tokens =>
              if last.value.isSome then keyLine (grow (.keyed [] none [token]))
              else if Token.includes tokens .colon then
                keyLine ((stay last).openMapping (.keyed start none [token]))
              else
                match last.key with
                | some key =>
                    if key.endsInLine && !Token.includes tokens .newline then
                      let (kept, own) := splitKeyTokens last.start
                      keyLine ((stay { last with start := kept, key := none, between := none
                        }).openMapping (.keyed own (some key) (tokens ++ [token])))
                    else
                      keyLine (stay { last with between := some (tokens ++ start ++ [token]) })
                | none => keyLine (stay { last with between := some (tokens ++ start ++ [token]) })
        else if last.between.isNone then keyLine (stay (last.withKey none [token]))
        else if last.value.isSome || atNext then keyLine (grow (.keyed start none [token]))
        else if Token.includes between .colon then
          keyLine ((stay last).openMapping (.keyed [] none [token]))
        else keyLine (stay (last.push token))
    | .aliased | .scalar | .singleQuoted | .doubleQuoted =>
        let scalar := b.inlineScalar lexeme
        if atNext || last.value.isSome then
          keyLine (grow (.keyed start (some (.inline scalar)) []))
        else if last.between.isSome then some (.taken ((stay last).push (.inline scalar)))
        else keyLine (stay (last.withKey (some (.inline scalar)) []))
    | .dash =>
        if !last.explicitKey && last.between.isSome && !Token.includes between .newline then
          ((stay last).attach (.misfit b.indent) none (.misfit b.indent)).map .taken
        else ((stay last).openNode lexeme).map .taken
    | .blockHeader | .mapOpen | .seqOpen =>
        ((if atIndent then grow (.starting start) else stay last).openNode lexeme).map .taken
    | _ => b.passOn

/-- Places a lexeme in a block sequence. -/
def inSequence
    (offset indent : Nat)
    (last : Item Tree)
    (earlier : List (Item Tree))
    (lexeme : Lexeme)
    (b : Builder) : Option Verdict :=
  let token := b.token lexeme
  let stay (last : Item Tree) : Option Verdict :=
    some (.taken (b.setTop (.sequence offset indent last earlier)))
  let opened : Option Verdict :=
    if indent < b.indent then
      match b.openNode lexeme with
      | some b => some (.taken b)
      | none => b.passOn
    else b.passOn
  if lexeme.kind.isFiller then
    let (last, earlier) := pushFiller indent token last earlier
    some (.taken (b.setTop (.sequence offset indent last earlier)))
  else
    match lexeme.kind with
    | .anchor | .tag =>
        if last.value.isSome || b.indent ≤ indent then opened else stay (last.push token)
    | .dash =>
        if b.indent ≠ indent then opened
        else if last.value.isSome || Token.includes last.start .dash then
          some (.taken (b.setTop
            (.sequence offset indent (.starting [token]) (last :: earlier))))
        else stay (last.push token)
    | _ => opened

/-- Breaks off the innermost flow collection and those around it. -/
def breakOff (b : Builder) : Option Verdict :=
  b.close.map fun b => if b.stack.head?.any Frame.isFlow then .offered b else .taken b

/-- Places a lexeme in a flow collection that is not closed. -/
def inFlow
    (offset indent : Nat)
    (opening : Token)
    (items : List (Item Tree))
    (lexeme : Lexeme)
    (b : Builder) : Option Verdict :=
  let token := b.token lexeme
  let set (items : List (Item Tree)) : Option Verdict :=
    some (.taken (b.setTop (.flow offset indent opening items [])))
  /- The item at hand, unless a new one has to be started. -/
  let current : Option (Item Tree × List (Item Tree)) :=
    match items with
    | [] => none
    | last :: earlier => if last.value.isSome then none else some (last, earlier)
  match lexeme.kind with
  | .rupture => b.breakOff
  | .comma | .question =>
      match items with
      | [] => set [.starting [token]]
      | last :: earlier =>
          if last.between.isSome then set (.starting [token] :: last :: earlier)
          else set ({ last with start := last.start ++ [token] } :: earlier)
  | .colon =>
      match current with
      | none => set (.keyed [] none [token] :: items)
      | some (last, earlier) =>
          if last.between.isSome then set (last.push token :: earlier)
          else set (last.withKey none [token] :: earlier)
  | .space | .comment | .newline | .anchor | .tag =>
      match current with
      | none => set (.starting [token] :: items)
      | some (last, earlier) => set (last.push token :: earlier)
  | .aliased | .scalar | .singleQuoted | .doubleQuoted =>
      let scalar := b.inlineScalar lexeme
      match current with
      | none => set (.keyed [] (some (.inline scalar)) [] :: items)
      | some (last, earlier) =>
          if last.between.isSome then some (.taken (b.push (.inline scalar)))
          else set (last.withKey (some (.inline scalar)) [] :: earlier)
  | .mapClose | .seqClose =>
      some (.taken (b.setTop (.flow offset indent opening items [token])))
  | _ =>
      match b.openNode lexeme with
      | some b => some (.taken b)
      | none => b.passOn

/-- Places a lexeme after a flow collection that is closed. -/
def afterFlow
    (offset indent : Nat)
    (opening : Token)
    (items : List (Item Tree))
    (after : List Token)
    (lexeme : Lexeme)
    (b : Builder) : Option Verdict :=
  let around := b.stack.tail.head?
  let isKeyInPlace : Bool :=
    match around with
    | some (.mapping _ outer last _) =>
        (lexeme.kind == .colon && outer == indent) ||
          (lexeme.kind == .newline && last.between.isNone)
    | _ => false
  if lexeme.kind = .rupture then b.breakOff
  else if isKeyInPlace then b.passOn
  else if lexeme.kind == .colon && !around.any Frame.isFlow then
    let key := Tree.flow offset indent opening (Tree.settled opening items.reverse) (after.take 1)
    some (.taken (b.becomeKey offset indent key (after.drop 1 ++ [b.token lexeme])))
  else
    b.afterInline (fun token => .flow offset indent opening items (after ++ [token])) lexeme

/-- Places a lexeme in the innermost open node, or closes that. -/
def place (lexeme : Lexeme) (b : Builder) : Option Verdict :=
  match b.stack with
  | [] =>
      match b.surroundings with
      | .stream => b.inStream lexeme
      | .document d => b.inDocument d lexeme
      | .ended after => b.inEnd after lexeme
  | .inline scalar :: _ => b.inScalar scalar lexeme
  | .block offset indent head :: _ => b.inBlock offset indent head lexeme
  | .mapping offset indent last earlier :: _ => b.inMapping offset indent last earlier lexeme
  | .sequence offset indent last earlier :: _ => b.inSequence offset indent last earlier lexeme
  | .flow offset indent opening items [] :: _ => b.inFlow offset indent opening items lexeme
  | .flow offset indent opening items after :: _ =>
      b.afterFlow offset indent opening items after lexeme

/-- Places a lexeme, closing at most the given number of nodes on the way. -/
def step : Nat → Lexeme → Builder → Option Builder
  | 0, _, _ => none
  | count + 1, lexeme, b =>
      match b.place lexeme with
      | none => none
      | some (.taken after) => some after
      | some (.offered after) => step count lexeme after

/-- Ends the document at its mark. -/
def endDocument (b : Builder) : Option Builder := do
  let closed ← b.closeAll b.stack.length
  let finished ← closed.finishDocument
  some { finished with surroundings := .ended [] }

/-- Is the mark at the end of a document expected here? -/
def awaitsEnd (b : Builder) : Bool :=
  match b.stack, b.surroundings with
  | [], .ended _ => false
  | _, _ => true

/-- Takes the next lexeme. -/
def next (lexeme : Lexeme) (b : Builder) : Option Builder :=
  let entered := if lexeme.kind = .scalar then { b with atNewLine := false } else b
  let stepped :=
    if lexeme.kind = .stray then none
    else if lexeme.kind = .documentEnd && b.awaitsEnd then entered.endDocument
    else entered.step (b.stack.length + 1) lexeme
  stepped.map fun b =>
    let length := units lexeme.text
    let b :=
      match lexeme.kind with
      | .newline => { b with atNewLine := true, indent := 0 }
      | .space =>
          if b.atNewLine && lexeme.text.head? == some ' ' then
            { b with indent := b.indent + length }
          else b
      | .question | .colon | .dash =>
          if b.atNewLine then { b with indent := b.indent + length } else b
      | .scalar | .opening | .rupture => b
      | _ => { b with atNewLine := false }
    { b with offset := b.offset + length }

end Builder

/-- The syntax tree of a text, if its lexemes fit together. -/
def StreamTree.ofLexemes? (lexemes : List Lexeme) : Option StreamTree := do
  let built ← lexemes.foldlM (fun b lexeme => Builder.next lexeme b) Builder.start
  let closed ← built.closeAll built.stack.length
  let finished ← closed.finishDocument
  some finished.done

end Yaml
end ScriptHost
