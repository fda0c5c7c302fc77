import ScriptHost.Yaml.Lexeme.Basic

/-!
# Syntax trees

What the nodes of a YAML text are made of, before anything is known of their meaning: scalars as
they are spelled, and collections as rows of items, each item with the tokens that stand before its
key, between its key and its value, and with the two nodes themselves.

The tokens around a node are kept, since marks, anchors, tags and comments are all found among them.
-/

namespace ScriptHost
namespace Yaml

/-- A lexeme at its place in the text. -/
structure Token where
  kind : LexemeKind
  /-- How many units of text stand before it. -/
  offset : Nat
  /-- The indentation of its line up to it. -/
  indent : Nat
  text : List Char
  deriving DecidableEq, Repr

namespace Token

/-- Is there a token of this kind? -/
def includes (tokens : List Token) (kind : LexemeKind) : Bool :=
  tokens.any (·.kind == kind)

/-- Do these tokens mean nothing? -/
def allFiller (tokens : List Token) : Bool :=
  tokens.all (·.kind.isFiller)

/-- Where the text of a token ends. -/
def stop (token : Token) : Nat := token.offset + units token.text

end Token

/-- A scalar within lines, or an alias. -/
structure InlineScalar where
  kind : LexemeKind
  offset : Nat
  indent : Nat
  text : List Char
  /-- What stands after it on its line. -/
  after : List Token
  deriving DecidableEq, Repr

/-- An item of a collection, where `α` is the type of nodes. -/
structure Item (α : Type) where
  /-- The tokens before the key, or before the value if there is no key. -/
  start : List Token
  /-- Is the key marked as one? -/
  explicitKey : Bool
  key : Option α
  /-- The tokens between the key and the value; absent while there can be no value. -/
  between : Option (List Token)
  value : Option α
  deriving DecidableEq, Repr

namespace Item

variable {α : Type}

/-- An item that starts with the given tokens. -/
def starting (tokens : List Token) : Item α := ⟨tokens, false, none, none, none⟩

/-- An item with a key. -/
def keyed (start : List Token) (key : Option α) (between : List Token) : Item α :=
  ⟨start, false, key, some between, none⟩

/-- An item with a value alone. -/
def valued (value : α) : Item α := ⟨[], false, none, none, some value⟩

/-- Puts a token where the item stands: before its value if it has a key, else at its start. -/
def push (item : Item α) (token : Token) : Item α :=
  match item.between with
  | some tokens => { item with between := some (tokens ++ [token]) }
  | none => { item with start := item.start ++ [token] }

/-- Makes a node the key. -/
def withKey (item : Item α) (key : Option α) (between : List Token) : Item α :=
  { item with key := key, between := some between }

end Item

/-- A syntax tree. -/
inductive Tree where
  | inline (scalar : InlineScalar)
  /-- A block scalar with the tokens of its head and its lines. -/
  | block (offset indent : Nat) (head : List Token) (lines : List Char)
  | mapping (offset indent : Nat) (items : List (Item Tree))
  | sequence (offset indent : Nat) (items : List (Item Tree))
  /-- A flow collection with its opening token and what stands from its closing token on. -/
  | flow (offset indent : Nat) (opening : Token) (items : List (Item Tree)) (after : List Token)
  /-- A place where there should be a node and is none. -/
  | misfit (indent : Nat)

namespace Tree

/-- Is this a collection in block form? -/
def isBlockCollection : Tree → Bool
  | mapping .. => true
  | sequence .. => true
  | _ => false

/-- The indentation at which a tree starts. -/
def indent : Tree → Nat
  | inline scalar => scalar.indent
  | block _ indent _ _ => indent
  | mapping _ indent _ => indent
  | sequence _ indent _ => indent
  | flow _ indent _ _ _ => indent
  | misfit indent => indent

/-- The tokens after a tree that ends within a line. -/
def after : Tree → List Token
  | inline scalar => scalar.after
  | flow _ _ _ _ after => after
  | _ => []

/-- Puts tokens after a tree, if it ends within a line. -/
def pushAfter (tree : Tree) (tokens : List Token) : Tree :=
  match tree with
  | inline scalar => inline { scalar with after := scalar.after ++ tokens }
  | flow offset indent opening items after => flow offset indent opening items (after ++ tokens)
  | other => other

/-- Does a tree end within a line? -/
def endsInLine : Tree → Bool
  | inline _ => true
  | flow .. => true
  | _ => false

/-- An item of a flow sequence that is no pair has its node as its value. -/
def unpaired (item : Item Tree) : Item Tree :=
  match item.between, item.value with
  | some tokens, none =>
      if Token.includes item.start .question || Token.includes tokens .colon then item
      else
        match item.key with
        | some key =>
            if key.endsInLine then ⟨item.start, item.explicitKey, none, none,
              some (key.pushAfter tokens)⟩
            else ⟨item.start ++ tokens, item.explicitKey, none, none, some key⟩
        | none => ⟨item.start ++ tokens, item.explicitKey, none, none, none⟩
  | _, _ => item

/-- The items of a flow collection once it is complete. -/
def settled (opening : Token) (items : List (Item Tree)) : List (Item Tree) :=
  if opening.kind = .seqOpen then items.map unpaired else items

end Tree

/-- A document: the tokens before its node, the node, and the tokens after it. -/
structure DocumentTree where
  offset : Nat
  start : List Token
  node : Option Tree
  after : List Token

end Yaml
end ScriptHost
