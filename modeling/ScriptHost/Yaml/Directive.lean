import ScriptHost.Entries
import ScriptHost.Text.Hex
import ScriptHost.Text.Utf8
import ScriptHost.Yaml.Schema

/-!
# Directives and the names of tags

Directives stand before a document.  They choose the schema and give handles for the names of tags.

* `Directives.add?` takes a directive in; one that is not known is passed over.
* `Directives.tagName?` is the full name of a tag as it is written, and `Directives.tagText` writes
  a full name with the shortest handle that was given first.
-/

namespace ScriptHost
namespace Yaml

/-- What the directives of a document say. -/
structure Directives where
  schema : Schema
  /-- What each handle stands for, in the order in which they were given. -/
  handles : Entries String

namespace Directives

/-- What holds without directives. -/
def none : Directives := ⟨.core, [("!!", standard)]⟩

/-- Is this white space of any kind? -/
def isWhite (c : Char) : Bool :=
  let n := c.toNat
  (0x09 ≤ n && n ≤ 0x0d) || n = 0x20 || n = 0xa0 || n = 0x1680 || (0x2000 ≤ n && n ≤ 0x200a) ||
    n = 0x2028 || n = 0x2029 || n = 0x202f || n = 0x205f || n = 0x3000 || n = 0xfeff

/-- Drops white space at both ends. -/
def trim (text : List Char) : List Char :=
  ((text.dropWhile isWhite).reverse.dropWhile isWhite).reverse

/-- The words of a text, between its blanks. -/
def words : List Char → List (List Char)
  | [] => [[]]
  | c :: rest =>
      if isBlank c then
        if rest.head?.any isBlank then words rest else [] :: words rest
      else
        match words rest with
        | first :: others => (c :: first) :: others
        | [] => [[c]]

/-- Are these digits on both sides of a point? -/
def isVersion (text : List Char) : Bool :=
  let whole := text.takeWhile Char.isDigit
  match text.drop whole.length with
  | '.' :: rest => !whole.isEmpty && !rest.isEmpty && rest.all Char.isDigit
  | _ => false

/-- Takes a directive in. -/
def add? (directives : Directives) (text : List Char) : Option Directives :=
  match (words (trim text)).map String.ofList with
  | "%TAG" :: arguments =>
      match arguments with
      | [handle, meaning] =>
          some { directives with handles := Entries.put directives.handles handle meaning }
      | _ => Option.none
  | "%YAML" :: arguments =>
      match arguments with
      | [version] =>
          if version = "1.1" then some { directives with schema := .legacy }
          else if version = "1.2" then some { directives with schema := .core }
          else if isVersion version.toList then some directives
          else Option.none
      | _ => Option.none
  | _ => some directives

/-- The bytes of a text in which bytes are written as a percent sign and two digits. -/
def unescape? : List Char → Option (List UInt8)
  | [] => some []
  | '%' :: a :: b :: rest => do
      let high ← Hex.digitValue? a
      let low ← Hex.digitValue? b
      let more ← unescape? rest
      some (UInt8.ofNat (16 * high + low) :: more)
  | '%' :: _ => Option.none
  | c :: rest => do
      let more ← unescape? rest
      some (Utf8.encode (String.singleton c) ++ more)

/-- The text of a text in which bytes are written as a percent sign and two digits, if the bytes
spell one. -/
def unescapedText? (text : List Char) : Option String := do
  let bytes ← unescape? text
  let decoded := Utf8.decode bytes
  if Utf8.encode decoded = bytes then some decoded else Option.none

/-- The full name of a tag as it is written.  The empty name stands for no tag. -/
def tagName? (directives : Directives) (source : List Char) : Option String :=
  match source with
  | ['!'] => some "!"
  | '!' :: '<' :: rest =>
      let name := String.ofList rest.dropLast
      if name = "!" || name = "!!" || rest.getLast? != some '>' then Option.none else some name
  | _ =>
      let suffix := (source.reverse.takeWhile (· != '!')).reverse
      let handle := String.ofList (source.take (source.length - suffix.length))
      if suffix.isEmpty then Option.none
      else
        match directives.handles.lookup handle with
        | some meaning => (unescapedText? suffix).map (meaning ++ ·)
        | Option.none => if handle = "!" then some (String.ofList source) else Option.none

/-- How a character of a tag's name is written after a handle. -/
def escapeChar (c : Char) : List Char :=
  ([('!', "%21"), (',', "%2C"), ('[', "%5B"), (']', "%5D"), ('\x7b', "%7B"),
    ('\x7d', "%7D")].lookup c).elim [c] String.toList

/-- A full name as it is written. -/
def tagText (directives : Directives) (name : String) : String :=
  match directives.handles.find? fun entry => entry.2.toList.isPrefixOf name.toList with
  | some (handle, meaning) =>
      handle ++ String.ofList ((name.toList.drop meaning.length).flatMap escapeChar)
  | Option.none => if name.toList.head? == some '!' then name else "!<" ++ name ++ ">"

end Directives

end Yaml
end ScriptHost
