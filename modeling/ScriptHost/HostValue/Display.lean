import ScriptHost.HostValue.Basic
import ScriptHost.Text.Hex
import ScriptHost.Text.Quoted
import ScriptHost.Text.Utf8

/-!
# The display of host values

Two texts of a host value.

* `HostValue.format` is the display form, in which text is quoted and scopes are laid out one entry
  a line, indented by their depth.
* `HostValue.plainText` is the text of a value inside a larger text, and `HostValue.keyText` the
  name under which a mapping's key is known.

Both fail on some values: an absent value has no display form, and some objects have no text.
-/

namespace ScriptHost

namespace Reference

/-- The display form of a symbol. -/
def symbolText (description : Option String) : String :=
  "Symbol(" ++ description.getD "" ++ ")"

/-- The display form of a reference. -/
def format : Reference → String
  | symbol description => symbolText description
  | function name _ _ => "<function " ++ (if name = "" then "anonymous" else name) ++ ">"
  | object className _ => "<object " ++ className ++ ">"
  | unclassed _ _ => "<object Object>"

/-- The text of a reference. -/
def plainText : Reference → Except Fault String
  | symbol _ => .error .symbolInText
  | function _ text _ => text
  | object _ text => text
  | unclassed _ text => text

end Reference

namespace HostValue

/-- One level of indentation for each unit of depth. -/
def indent (depth : Int) : Except Fault String :=
  if depth < 0 then .error (.negativeIndent depth)
  else .ok (String.ofList (List.replicate (4 * depth.toNat) ' '))

/-- One line of a laid out scope. -/
def entryLine (space name value : String) : String :=
  space ++ name ++ " = " ++ value ++ ";"

/-- Puts the lines of a scope between braces; the closing one stands at `margin`. -/
def block (lines : List String) (margin : String) : String :=
  "\x7b\n" ++ String.intercalate "\n" lines ++ "\n" ++ margin ++ "\x7d"

/-- The display form of bytes. -/
def bytesText (content : List UInt8) : String :=
  "b\"" ++ Hex.text content ++ "\""

mutual

/-- The display form of a value; scopes in it are laid out at the given depth. -/
def format (depth : Int) : HostValue → Except Fault String
  | null => .ok "none"
  | text value => .ok (Quoted.quote value)
  | number value => .ok value.text
  | bool value => .ok (if value then "true" else "false")
  | scope entries => renderScope depth entries
  | exception _ message => .ok message
  | bytes _ content => .ok (bytesText content)
  | list items => do
      let texts ← formatItems depth items
      .ok ("[" ++ String.intercalate ", " texts ++ "]")
  | record _ entries => renderScope depth entries
  | reference _ target => .ok target.format
  | integer _ => .ok "<object BigInt>"
  | mapping _ => .ok "<object Map>"
  | promise _ _ => .ok "<object Promise>"
  | rejection _ _ => .ok "<object Promise>"
  | absent => .error .absentValue

/-- The display forms of the items of a list. -/
def formatItems (depth : Int) : List HostValue → Except Fault (List String)
  | [] => .ok []
  | item :: rest => do
      let first ← format depth item
      let others ← formatItems depth rest
      .ok (first :: others)

/-- The lines of a scope whose entries are indented by `space`. -/
def entryLines (space : String) (depth : Int) :
    List (String × HostValue) → Except Fault (List String)
  | [] => .ok []
  | (name, value) :: rest => do
      let first ← format depth value
      let others ← entryLines space depth rest
      .ok (entryLine space name first :: others)

/-- The entries of a scope laid out one a line, a level deeper than the closing brace. -/
def renderScope (depth : Int) : List (String × HostValue) → Except Fault String
  | [] => .ok "\x7b\x7d"
  | entry :: rest => do
      let space ← indent depth
      let first ← format (depth + 1) entry.2
      let others ← entryLines space (depth + 1) rest
      let margin ← indent (depth - 1)
      .ok (block (entryLine space entry.1 first :: others) margin)

end

/-- The text that comes of calling a member of an object; there is none if the object has no such
function, or if the function answers an object. -/
def convertedBy? (entries : List (String × HostValue)) (name : String) :
    Option (Except Fault String) :=
  match Entries.get? entries name with
  | some (reference _ (.function _ _ (.plain answer))) => some (.ok answer)
  | some (reference _ (.function _ _ (.fails fault))) => some (.error fault)
  | _ => none

/-- The text of a plain object.  Its own `toString` decides, or failing that its own `valueOf`; an
object that inherits its `toString` is known by its kind. -/
def recordText (bare : Bool) (entries : List (String × HostValue)) : Except Fault String :=
  match convertedBy? entries "toString" with
  | some outcome => outcome
  | none =>
      if !bare && !Entries.has entries "toString" then .ok "[object Object]"
      else (convertedBy? entries "valueOf").getD (.error .textlessObject)

/-- The text of an exception. -/
def exceptionText (message : String) : String :=
  if message = "" then "ScriptException" else "ScriptException: " ++ message

mutual

/-- The text of a value inside a larger text. -/
def plainText : HostValue → Except Fault String
  | absent => .ok "undefined"
  | null => .ok "null"
  | bool value => .ok (if value then "true" else "false")
  | number value => .ok value.text
  | integer value => .ok (Decimal.integerText value)
  | text value => .ok value
  | list items => do
      let texts ← itemTexts items
      .ok (String.intercalate "," texts)
  | bytes buffer content =>
      if buffer then .ok (Utf8.decode content)
      else .ok (String.intercalate "," (content.map fun byte =>
        String.ofList (Decimal.digits byte.toNat)))
  | mapping _ => .ok "[object Map]"
  | scope entries => renderScope 1 entries
  | record bare entries => recordText bare entries
  | exception _ message => .ok (exceptionText message)
  | reference _ target => target.plainText
  | promise _ _ => .ok "[object Promise]"
  | rejection _ _ => .ok "[object Promise]"

/-- The texts of the items of a list; what is null or absent leaves no text. -/
def itemTexts : List HostValue → Except Fault (List String)
  | [] => .ok []
  | absent :: rest => do
      let others ← itemTexts rest
      .ok ("" :: others)
  | null :: rest => do
      let others ← itemTexts rest
      .ok ("" :: others)
  | item :: rest => do
      let first ← plainText item
      let others ← itemTexts rest
      .ok (first :: others)

end

/-- The name under which a mapping's key is known. -/
def keyText : HostValue → Except Fault String
  | reference _ (.symbol description) => .ok (Reference.symbolText description)
  | key => key.plainText

/-- The lines of a mapping with keys of any kind. -/
def mappingLines (space : String) (depth : Int) :
    List (HostValue × HostValue) → Except Fault (List String)
  | [] => .ok []
  | (key, value) :: rest => do
      let name ← key.plainText
      let first ← value.format depth
      let others ← mappingLines space depth rest
      .ok (entryLine space name first :: others)

/-- A mapping laid out as a scope is. -/
def renderMapping (depth : Int) (entries : List (HostValue × HostValue)) :
    Except Fault String :=
  if entries.isEmpty then .ok "\x7b\x7d"
  else do
    let space ← indent depth
    let lines ← mappingLines space (depth + 1) entries
    let margin ← indent (depth - 1)
    .ok (block lines margin)

/-- The layout of a value that is a scope or a mapping. -/
def render (depth : Int) : HostValue → Except Fault String
  | mapping entries => renderMapping depth entries
  | scope entries => renderScope depth entries
  | value => value.format depth

end HostValue

end ScriptHost
