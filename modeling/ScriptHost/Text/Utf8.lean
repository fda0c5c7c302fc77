/-!
# Bytes read as text

Reading UTF-8 never fails: where the bytes spell no character, the longest start of one is replaced
by a single replacement character and reading goes on with the byte that did not fit.  A byte order
mark is a character like any other.
-/

namespace ScriptHost
namespace Utf8

/-- What stands in the text for bytes that spell nothing. -/
def replacement : Char := '\ufffd'

/-- A character whose first bytes have been read. -/
structure Pending where
  /-- How many bytes are still to come. -/
  missing : Nat
  /-- The least value that the next byte may have. -/
  low : Nat
  /-- The greatest value that the next byte may have. -/
  high : Nat
  /-- The bits read so far. -/
  bits : Nat

/-- How the first byte of a character is taken: a whole character, the start of a longer one, or
nothing that a character starts with. -/
inductive Opening where
  | whole (c : Char)
  | start (pending : Pending)
  | stray

/-- Takes a byte as the first of a character. -/
def opening (byte : UInt8) : Opening :=
  let n := byte.toNat
  if n < 0x80 then .whole (Char.ofNat n)
  else if 0xc2 ≤ n && n ≤ 0xdf then .start ⟨1, 0x80, 0xbf, n - 0xc0⟩
  else if 0xe0 ≤ n && n ≤ 0xef then
    .start ⟨2, if n = 0xe0 then 0xa0 else 0x80, if n = 0xed then 0x9f else 0xbf, n - 0xe0⟩
  else if 0xf0 ≤ n && n ≤ 0xf4 then
    .start ⟨3, if n = 0xf0 then 0x90 else 0x80, if n = 0xf4 then 0x8f else 0xbf, n - 0xf0⟩
  else .stray

/-- Reads bytes, given the character that is under way. -/
def readFrom : Option Pending → List UInt8 → List Char
  | none, [] => []
  | some _, [] => [replacement]
  | none, byte :: rest =>
      match opening byte with
      | .whole c => c :: readFrom none rest
      | .start pending => readFrom (some pending) rest
      | .stray => replacement :: readFrom none rest
  | some pending, byte :: rest =>
      let n := byte.toNat
      if pending.low ≤ n && n ≤ pending.high then
        let bits := 64 * pending.bits + (n - 0x80)
        if pending.missing ≤ 1 then Char.ofNat bits :: readFrom none rest
        else readFrom (some ⟨pending.missing - 1, 0x80, 0xbf, bits⟩) rest
      else
        match opening byte with
        | .whole c => replacement :: c :: readFrom none rest
        | .start next => replacement :: readFrom (some next) rest
        | .stray => replacement :: replacement :: readFrom none rest

/-- The text that bytes spell. -/
def decode (bytes : List UInt8) : String :=
  String.ofList (readFrom none bytes)

/-- The bytes that spell a text. -/
def encode (text : String) : List UInt8 :=
  text.toUTF8.toList

end Utf8
end ScriptHost
