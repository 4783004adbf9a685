import MiniA64.Text.Radix

/-!
# Reading UTF-8

Bytes as text. A first byte tells how many bytes follow it and bounds the first of them, so that
every character has one encoding only. A sequence that breaks off is reported from its first byte
to the last one that still belongs to it.
-/

namespace MiniA64.Text

inductive Utf8Fault
  | startByte
  | continuationByte
  | truncated
  deriving DecidableEq, Repr

def Utf8Fault.reason : Utf8Fault → String
  | startByte => "invalid start byte"
  | continuationByte => "invalid continuation byte"
  | truncated => "unexpected end of data"

structure Utf8Error where
  fault : Utf8Fault
  byte : UInt8
  /-- Offsets of the first and the last byte in question. -/
  first : Nat
  last : Nat
  deriving DecidableEq, Repr

def Utf8Error.message (error : Utf8Error) : String :=
  let place :=
    if error.first = error.last then
      "byte 0x" ++ hexLower 2 error.byte.toNat ++ " in position " ++ toString error.first
    else "bytes in position " ++ toString error.first ++ "-" ++ toString error.last
  "'utf-8' codec can't decode " ++ place ++ ": " ++ error.fault.reason

/-- A sequence whose end is still to come. -/
structure PartialChar where
  byte : UInt8
  first : Nat
  /-- The bits so far. -/
  value : Nat
  /-- The bounds of the bytes to come. -/
  bounds : List (UInt8 × UInt8)

def continuation : UInt8 × UInt8 := (0x80, 0xbf)

/-- The bits of a first byte and the bounds of the bytes after it. -/
def startOfChar? (byte : UInt8) : Option (Nat × List (UInt8 × UInt8)) :=
  if byte < 0x80 then some (byte.toNat, [])
  else if byte < 0xc2 then none
  else if byte < 0xe0 then some (byte.toNat - 0xc0, [continuation])
  else if byte < 0xf0 then
    let second := if byte = 0xe0 then (0xa0, 0xbf) else if byte = 0xed then (0x80, 0x9f)
      else continuation
    some (byte.toNat - 0xe0, [second, continuation])
  else if byte < 0xf5 then
    let second := if byte = 0xf0 then (0x90, 0xbf) else if byte = 0xf4 then (0x80, 0x8f)
      else continuation
    some (byte.toNat - 0xf0, [second, continuation, continuation])
  else none

def decodeFrom (offset : Nat) (pending : Option PartialChar) :
    List UInt8 → Except Utf8Error (List Char)
  | [] =>
    match pending with
    | none => .ok []
    | some char => .error ⟨.truncated, char.byte, char.first, offset - 1⟩
  | byte :: rest =>
    match pending with
    | none =>
      match startOfChar? byte with
      | none => .error ⟨.startByte, byte, offset, offset⟩
      | some (value, []) => return Char.ofNat value :: (← decodeFrom (offset + 1) none rest)
      | some (value, bounds) => decodeFrom (offset + 1) (some ⟨byte, offset, value, bounds⟩) rest
    | some ⟨start, first, value, bounds⟩ =>
      let (low, high) := bounds.headD continuation
      if low ≤ byte && byte ≤ high then
        let value := 64 * value + (byte.toNat - 0x80)
        match bounds.tail with
        | [] => return Char.ofNat value :: (← decodeFrom (offset + 1) none rest)
        | bounds => decodeFrom (offset + 1) (some ⟨start, first, value, bounds⟩) rest
      else .error ⟨.continuationByte, start, first, offset - 1⟩

def decodeUtf8 (bytes : List UInt8) : Except Utf8Error (List Char) := decodeFrom 0 none bytes

/-- Decodes what is whole. The bytes of a character that breaks off at the end are left over. -/
def decodeBlock (bytes : List UInt8) : Except Utf8Error (List Char × List UInt8) :=
  match decodeUtf8 bytes with
  | .ok text => .ok (text, [])
  | .error error =>
    if error.fault = .truncated then
      (decodeUtf8 (bytes.take error.first)).map (·, bytes.drop error.first)
    else .error error

def encodeUtf8 (text : String) : List UInt8 := text.toUTF8.toList

/-- Every line ending, a carriage return with or without a newline, as one newline. -/
def unifyNewlines : List Char → List Char
  | [] => []
  | '\r' :: '\n' :: rest => '\n' :: unifyNewlines rest
  | '\r' :: rest => '\n' :: unifyNewlines rest
  | c :: rest => c :: unifyNewlines rest

end MiniA64.Text
