import Fauxchange.Fix.Codec

/-! A wire for concrete runs: tag-value pairs between the begin string with the body length and the checksum.
A frame is accepted exactly as it is written. -/

namespace Fauxchange.Fix
open Exchange Lib

def soh : UInt8 := 1
def equals : UInt8 := 61

def utf8 (text : String) : List UInt8 := text.toList.flatMap String.utf8EncodeChar

def Field.wire (field : Field) : List UInt8 :=
  utf8 (toString field.tag) ++ equals :: utf8 (field.value.getD "") ++ [soh]

/-- The sum of the bytes, in three digits. -/
def checksum (bytes : List UInt8) : String := String.ofList (padded 3 ((bytes.map UInt8.toNat).sum % 256))

def frameFields (fields : List Field) : List UInt8 :=
  let body := fields.flatMap Field.wire
  let head := Field.wire ⟨8, some beginString⟩ ++ Field.wire ⟨9, some (toString body.length)⟩ ++ body
  head ++ Field.wire ⟨10, some (checksum head)⟩

def parseField (bytes : List UInt8) : Option Field :=
  match bytes.dropWhile (· != equals) with
  | [] => none
  | _ :: value => do
    let tag ← parseUint u32Max (String.ofList ((bytes.takeWhile (· != equals)).map fun byte => Char.ofNat byte.toNat))
    some ⟨tag, String.fromUTF8? ⟨value.toArray⟩⟩

def parseFrame (bytes : List UInt8) : Option RawMessage := do
  let fields ← ((bytes.splitOn soh).dropLast).mapM parseField
  match fields with
  | start :: _ :: rest =>
    let msgType ← (← rest.head?).value
    if frameFields rest.dropLast = bytes then some ⟨start.value, msgType, fields⟩ else none
  | _ => none

@[reducible] def referenceWire : Ironfix where
  finish fields := .ok (frameFields fields)
  decode := parseFrame
  isNamed msgType := msgType.length = 1

example : (referenceWire.decode (frameFields [⟨35, some "0"⟩, ⟨34, some "7"⟩])).map (fun raw => raw.fields.map Field.tag) =
    some [8, 9, 35, 34, 10] := by decide +kernel

end Fauxchange.Fix
