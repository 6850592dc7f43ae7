import Fauxchange.Exchange.Envelope
import Fauxchange.Lib.CheckedDigits

/-! The checked seam between a FIX decimal `Price` and integer cents. A Rust `&str` is read byte by
byte there; every byte the seam accepts is ASCII, so characters stand for bytes here. -/

namespace Fauxchange.Fix
open Exchange Lib

def u128Max : Nat := 2 ^ 128 - 1
def i64Max : Nat := 2 ^ 63 - 1

def maxUntrustedSnippetBytes : Nat := 64

/-- The longest run of leading characters within a byte budget. -/
def snippet (budget : Nat) : List Char → List Char
  | [] => []
  | character :: rest =>
    if character.utf8Size ≤ budget then character :: snippet (budget - character.utf8Size) rest else []

/-- `truncate_untrusted`: a long value is cut at a character boundary and marked. -/
def truncateUntrusted (value : String) : String :=
  if value.utf8ByteSize ≤ maxUntrustedSnippetBytes then value
  else String.ofList (snippet maxUntrustedSnippetBytes value.toList) ++ "..."

/-- The wire-format failures of the seam; the tick-keyed ones belong to `PriceScale`. -/
inductive PriceSeamError where
  | empty
  | malformed (value : String)
  | tooManyFractionalDigits (value : String)
  | outOfRange (value : String)
  deriving DecidableEq, Repr

def centsScale : Nat := 2

def foldDigits (digits : List Char) : Option Nat := checkedDigits u128Max digits

/-- Right-padded to the scale, so that `"5"` is fifty cents. -/
def fractionalCents (digits : List Char) : Nat :=
  (foldDigits ((digits ++ List.replicate centsScale '0').take centsScale)).getD 0

/-- `parse_decimal_to_cents` on the characters of the value. -/
def parseDecimalChars (characters : List Char) : Except PriceSeamError Nat :=
  let value := truncateUntrusted (String.ofList characters)
  if characters = [] then .error .empty
  else if ¬ characters.all (fun c => c.isDigit || c == '.') ∨ 1 < characters.count '.' then
    .error (.malformed value)
  else
    let units := characters.takeWhile (· ≠ '.')
    let fraction := (characters.dropWhile (· ≠ '.')).drop 1
    if units = [] then .error (.malformed value)
    else if '.' ∈ characters ∧ fraction = [] then .error (.malformed value)
    else if centsScale < fraction.length then .error (.tooManyFractionalDigits value)
    else match foldDigits units with
      | none => .error (.outOfRange value)
      | some whole =>
        let cents := whole * 100 + fractionalCents fraction
        if u64Max < cents then .error (.outOfRange value) else .ok cents

def parseDecimalToCents (value : String) : Except PriceSeamError Nat := parseDecimalChars value.toList

def renderCentsChars (cents : Nat) : List Char :=
  Nat.toDigits 10 (cents / 100) ++ '.' :: padded 2 (cents % 100)

def renderCentsToDecimal (cents : Nat) : String := String.ofList (renderCentsChars cents)

/-- The magnitude after an optional sign, kept within `i64`. -/
def parseSignedDecimalToCents (value : String) : Except PriceSeamError Int :=
  match value.toList with
  | '-' :: magnitude => do
    let cents ← parseDecimalChars magnitude
    if i64Max < cents then .error (.outOfRange (truncateUntrusted value)) else .ok (-cents)
  | magnitude => do
    let cents ← parseDecimalChars magnitude
    if i64Max < cents then .error (.outOfRange (truncateUntrusted value)) else .ok cents

def renderSignedCentsToDecimal (value : Int) : String :=
  if value < 0 then "-" ++ renderCentsToDecimal value.natAbs else renderCentsToDecimal value.natAbs

end Fauxchange.Fix
