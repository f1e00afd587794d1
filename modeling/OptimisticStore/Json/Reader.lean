import OptimisticStore.Json.Value
import OptimisticStore.Text.Numeral
import OptimisticStore.Text.Reader
/-!
Reading JSON texts.

A text is one value with blanks around it. A number written as an integer that 64 bits cannot hold,
and a negative zero, are read as fractions. An escaped surrogate must be the first half of a pair.
-/
namespace OptimisticStore.Json

open Text Text.Reader

def depthLimit : Nat := 127

def blanks : Reader Unit := do
  let _ ← span fun c => c == ' ' || c == '\t' || c == '\n' || c == '\r'

def hexDigit? (c : Char) : Option Nat :=
  (digitValue? c).or (if 'a' ≤ c && c ≤ 'f' then some (c.toNat - 'a'.toNat + 10)
    else if 'A' ≤ c && c ≤ 'F' then some (c.toNat - 'A'.toNat + 10) else none)

def hexNumber (count : Nat) : Reader Nat := do
  let digits ← exactly count fun c => (hexDigit? c).isSome
  return digits.foldl (fun value c => 16 * value + (hexDigit? c).getD 0) 0

def isHighSurrogate (unit : Nat) : Bool := 0xD800 ≤ unit && unit < 0xDC00

def isLowSurrogate (unit : Nat) : Bool := 0xDC00 ≤ unit && unit < 0xE000

/-- The character after `\u`, two units of which make one beyond the first plane. -/
def unicodeEscape : Reader Char := do
  let unit ← hexNumber 4
  if isHighSurrogate unit then
    literal "\\u"
    let low ← hexNumber 4
    require (isLowSurrogate low)
    return Char.ofNat (0x10000 + (unit - 0xD800) * 0x400 + (low - 0xDC00))
  else
    require !(isLowSurrogate unit)
    return Char.ofNat unit

def stringChar : Reader Char := do
  let c ← one fun c => c != '"' && 0x20 ≤ c.toNat
  if c != '\\' then return c
  match ← one fun _ => true with
  | '"' => return '"'
  | '\\' => return '\\'
  | '/' => return '/'
  | 'b' => return '\x08'
  | 'f' => return '\x0c'
  | 'n' => return '\n'
  | 'r' => return '\r'
  | 't' => return '\t'
  | 'u' => unicodeEscape
  | _ => refuse

def quoted : Reader String := do
  char '"'
  let chars ← many stringChar
  char '"'
  return String.ofList chars

def wholeDigits : Reader (List Char) := do
  let digits ← span1 Char.isDigit
  require (digits.head? != some '0' || digits.length == 1)
  return digits

def fractionPart : Reader Unit := do
  char '.'
  let _ ← span1 Char.isDigit

def exponentPart : Reader Unit := do
  let _ ← one fun c => c == 'e' || c == 'E'
  let _ ← optional (one fun c => c == '+' || c == '-')
  let _ ← span1 Char.isDigit

/-- The integer with this sign and magnitude, if 64 bits hold it and it is not a negative zero. -/
def ofMagnitude? (negative : Bool) (magnitude : Nat) : Option Json :=
  if negative then
    if 0 < magnitude ∧ Int64.minValue.toInt ≤ -(magnitude : Int) then
      some (.integer (-(magnitude : Int)))
    else none
  else if magnitude < UInt64.size then some (.integer magnitude) else none

def numberParts : Reader (Option Json) := do
  let sign ← optional (char '-')
  let digits ← wholeDigits
  let fraction ← optional fractionPart
  let exponent ← optional exponentPart
  if fraction.isSome || exponent.isSome then return none
  match digitsValue? digits with
  | some magnitude => return ofMagnitude? sign.isSome magnitude
  | none => refuse

def number : Reader Json := do
  let whole ← get
  let value ← numberParts
  let rest ← get
  return value.getD (.fraction (String.ofList (whole.take (whole.length - rest.length))))

def comma : Reader Unit := do
  char ','
  blanks

def value : Nat → Reader Json
  | 0 => refuse
  | depth + 1 => do
    let member : Reader (String × Json) := do
      let name ← quoted
      blanks
      char ':'
      blanks
      return (name, ← value depth)
    let read : Reader Json := do
      match ← peek? with
      | some 'n' => literal "null"; return .null
      | some 't' => literal "true"; return .boolean true
      | some 'f' => literal "false"; return .boolean false
      | some '"' => return .string (← quoted)
      | some '[' =>
        char '['
        blanks
        let items ← separated comma (value depth)
        char ']'
        return .array items
      | some '\x7b' =>
        char '\x7b'
        blanks
        let members ← separated comma member
        char '\x7d'
        return .object members
      | _ => number
    let json ← read
    blanks
    return json

def parse (text : String) : Option Json :=
  readAll (do blanks; value (depthLimit + 1)) text

end OptimisticStore.Json
