import OptimisticStore.Json.Reader
import OptimisticStore.Toml.Value
/-!
Strings, numbers, truth values and moments of a TOML document.
-/
namespace OptimisticStore.Toml

open Text Text.Reader

def isBlank (c : Char) : Bool := c == ' ' || c == '\t'

def blanks : Reader Unit := do let _ ← span isBlank

def newline : Reader Unit := char '\n' <|> literal "\x0d\n"

/-- Characters that a comment may hold: no control character but the tab. -/
def isCommentChar (c : Char) : Bool := c == '\t' || (0x20 ≤ c.toNat && c.toNat != 0x7F)

def comment : Reader Unit := do
  char '#'
  let _ ← span isCommentChar

/-! ### Strings -/

def escaped : Reader Char := do
  match ← one fun _ => true with
  | 'b' => return '\x08'
  | 't' => return '\t'
  | 'n' => return '\n'
  | 'f' => return '\x0c'
  | 'r' => return '\r'
  | '"' => return '"'
  | '\\' => return '\\'
  | 'u' => scalar 4
  | 'U' => scalar 8
  | _ => refuse
where
  /-- A code point that is no surrogate. -/
  scalar (digits : Nat) : Reader Char := do
    let point ← Json.hexNumber digits
    require (point.isValidChar)
    return Char.ofNat point

def isBasicChar (c : Char) : Bool := isCommentChar c && c != '"' && c != '\\'

def isLiteralChar (c : Char) : Bool := isCommentChar c && c != '\''

def basicString : Reader String := do
  char '"'
  let chars ← many (one isBasicChar <|> (char '\\' *> escaped))
  char '"'
  return String.ofList chars

def literalString : Reader String := do
  char '\''
  let chars ← span isLiteralChar
  char '\''
  return String.ofList chars

def continuation : Reader Unit := do
  char '\\'
  blanks
  newline
  let _ ← many (newline <|> (one isBlank *> pure ()))

/-- One or two quotes of a text in triple quotes that do not end it: a shorter run than three, or what
a run of four or five has before the three that end it. No longer run is part of a text. -/
def innerQuotes (quote : Char) : Reader (List Char) := do
  let rest ← get
  let run := (rest.takeWhile (· == quote)).length
  let taken := if run < 3 then run else if run ≤ 5 then run - 3 else 0
  require (0 < taken)
  exactly taken (· == quote)

def tripled (quote : Char) (piece : Reader (List Char)) : Reader String := do
  let marks : Reader Unit := do let _ ← exactly 3 (· == quote)
  marks
  let _ ← optional newline
  let pieces ← many (piece <|> innerQuotes quote)
  marks
  return String.ofList pieces.flatten

def lineEnd : Reader (List Char) := do
  newline
  return ['\n']

def basicPiece : Reader (List Char) :=
  (do return [← one isBasicChar]) <|> lineEnd <|> (do continuation; return []) <|>
    (do char '\\'; return [← escaped])

def literalPiece : Reader (List Char) := (do return [← one isLiteralChar]) <|> lineEnd

def string : Reader String :=
  tripled '"' basicPiece <|> basicString <|> tripled '\'' literalPiece <|> literalString

/-! ### Numbers -/

def digitRun (isDigit : Char → Bool) : Reader (List Char) := do
  let first ← one isDigit
  let rest ← many (one isDigit <|> (char '_' *> one isDigit))
  return first :: rest

def wholeDigits : Reader (List Char) := do
  if (← peek?) == some '0' then return [← one (· == '0')] else digitRun Char.isDigit

def sign : Reader Bool := do
  let mark ← optional (one fun c => c == '+' || c == '-')
  return mark == some '-'

def digitValue (c : Char) : Nat := (Json.hexDigit? c).getD 0

def ofDigits (base : Nat) (digits : List Char) : Nat :=
  digits.foldl (fun value c => base * value + digitValue c) 0

def word (value : Int) : Reader Int64 := do
  require (Int64.minValue.toInt ≤ value && value ≤ Int64.maxValue.toInt)
  return Int64.ofInt value

def based (mark : String) (base : Nat) : Reader Int64 := do
  literal mark
  word (ofDigits base (← digitRun fun c => (Json.hexDigit? c).any (· < base)))

def integer : Reader Int64 :=
  based "0x" 16 <|> based "0o" 8 <|> based "0b" 2 <|> (do
    let negative ← sign
    let magnitude := ofDigits 10 (← wholeDigits)
    word (if negative then -(magnitude : Int) else magnitude))

def fractionDigits : Reader (List Char) := char '.' *> digitRun Char.isDigit

def exponent : Reader Int := do
  let _ ← one fun c => c == 'e' || c == 'E'
  let negative ← sign
  let magnitude := ofDigits 10 (← digitRun Char.isDigit)
  return if negative then -(magnitude : Int) else magnitude

/-- Whether `digits · 10 ^ scale` lies beyond the range of a double-precision number: at or above
halfway from the largest finite one to the next power of two. -/
def exceedsDouble (digits : List Char) (scale : Int) : Bool :=
  let mantissa := ofDigits 10 digits
  let beyond := Nat.pow 2 1024 - Nat.pow 2 970
  if mantissa = 0 then false
  else if digits.length + scale < 300 then false
  else if scale > 400 then true
  else if 0 ≤ scale then beyond ≤ mantissa * Nat.pow 10 scale.toNat
  else beyond * Nat.pow 10 scale.natAbs ≤ mantissa

/-- A number with a fraction or an exponent; one too large must be negative. -/
def float : Reader Unit := do
  let negative ← sign
  (literal "inf" <|> literal "nan") <|> do
    let whole ← wholeDigits
    let fraction ← optional fractionDigits
    let power ← optional exponent
    require (fraction.isSome || power.isSome)
    let decimals := fraction.getD []
    require (negative || !exceedsDouble (whole ++ decimals) (power.getD 0 - decimals.length))

/-! ### Moments -/

def field (count low high : Nat) : Reader Nat := do
  let value := ofDigits 10 (← exactly count Char.isDigit)
  require (low ≤ value && value ≤ high)
  return value

def daysIn (year month : Nat) : Nat :=
  if month = 2 then
    if year % 4 = 0 ∧ (year % 100 ≠ 0 ∨ year % 400 = 0) then 29 else 28
  else if month = 4 ∨ month = 6 ∨ month = 9 ∨ month = 11 then 30
  else 31

def date : Reader Unit := do
  let year ← field 4 0 9999
  char '-'
  let month ← field 2 1 12
  char '-'
  let _ ← field 2 1 (daysIn year month)

def timeOfDay : Reader Unit := do
  let _ ← field 2 0 23
  char ':'
  let _ ← field 2 0 59
  char ':'
  let _ ← field 2 0 60
  let _ ← optional (do char '.'; let _ ← span1 Char.isDigit)

def offset : Reader Unit :=
  (do let _ ← one fun c => c == 'Z' || c == 'z') <|> (do
    let _ ← one fun c => c == '+' || c == '-'
    let _ ← field 2 0 23
    char ':'
    let _ ← field 2 0 59)

def moment : Reader Unit :=
  (do
    date
    let _ ← optional (do
      let _ ← one fun c => c == 'T' || c == 't' || c == ' '
      timeOfDay
      let _ ← optional offset)) <|> timeOfDay

/-! ### Scalars -/

def number : Reader Value :=
  (do moment; return .moment) <|> (do float; return .float) <|> (do return .integer (← integer))

def scalar : Reader Value := do
  match ← peek? with
  | some '"' | some '\'' => return .string (← string)
  | some 't' => literal "true"; return .boolean true
  | some 'f' => literal "false"; return .boolean false
  | _ => number

end OptimisticStore.Toml
