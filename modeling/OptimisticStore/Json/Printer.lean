import OptimisticStore.Json.Value
/-!
Writing JSON texts, without blanks.
-/
namespace OptimisticStore.Json

def controlEscape (c : Char) : List Char :=
  ['\\', 'u', '0', '0', Nat.digitChar (c.toNat / 16), Nat.digitChar (c.toNat % 16)]

def escapeChar : Char → List Char
  | '"' => ['\\', '"']
  | '\\' => ['\\', '\\']
  | '\n' => ['\\', 'n']
  | '\r' => ['\\', 'r']
  | '\t' => ['\\', 't']
  | c => if c.toNat < 0x20 then controlEscape c else [c]

def quote (text : String) : String :=
  String.ofList ('"' :: text.toList.flatMap escapeChar ++ ['"'])

mutual

def write (text : String) : Json → String
  | .null => text ++ "null"
  | .boolean true => text ++ "true"
  | .boolean false => text ++ "false"
  | .integer value => text ++ toString value
  | .fraction number => text ++ number
  | .string value => text ++ quote value
  | .array items => writeItems (text ++ "[") "" items ++ "]"
  | .object members => writeMembers (text ++ "\x7b") "" members ++ "\x7d"

def writeItems (text separator : String) : List Json → String
  | [] => text
  | item :: rest => writeItems (write (text ++ separator) item) "," rest

def writeMembers (text separator : String) : List (String × Json) → String
  | [] => text
  | (name, value) :: rest =>
    writeMembers (write (text ++ separator ++ quote name ++ ":") value) "," rest

end

def render (json : Json) : String := json.write ""

end OptimisticStore.Json
