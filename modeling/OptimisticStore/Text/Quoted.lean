import OptimisticStore.Text.Combining
import OptimisticStore.Text.Invisible
/-!
Texts written in double quotes for a reader of messages.

A quote, a backslash and the common control characters take a short escape; any other character that
would not be seen, or that would melt into the one before it, is written as its code point. So every
quoted text is visible as written, and two different texts never look alike.
-/
namespace OptimisticStore.Text

def codePointEscape (c : Char) : List Char :=
  ['\\', 'u', '\x7b'] ++ Nat.toDigits 16 c.toNat ++ ['\x7d']

def quoteChar (c : Char) : List Char :=
  match c with
  | '\x00' => ['\\', '0']
  | '\t' => ['\\', 't']
  | '\n' => ['\\', 'n']
  | '\r' => ['\\', 'r']
  | '"' => ['\\', '"']
  | '\\' => ['\\', '\\']
  | c => if isCombining c || isInvisible c then codePointEscape c else [c]

def quote (text : String) : String :=
  String.ofList ('"' :: text.toList.flatMap quoteChar ++ ['"'])

def bracketed (items : List String) : String := "[" ++ ", ".intercalate items ++ "]"

def quoteList (texts : List String) : String := bracketed (texts.map quote)

end OptimisticStore.Text
