/-!
Reading a text from its start, character by character.

A `Reader` takes characters off the front of a text or refuses; of two readers joined by `<|>` the
second starts where the first did. Repetition is bounded by the length of the text, which no reader
that takes at least one character each time can exceed.
-/
namespace OptimisticStore.Text

abbrev Reader := StateT (List Char) Option

namespace Reader

variable {α : Type}

def refuse : Reader α := fun _ => none

def require (condition : Bool) : Reader Unit := if condition then pure () else refuse

def peek? : Reader (Option Char) := do return (← get).head?

def one (accepted : Char → Bool) : Reader Char := fun
  | [] => none
  | c :: rest => if accepted c then some (c, rest) else none

def char (wanted : Char) : Reader Unit := do let _ ← one (· == wanted)

def literal (wanted : String) : Reader Unit := wanted.toList.forM char

def span (accepted : Char → Bool) : Reader (List Char) := fun rest =>
  some (rest.takeWhile accepted, rest.dropWhile accepted)

def span1 (accepted : Char → Bool) : Reader (List Char) := do
  let taken ← span accepted
  require !taken.isEmpty
  return taken

def exactly (count : Nat) (accepted : Char → Bool) : Reader (List Char) :=
  (List.replicate count ()).mapM fun _ => one accepted

def upTo (reader : Reader α) : Nat → Reader (List α)
  | 0 => pure []
  | bound + 1 => (do
      let item ← reader
      let rest ← upTo reader bound
      return item :: rest) <|> pure []

def many (reader : Reader α) : Reader (List α) := do upTo reader (← get).length

def separated1 (separator : Reader Unit) (reader : Reader α) : Reader (List α) := do
  let first ← reader
  let rest ← many (separator *> reader)
  return first :: rest

def separated (separator : Reader Unit) (reader : Reader α) : Reader (List α) :=
  separated1 separator reader <|> pure []

def finish : Reader Unit := do require (← get).isEmpty

def readAll (reader : Reader α) (text : String) : Option α :=
  ((do let value ← reader; finish; return value).run text.toList).map Prod.fst

end Reader

end OptimisticStore.Text
