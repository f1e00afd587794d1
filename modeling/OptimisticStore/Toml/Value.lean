/-!
Values of a TOML document.
-/
namespace OptimisticStore.Toml

/-- How a table came into being, which decides what may still be added to it. -/
inductive Origin where
  /-- By a header of its own, or as the whole document. -/
  | header
  /-- As part of the name of another table's header. -/
  | implied
  /-- By a dotted key. -/
  | dotted
  /-- Written in braces, complete as it stands. -/
  | inline
deriving DecidableEq

/-- A value; integers are signed 64-bit words, and a float or a moment in time is only known to be one. -/
inductive Value where
  | string (text : String)
  | integer (number : Int64)
  | boolean (truth : Bool)
  | float
  | moment
  | array (items : List Value)
  | table (origin : Origin) (entries : List (String × Value))
  /-- Tables written under repeated headers, one after another. -/
  | tables (elements : List (List (String × Value)))

abbrev Table := List (String × Value)

def Table.get? (table : Table) (key : String) : Option Value := table.lookup key

def Table.contains (table : Table) (key : String) : Bool := (table.get? key).isSome

def Table.replace (table : Table) (key : String) (value : Value) : Table :=
  table.map fun entry => if entry.1 = key then (key, value) else entry

def Table.remove (table : Table) (key : String) : Table := table.filter fun entry => entry.1 != key

end OptimisticStore.Toml
