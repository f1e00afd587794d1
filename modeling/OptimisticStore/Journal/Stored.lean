import OptimisticStore.Journal.Change
import OptimisticStore.Json.Value
/-!
Changes as they are stored: the kind of change by its name, the rows as their family writes them, and
the moment of the commit as a plain number of microseconds.
-/
namespace OptimisticStore

namespace ChangeKind

def toJson (change : ChangeKind) : Json := .string change.name

/-- A name alone, or as the only member of an object that binds it to null. -/
def ofJson? : Json → Option ChangeKind
  | .string name => ofName? name
  | .object [(name, .null)] => ofName? name
  | _ => none

theorem ofJson?_toJson (change : ChangeKind) : ofJson? change.toJson = some change :=
  ofName?_name change

end ChangeKind

def Change.toJson {E : Type} (row : E → Json) (change : Change E) : Json :=
  .object [
    ("kind", .string change.kind),
    ("change", change.change.toJson),
    ("before", .ofOption row change.before),
    ("after", .ofOption row change.after),
    ("timestamp", .integer change.timestamp)]

end OptimisticStore
