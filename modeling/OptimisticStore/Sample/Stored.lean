import OptimisticStore.Key.Stored
import OptimisticStore.Sample.Account
import OptimisticStore.Sample.Blog
import OptimisticStore.Sample.Record
import OptimisticStore.Relation.Stored
/-!
The sample records as rows of JSON, moments as counts of microseconds.

A row may leave members out; they take the values of a fresh record.
-/
namespace OptimisticStore

def Timestamp.ofJson? (json : Json) : Option Timestamp := json.integer?.map .ofMicros

def Timestamp.toJson (moment : Timestamp) : Json := .integer moment.micros

namespace UniqueField

def ofJson? : Json → Option UniqueField
  | .array [.string column, .string value] => some ⟨column, value⟩
  | _ => none

def toJson (field : UniqueField) : Json := .array [.string field.column, .string field.value]

end UniqueField

namespace Account

def ofRow (row : Json) : Account :=
  let owner := (row.member "owner").string?.getD ""
  { id := StoredKey.ofJson? (row.member "id")
    version := (row.member "version").integer?.getD 0
    owner
    email := (row.member "email").string?.getD (defaultEmail owner)
    balance := (row.member "balance").integer?.getD 0
    createdAt := Timestamp.ofJson? (row.member "created")
    updatedAt := Timestamp.ofJson? (row.member "updated") }

def toRow (account : Account) : Json :=
  .object [
    ("id", .ofOption StoredKey.toJson account.id),
    ("version", .integer account.version),
    ("owner", .string account.owner),
    ("email", .string account.email),
    ("balance", .integer account.balance),
    ("created", .ofOption Timestamp.toJson account.createdAt),
    ("updated", .ofOption Timestamp.toJson account.updatedAt)]

end Account

namespace Record

variable {K : Type} [StoredKey K]

def ofRow (row : Json) : Record K :=
  { id := StoredKey.ofJson? (row.member "id")
    version := (row.member "version").integer?
    number := (row.member "num").integer?.getD 0
    text := (row.member "text").string?.getD ""
    unique := (row.member "unique").items.filterMap UniqueField.ofJson?
    created := Timestamp.ofJson? (row.member "created")
    updated := Timestamp.ofJson? (row.member "updated") }

def toRow (record : Record K) : Json :=
  .object [
    ("id", .ofOption StoredKey.toJson record.id),
    ("version", .ofOption .integer record.version),
    ("num", .integer record.number),
    ("text", .string record.text),
    ("unique", .array (record.unique.map UniqueField.toJson)),
    ("created", .ofOption Timestamp.toJson record.created),
    ("updated", .ofOption Timestamp.toJson record.updated)]

end Record

namespace Blog

def key? (json : Json) : Option RelationKey :=
  (StoredKey.ofJson? json).or ((StoredKey.ofJson? json).map .int)

def columnsOf (word labelName : String) (row : Json) : Columns :=
  let id := StoredKey.ofJson? (row.member "id")
  let label := s!"{word}-{(id.getD 0).toInt}"
  { id, label := (row.member labelName).string?.getD label }

def authorOfRow (row : Json) : Node :=
  author (columnsOf "author" "name" row) ((row.member "posts").items.filterMap fun key =>
    (key? key).map .pending) (((key? (row.member "mentor")).map .pending).getD .null)

def postOfRow (row : Json) : Node :=
  post (columnsOf "post" "title" row) (.pending ((key? (row.member "author")).getD (.int 0)))

def ofRow (json : Json) : Node :=
  match json.members with
  | [("author", row)] => authorOfRow row
  | [("post", row)] => postOfRow row
  | _ => feed ((json.member "feed").items.map postOfRow)

/-- Nodes of the three types as rows, loaded references with the row of what they refer to; a feed is
the list of its posts. -/
def rows : Node.Form := fun type columns fields =>
  let field (name : String) := ((fields.lookup name).map Prod.snd).getD .null
  let id := Json.ofOption StoredKey.toJson columns.id
  let label := Json.string columns.label
  if type = authorSchema.typeName then
    .object [("id", id), ("name", label), ("mentor", field "mentor"), ("posts", field "posts")]
  else if type = postSchema.typeName then
    .object [("id", id), ("title", label), ("author", field "author")]
  else field "posts"

end Blog

end OptimisticStore
