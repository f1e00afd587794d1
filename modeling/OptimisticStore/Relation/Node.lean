import OptimisticStore.Key.Relation
/-!
Graphs of records whose references to other records may not be loaded yet.

A node has a type, columns of its own, and named fields; a field holds references, inline nodes, or
containers of them nested to any depth.
-/
namespace OptimisticStore

structure Columns where
  id : Option Int64 := none
  label : String := ""
deriving DecidableEq, Inhabited

inductive RefType where
  | any
  | only (type : String)
deriving DecidableEq

inductive Shape where
  | reference
  | node
  | boxed (of : Shape)
  | optional (of : Shape)
  | sequence (of : Shape)
  /-- A map that keeps its labels in order. -/
  | ordered (of : Shape)
  /-- A map that does not. -/
  | hashed (of : Shape)
deriving DecidableEq

mutual

/-- A reference to a record: to none, to one not loaded yet, to a loaded one, or to one that was asked
for and does not exist. -/
inductive Ref where
  | null
  | pending (key : RelationKey)
  | loaded (key : RelationKey) (node : Node)
  | dangling (key : RelationKey)

inductive Content where
  | reference (holds : RefType) (ref : Ref)
  | node (node : Node)
  | group (shape : Shape) (members : Members)

/-- Labelled contents in order; only the members of maps and the fields of nodes have a label. -/
inductive Members where
  | nil
  | cons (label : String) (content : Content) (rest : Members)

inductive Node where
  | mk (type : String) (columns : Columns) (fields : Members)

end

deriving instance DecidableEq for Ref, Content, Members, Node

instance : Inhabited Node := ⟨.mk "" {} .nil⟩

namespace Members

def ofList : List (String × Content) → Members
  | [] => .nil
  | (label, content) :: rest => .cons label content (ofList rest)

def toList : Members → List (String × Content)
  | .nil => []
  | .cons label content rest => (label, content) :: rest.toList

@[simp] theorem toList_ofList (members : List (String × Content)) :
    (ofList members).toList = members := by
  induction members with
  | nil => rfl
  | cons head rest ih => simp [ofList, toList, ih]

def modify? (select : Nat → String → Bool) (change : Content → Option Content) :
    Nat → Members → Option Members
  | _, .nil => none
  | index, .cons label content rest =>
    if select index label then (change content).map (.cons label · rest)
    else (modify? select change (index + 1) rest).map (.cons label content)

end Members

namespace Node

def type : Node → String
  | .mk type _ _ => type

def columns : Node → Columns
  | .mk _ columns _ => columns

def fields : Node → Members
  | .mk _ _ fields => fields

def withId (id : Int64) : Node → Node
  | .mk type columns fields => .mk type { columns with id := some id } fields

end Node

def RefType.accepts : RefType → Node → Bool
  | .any, _ => true
  | .only type, node => node.type == type

inductive Place where
  | only
  | position (index : Nat)
  | label (name : String)
deriving DecidableEq

namespace Content

def modifyRef? (place : Place) (change : Ref → Option Ref) : Content → Option Content
  | .reference holds ref => (change ref).map (.reference holds)
  | .node _ => none
  | .group shape members =>
    let asReference : Content → Option Content
      | .reference holds ref => (change ref).map (.reference holds)
      | _ => none
    let modified := match shape, place with
      | .boxed .reference, _ => members.modify? (fun index _ => index == 0) asReference 0
      | .optional .reference, _ => members.modify? (fun index _ => index == 0) asReference 0
      | .sequence .reference, .position wanted =>
        members.modify? (fun index _ => index == wanted) asReference 0
      | .ordered .reference, .label name => members.modify? (fun _ label => label == name) asReference 0
      | .hashed .reference, .label name => members.modify? (fun _ label => label == name) asReference 0
      | _, _ => none
    modified.map (.group shape)

end Content

namespace Node

def modifyRef? (field : String) (place : Place) (change : Ref → Option Ref) : Node → Option Node
  | .mk type columns fields =>
    (fields.modify? (fun _ label => label == field) (·.modifyRef? place change) 0).map
      (.mk type columns)

/-- Put a reference at the end of a path, which leads through loaded references only. -/
def setRef? (value : Ref) : List (String × Place) → Node → Option Node
  | [], _ => none
  | [(field, place)], node => node.modifyRef? field place fun _ => some value
  | (field, place) :: rest, node => node.modifyRef? field place fun
    | .loaded key inner => (setRef? value rest inner).map (.loaded key)
    | _ => none

end Node

end OptimisticStore
