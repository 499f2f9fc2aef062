import CardAccess.Tlv.Path
import CardAccess.ObjectId

/-!
# Looking up and changing places in a tree

A place is looked up with `get?` and written with `put`, both by the steps below
the root: `put` changes nothing where `get?` finds nothing.  Every edit is a look
up, a change of the element found there, and a `put`, so an edit that fails
leaves no trace and one that succeeds touches only its place.
-/

namespace CardAccess
namespace Tlv

/-- An edit that does not fit the tree. -/
inductive StructureError where
  | primitive (tag : Tag)
  | notAnchored (path : String) (tag : Tag)
  | missing (path : String)
  | root (path : String)
  | unexpectedTag (expected actual : Tag)
  deriving DecidableEq, Repr

def StructureError.message : StructureError → String
  | .primitive tag => "element " ++ tag.display ++ " is primitive and cannot hold children"
  | .notAnchored path tag => "path " ++ path ++ " is not anchored at element " ++ tag.display
  | .missing path => "no element at path " ++ path
  | .root path => "path " ++ path ++ " denotes the root element"
  | .unexpectedTag expected actual =>
    "unexpected tag " ++ actual.display ++ ", expected " ++ expected.display

/-- Everything that can be wrong with a tree or its bytes. -/
inductive Error where
  | decode (e : DecodeError)
  | edit (e : StructureError)
  | objectId (e : ObjectId.Error)
  deriving DecidableEq, Repr

def Error.message : Error → String
  | .decode e => e.message
  | .edit e => e.message
  | .objectId e => "invalid object identifier: " ++ e.message

def toObjectId (t : Tlv) : Except Error ObjectId :=
  if t.tag = Tag.objectIdentifier then
    match ObjectId.ofBytes t.value with
    | .ok id => .ok id
    | .error e => .error (.objectId e)
  else .error (.edit (.unexpectedTag Tag.objectIdentifier t.tag))

/-! ## Children by tag -/

/-- The position, among all children, of the `index`-th one with tag `tag`. -/
def positionIn (tag : Tag) : (index : Nat) → List Tlv → Option Nat
  | _, [] => none
  | index, c :: cs =>
    if c.tag = tag then
      match index with
      | 0 => some 0
      | index + 1 => (positionIn tag index cs).map (· + 1)
    else (positionIn tag index cs).map (· + 1)

/-- The `index`-th child with tag `tag`. -/
def nth? (t : Tlv) (tag : Tag) (index : Nat) : Option Tlv :=
  (t.children.filter (fun c => c.tag == tag))[index]?

def first? (t : Tlv) (tag : Tag) : Option Tlv := t.nth? tag 0

/-- The element with other children, where it holds children. -/
def withChildren (t : Tlv) (children : List Tlv) : Tlv :=
  match t with
  | .primitive _ _ => t
  | .constructed tag _ => .constructed tag children

def push (t child : Tlv) : Except StructureError Tlv :=
  match t with
  | .primitive tag _ => .error (.primitive tag)
  | .constructed tag cs => .ok (.constructed tag (cs ++ [child]))

/-! ## Places -/

/-- The element that the steps lead to. -/
def get? (t : Tlv) : List Step → Option Tlv
  | [] => some t
  | s :: steps =>
    match t.nth? s.tag s.index with
    | none => none
    | some c => c.get? steps

/-- The tree with another element at the place the steps lead to. -/
def put (t : Tlv) : List Step → Tlv → Tlv
  | [], new => new
  | s :: steps, new =>
    match positionIn s.tag s.index t.children, t.nth? s.tag s.index with
    | some i, some c => t.withChildren (t.children.set i (c.put steps new))
    | _, _ => t

/-- The positions, level by level, of the place the steps lead to. -/
def positions? (t : Tlv) : List Step → Option (List Nat)
  | [] => some []
  | s :: steps =>
    match positionIn s.tag s.index t.children, t.nth? s.tag s.index with
    | some i, some c => (c.positions? steps).map (i :: ·)
    | _, _ => none

/-- The element at a path, if the path starts at this element's tag. -/
def child? (t : Tlv) (path : Path) : Option Tlv :=
  if path.root.tag = t.tag then t.get? path.steps else none

/-- Paths start at the tag of the tree they are used on. -/
def anchored (t : Tlv) (path : Path) : Except StructureError Unit :=
  if path.root.tag = t.tag then .ok () else .error (.notAnchored path.name t.tag)

def place (t : Tlv) (path : Path) : Except StructureError Tlv := do
  t.anchored path
  match t.get? path.steps with
  | none => .error (.missing path.name)
  | some found => .ok found

/-! ## Edits -/

def addChild (t : Tlv) (parent : Path) (child : Tlv) : Except StructureError Tlv := do
  let target ← t.place parent
  let grown ← target.push child
  .ok (t.put parent.steps grown)

/-- Remove the element at a path.  The result is the tree with the element that
was there, or the same tree if nothing was. -/
def removeChild (t : Tlv) (path : Path) : Except StructureError (Tlv × Option Tlv) := do
  t.anchored path
  match path.parent? with
  | none => .error (.root path.name)
  | some above =>
    match t.get? above.steps with
    | none => .ok (t, none)
    | some holder =>
      match positionIn path.tag path.index holder.children with
      | none => .ok (t, none)
      | some i =>
        .ok (t.put above.steps (holder.withChildren (holder.children.eraseIdx i)),
          holder.children[i]?)

/-- Put another element in the place of the one at a path, and tell the one that
was there. -/
def replaceChild (t : Tlv) (path : Path) (new : Tlv) : Except StructureError (Tlv × Tlv) := do
  t.anchored path
  if path.steps.isEmpty then .error (.root path.name)
  else
    let old ← t.place path
    .ok (t.put path.steps new, old)

def setValueAt (t : Tlv) (path : Path) (value : Bytes) : Except Error Tlv :=
  match t.place path with
  | .error e => .error (.edit e)
  | .ok target =>
    match target.setValue value with
    | .error e => .error (.decode e)
    | .ok changed => .ok (t.put path.steps changed)

end Tlv
end CardAccess
