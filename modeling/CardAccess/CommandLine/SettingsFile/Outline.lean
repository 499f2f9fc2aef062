import CardAccess.CommandLine.SettingsFile.Fault

/-!
# The outline of a settings file

The outline has an entry for each value and each table, under its name.  A table can
come from a heading, from the name of a heading below it, or from the name of a
value; this decides what can be added to it later.  A name is given once.  Headings
of rows can be repeated: each begins a new row, and only the last is kept.
-/

namespace CardAccess
namespace CommandLine
namespace SettingsFile

/-- A value as it was read. -/
structure Value where
  kind : Kind
  parts : Parts
  deriving DecidableEq, Repr

def Value.single (kind : Kind) (value : SettingValue) : Value := ⟨kind, [([], value)]⟩

/-- Where a table comes from: its own heading, a heading below it, or a value whose
name leads through it. -/
inductive Origin where
  | heading
  | below
  | name
  deriving DecidableEq, Repr

/-- What stands under a name. -/
inductive Entry where
  | value (value : Value)
  | table (origin : Origin)
  | rows
  deriving DecidableEq, Repr

/-- Entries under their names, a table before what is in it. -/
abbrev Outline := List (List String × Entry)

/-- What values are collected for: a table of the file, or a table in braces. -/
inductive Place where
  | table (name : List String)
  | braces
  deriving DecidableEq, Repr

def Place.name : Place → List String
  | .table name => name
  | .braces => []

/-- The table that a message on a repeated name tells. -/
def Place.told : Place → Option (List String)
  | .table name => some name
  | .braces => none

namespace Outline

def entry? (outline : Outline) (name : List String) : Option Entry := outline.lookup name

/-- Go down to a table from the place where a name is used, and make the tables on
the way that are missing. -/
def descend (place : Place) (origin : Origin) (path : List String) (outline : Outline) :
    Except Cause Outline :=
  (List.range path.length).foldlM (fun outline n =>
    let below := path.take (n + 1)
    let again := Cause.duplicate (path.getD n "") none
    match outline.entry? (place.name ++ below) with
    | none => .ok (outline ++ [(place.name ++ below, .table origin)])
    | some .rows => .ok outline
    | some (.table .heading) => if origin = .name then .error again else .ok outline
    | some (.table _) => .ok outline
    | some (.value value) =>
      if place = .braces ∧ value.kind = .table then .error again
      else .error (.notTable below value.kind)) outline

/-- Add a value.  A name of several parts can add to tables that such names made. -/
def add (place : Place) (name : List String) (value : Value) (outline : Outline) :
    Except Cause Outline := do
  let path := name.dropLast
  let last := name.getLastD ""
  let outline ← outline.descend place .name path
  let isOpen := path.isEmpty || outline.entry? (place.name ++ path) = some (.table .name)
  if !isOpen then .error (.duplicate last none)
  else if (outline.entry? (place.name ++ name)).isSome then .error (.duplicate last place.told)
  else .ok (outline ++ [(place.name ++ name, .value value)])

def addHeading (name : List String) (outline : Outline) : Except Cause Outline := do
  let above := name.dropLast
  let outline ← outline.descend (.table []) .below above
  match outline.entry? name with
  | none => .ok (outline ++ [(name, .table .heading)])
  | some (.table .below) =>
    .ok (outline.map fun (other, entry) =>
      (other, if other = name then .table .heading else entry))
  | some _ => .error (.duplicate (name.getLastD "") (some above))

/-- The outline with the heading of a row.  What earlier rows said is forgotten. -/
def addRow (name : List String) (outline : Outline) : Except Cause Outline := do
  let above := name.dropLast
  let outline ← outline.descend (.table []) .below above
  match outline.entry? name with
  | none => .ok (outline ++ [(name, .rows)])
  | some .rows => .ok (outline.filter fun (other, _) => other = name || !name.isPrefixOf other)
  | some _ => .error (.duplicate (name.getLastD "") (some above))

def isInRows (outline : Outline) (name : List String) : Bool :=
  outline.any fun (other, entry) =>
    entry = .rows && other.length < name.length && other.isPrefixOf name

/-- The values under their names.  What is in rows is not among them. -/
def parts (outline : Outline) : Parts :=
  (outline.filter fun (name, _) => !outline.isInRows name).flatMap fun (name, entry) =>
    match entry with
    | .value value => value.parts.map fun (below, part) => (name ++ below, part)
    | .table _ => [(name, .table)]
    | .rows => [(name, .sequence)]

end Outline
end SettingsFile
end CommandLine
end CardAccess
