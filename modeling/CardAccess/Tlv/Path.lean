import CardAccess.Tlv.Parser

/-!
# Paths

A path names a place in a tree: the tag of the root, then step by step a tag and
which of the children with that tag is meant, counting from zero.  Every step
has a name for messages, and the name of a path is that of its last step.  Two
paths are equal if all their steps are, names included.
-/

namespace CardAccess
namespace Tlv

/-- One step: the `index`-th child with tag `tag`. -/
structure Step where
  name : String
  tag : Tag
  index : Nat
  deriving DecidableEq, Repr

/-- A path from a root downwards. -/
structure Path where
  root : Step
  steps : List Step
  deriving DecidableEq, Repr

namespace Path

/-- The path that denotes a root element itself. -/
def ofRoot (name : String) (tag : Tag) : Path := ⟨⟨name, tag, 0⟩, []⟩

def child (p : Path) (name : String) (tag : Tag) (index : Nat) : Path :=
  ⟨p.root, p.steps ++ [⟨name, tag, index⟩]⟩

/-- All steps, the root first. -/
def chain (p : Path) : List Step := p.root :: p.steps

def target (p : Path) : Step := p.steps.getLastD p.root

def name (p : Path) : String := p.target.name

def tag (p : Path) : Tag := p.target.tag

/-- Which of the children with the same tag the place is. -/
def index (p : Path) : Nat := p.target.index

/-- The path one step up, unless the path denotes a root. -/
def parent? (p : Path) : Option Path :=
  if p.steps.isEmpty then none else some ⟨p.root, p.steps.dropLast⟩

end Path
end Tlv
end CardAccess
