import CardAccess.CommandLine.PathName
import CardAccess.CommandLine.Script

/-!
# Files in memory

A file tree holds files and directories below a working directory.  Scripts run
on it without any system: what they print is collected, and files that they write
appear in the tree.  Outside the working directory nothing can be read, and what
is written there is not kept.
-/

namespace CardAccess
namespace CommandLine

/-- Where something is: the names of the directories from the working directory
down to it, and its own name. -/
abbrev Location := List String

/-- Files below a working directory, and directories beside those that the files
imply. -/
structure FileTree where
  files : List (Location × Bytes)
  directories : List Location
  printed : String
  deriving DecidableEq, Repr

/-- What a path leads to, or why it leads nowhere. -/
inductive Target where
  | inside (location : Location)
  | outside
  | fault (fault : DirectoryFault)
  deriving DecidableEq, Repr

namespace FileTree

/-- The longest name that a file can have, in bytes. -/
def nameMax : Nat := 255

/-- The longest path that the system takes, in bytes. -/
def pathMax : Nat := 4095

def isName (name : String) : Bool := name.utf8ByteSize ≤ nameMax && !name.contains (Char.ofNat 0)

/-- A tree of files with the given paths, which lead down only. -/
def ofFiles (files : List (String × Bytes)) : FileTree :=
  let location (path : String) := (PathName.segments path).filter fun name => !PathName.isIdle name
  ⟨files.map fun (path, content) => (location path, content), [], ""⟩

def file? (tree : FileTree) (location : Location) : Option Bytes := tree.files.lookup location

def isDirectoryAt (tree : FileTree) (location : Location) : Bool :=
  location.isEmpty || tree.directories.contains location
    || tree.files.any fun entry => location.isPrefixOf entry.1 && location != entry.1

def faultAt (tree : FileTree) (location : Location) : DirectoryFault :=
  if (tree.file? location).isSome then .notDirectory else .missing

/-- Follow names from a location.  Every name must be looked up in a directory. -/
def follow (tree : FileTree) : Location → List String → Target
  | location, [] => .inside location
  | location, name :: names =>
    if !tree.isDirectoryAt location then .fault (tree.faultAt location)
    else if PathName.isIdle name then tree.follow location names
    else if name = ".." then
      if location.isEmpty then .outside else tree.follow location.dropLast names
    else if isName name then tree.follow (location ++ [name]) names
    else .fault .nameTooLong

def targetOf (tree : FileTree) (path : String) (names : List String) : Target :=
  if path = "" then .fault .missing
  else if pathMax < path.utf8ByteSize then .fault .nameTooLong
  else if path.startsWith "/" then .outside
  else tree.follow [] names

def target (tree : FileTree) (path : String) : Target :=
  tree.targetOf path (PathName.segments path)

def readFile (tree : FileTree) (path : String) : Option Bytes :=
  match tree.target path with
  | .inside location => tree.file? location
  | _ => none

def isPresent (tree : FileTree) (path : String) : Bool :=
  match tree.target path with
  | .inside location => (tree.file? location).isSome || tree.isDirectoryAt location
  | _ => false

/-- Whether there is a directory at a path.  Outside everything counts as one. -/
def isDirectory (tree : FileTree) (path : String) : Bool :=
  match tree.target path with
  | .inside location => tree.isDirectoryAt location
  | .outside => true
  | .fault _ => false

/-- Put content into the file at a path, if its directory is there. -/
def writeFile (tree : FileTree) (path : String) (content : Bytes) : Bool × FileTree :=
  match tree.target path with
  | .fault _ => (false, tree)
  | .outside => (true, tree)
  | .inside location =>
    if tree.isDirectoryAt location then (false, tree)
    else
      let others := tree.files.filter fun entry => entry.1 != location
      (true, { tree with files := others ++ [(location, content)] })

/-- Make a directory of a name in a directory.  A name that leads to this
directory or up is taken. -/
def makeIn (tree : FileTree) (parent : Location) (name : String) :
    Option DirectoryFault × FileTree :=
  let location := parent ++ [name]
  if !tree.isDirectoryAt parent then (some (tree.faultAt parent), tree)
  else if PathName.isIdle name || name = ".." then (some .present, tree)
  else if !isName name then (some .nameTooLong, tree)
  else if (tree.file? location).isSome || tree.isDirectoryAt location then (some .present, tree)
  else (none, { tree with directories := tree.directories ++ [location] })

/-- Make the directory at a path, or tell why that fails.  Slashes at the end of
the path do not matter. -/
def makeDirectory (tree : FileTree) (path : String) : Option DirectoryFault × FileTree :=
  match (PathName.segments path).reverse.dropWhile (· = "") with
  | [] => (some .missing, tree)
  | name :: above =>
    match tree.targetOf path above.reverse with
    | .fault fault => (some fault, tree)
    | .outside => (none, tree)
    | .inside parent => tree.makeIn parent name

def answer (tree : FileTree) : (action : Action) → action.Answer × FileTree
  | .readFile path => (tree.readFile path, tree)
  | .isPresent path => (tree.isPresent path, tree)
  | .isDirectory path => (tree.isDirectory path, tree)
  | .makeDirectory path => tree.makeDirectory path
  | .writeFile path content => tree.writeFile path content
  | .print text => ((), { tree with printed := tree.printed ++ text })

/-- The files of `tree` that `before` does not have with the same content. -/
def changed (tree before : FileTree) : List (Location × Bytes) :=
  tree.files.filter fun (location, content) => before.file? location != some content

end FileTree

/-- Run a script on files in memory. -/
def Script.run {α : Type} : Script α → FileTree → α × FileTree
  | .done value, tree => (value, tree)
  | .act action next, tree =>
    let (answer, tree) := tree.answer action
    (next answer).run tree

end CommandLine
end CardAccess
