/-!
# Names of files

A path is a text of names separated by slashes.  Empty names and points between
the names lead nowhere; only a point at the very beginning counts as a name.
-/

namespace CardAccess
namespace CommandLine
namespace PathName

/-- The names in a path, with those that lead nowhere. -/
def segments (path : String) : List String := path.splitOn "/"

/-- Whether a name leads nowhere. -/
def isIdle (name : String) : Bool := name = "" || name = "."

def join (directory name : String) : String :=
  if name.startsWith "/" ∨ directory = "" then name
  else if directory.endsWith "/" then directory ++ name
  else directory ++ "/" ++ name

/-- A path without the names that lead nowhere.  A path from the root stays as it is. -/
def plain (path : String) : String :=
  if path.startsWith "/" then path
  else "/".intercalate ((segments path).filter fun name => !isIdle name)

/-- The paths that end with a name that counts, from the longest down.  The
names of the path are given in reverse. -/
def countingPaths : List String → List String
  | [] => []
  | name :: above =>
    let counts := if above.isEmpty then name != "" else !isIdle name
    if counts then "/".intercalate (name :: above).reverse :: countingPaths above
    else countingPaths above

/-- A path as it is written and the paths of the directories above it, from the
longest down. -/
def ancestors (path : String) : List String :=
  match countingPaths (segments path).reverse with
  | [] => []
  | _ :: above => path :: above

end PathName
end CommandLine
end CardAccess
