import FeedAudit.Text.Piece

/-!
# Paths

A path is a text in which slashes separate the steps from one directory to the next. Repeated
slashes count once, and a dot stays where it is.
-/

namespace FeedAudit.Path

open Text

/-- Whether a path starts at the root. -/
def isAbsolute (path : String) : Bool := path.toList.head? == some '/'

/-- Whether a path ends in a slash. -/
def endsInSlash (path : String) : Bool := path.toList.getLast? == some '/'

/-- The steps of a path, dots included. -/
def steps (path : String) : List String :=
  (pieces '/' path).filter (· != "")

/-- The steps of a path without the dots that stay where they are; a dot in front remains. -/
def components (path : String) : List String :=
  match steps path with
  | [] => []
  | first :: rest =>
    if first == "." && isAbsolute path then rest.filter (· != ".")
    else first :: rest.filter (· != ".")

/-- The path of `name` in the directory `dir`; an absolute name stands for itself. -/
def join (dir name : String) : String :=
  if isAbsolute name || dir == "" then name
  else if endsInSlash dir then dir ++ name
  else dir ++ "/" ++ name

/-- The path of the directory in which the file of a path stands, empty for the working
directory. -/
def parent (path : String) : String :=
  (if isAbsolute path then "/" else "") ++ joined "/" (components path).dropLast

/-- The last component of a path, if it is a proper name. -/
def fileName? (path : String) : Option String :=
  match (components path).getLast? with
  | some name => if name == "." || name == ".." then none else some name
  | none => none

/-- The part of a name behind its last dot, if something stands before that dot. -/
def extensionOf (name : String) : Option String :=
  match (pieces '.' name).reverse with
  | last :: before :: others => if before == "" && others == [] then none else some last
  | _ => none

/-- The extension of the file that a path names. -/
def extension? (path : String) : Option String := (fileName? path).bind extensionOf

end FeedAudit.Path
