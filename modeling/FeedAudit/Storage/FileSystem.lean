import FeedAudit.Storage.Path

/-!
# File systems

A file system maps locations to files and directories. A *location* is the list of names that lead
from the root to an entry; a path names a location by walking from the working directory or from
the root, and every entry that is walked through has to be a directory. Two paths may therefore
name one location, but what is stored is stored by location.
-/

namespace FeedAudit

/-- Why an operation on files fails. -/
inductive IoFault where
  | notFound
  | exists
  | notADirectory
  | isADirectory
  | notText
  /-- Any other reason, in words. -/
  | other (text : String)
  deriving DecidableEq, Repr, Inhabited

/-- The fault in words. -/
def IoFault.message : IoFault → String
  | .notFound => "No such file or directory (os error 2)"
  | .exists => "File exists (os error 17)"
  | .notADirectory => "Not a directory (os error 20)"
  | .isADirectory => "Is a directory (os error 21)"
  | .notText => "stream did not contain valid UTF-8"
  | .other text => text

/-- What may stand at a location. -/
inductive Entry where
  | file (content : ByteArray)
  | directory

/-- The names that lead from the root to an entry. -/
abbrev Location := List String

/-- The location that one step leads to. -/
def Location.step (at_ : Location) (name : String) : Location :=
  if name = "." then at_ else if name = ".." then at_.dropLast else at_ ++ [name]

/-- The entries by location, and the directory in which relative paths start. The root is always a
directory and is not listed. -/
structure FileSystem where
  entries : List (Location × Entry)
  working : Location

namespace FileSystem

/-! ## Locations -/

/-- The entry at a location. -/
def entry? (fs : FileSystem) (l : Location) : Option Entry :=
  if l = [] then some .directory else (fs.entries.find? (·.1 == l)).map (·.2)

/-- Puts an entry at a location, in place of what was there. -/
def put (fs : FileSystem) (l : Location) (e : Entry) : FileSystem :=
  if fs.entries.any (·.1 == l) then
    { fs with entries := fs.entries.map fun (m, old) => if m = l then (m, e) else (m, old) }
  else { fs with entries := fs.entries ++ [(l, e)] }

/-- Walks from a location along the steps of a path. -/
def walk (fs : FileSystem) (at_ : Location) : List String → Except IoFault Location
  | [] => .ok at_
  | name :: rest =>
    match fs.entry? at_ with
    | none => .error .notFound
    | some (.file _) => .error .notADirectory
    | some .directory => fs.walk (at_.step name) rest

/-- Where walking along a path starts. -/
def origin (fs : FileSystem) (path : String) : Location :=
  if Path.isAbsolute path then [] else fs.working

/-- The location that a path names; what stands before its last step has to be a directory. -/
def locate (fs : FileSystem) (path : String) : Except IoFault Location :=
  if path = "" then .error .notFound
  else
    fs.walk (fs.origin path)
      (if Path.endsInSlash path then Path.steps path ++ ["."] else Path.steps path)

/-! ## Reading -/

/-- The bytes of the file that a path names. -/
def readBytes (fs : FileSystem) (path : String) : Except IoFault ByteArray :=
  match fs.locate path with
  | .error fault => .error fault
  | .ok l =>
    match fs.entry? l with
    | none => .error .notFound
    | some .directory => .error .isADirectory
    | some (.file content) => .ok content

/-- The text of the file that a path names. -/
def readText (fs : FileSystem) (path : String) : Except IoFault String :=
  match fs.readBytes path with
  | .error fault => .error fault
  | .ok content =>
    match String.fromUTF8? content with
    | some text => .ok text
    | none => .error .notText

/-! ## Directories -/

/-- Makes one directory, which must not exist yet, along the given steps. -/
def makeDirectory (fs : FileSystem) (start : Location) (steps : List String) :
    Except IoFault FileSystem :=
  match fs.walk start steps with
  | .error fault => .error fault
  | .ok l => if (fs.entry? l).isSome then .error .exists else .ok (fs.put l .directory)

/-- Whether the given steps lead to a directory. -/
def isDirectory (fs : FileSystem) (start : Location) (steps : List String) : Bool :=
  match fs.walk start steps with
  | .error _ => false
  | .ok l =>
    match fs.entry? l with
    | some .directory => true
    | _ => false

/-- Makes one directory unless it is there already. -/
def ensureDirectory (fs : FileSystem) (start : Location) (steps : List String) :
    Except IoFault FileSystem :=
  match fs.makeDirectory start steps with
  | .ok fs => .ok fs
  | .error .exists => if fs.isDirectory start steps then .ok fs else .error .exists
  | .error fault => .error fault

/-- Makes the directories along the first `n` steps as far as they are missing. Those that could be
made stay, even if not all of them can be made. -/
def makeDirectories (fs : FileSystem) (start : Location) (steps : List String) :
    Nat → FileSystem × Except IoFault Unit
  | 0 => (fs, .ok ())
  | n + 1 =>
    match fs.ensureDirectory start (steps.take (n + 1)) with
    | .ok made => (made, .ok ())
    | .error .notFound =>
      match fs.makeDirectories start steps n with
      | (above, .error fault) => (above, .error fault)
      | (above, .ok ()) =>
        match above.ensureDirectory start (steps.take (n + 1)) with
        | .ok made => (made, .ok ())
        | .error fault => (above, .error fault)
    | .error fault => (fs, .error fault)

/-- Makes the directory in which the file of a path stands. -/
def ensureParent (fs : FileSystem) (path : String) : FileSystem × Except IoFault Unit :=
  let above := (Path.components path).dropLast
  fs.makeDirectories (fs.origin path) above above.length

/-! ## Writing -/

/-- How a file is opened for writing. -/
inductive WriteMode where
  /-- After what it holds already. -/
  | append
  /-- In place of what it holds. -/
  | create
  deriving DecidableEq, Repr

/-- The location of the file that a path names for writing; it need not exist. -/
def locateForWriting (fs : FileSystem) (path : String) : Except IoFault Location :=
  if path = "" then .error .notFound
  else
    match fs.walk (fs.origin path) (Path.steps path) with
    | .error fault => .error fault
    | .ok l =>
      match fs.entry? l with
      | some .directory => .error .isADirectory
      | some (.file _) => if Path.endsInSlash path then .error .notADirectory else .ok l
      | none => if Path.endsInSlash path then .error .isADirectory else .ok l

/-- What a file holds before something is written to it. -/
def heldBefore (fs : FileSystem) (mode : WriteMode) (l : Location) : ByteArray :=
  match mode, fs.entry? l with
  | .append, some (.file content) => content
  | _, _ => ByteArray.empty

/-- Writes a text to the file of a path, which is made if it is missing; its directory has to
exist. -/
def writeText (fs : FileSystem) (path : String) (mode : WriteMode) (text : String) :
    Except IoFault FileSystem :=
  match fs.locateForWriting path with
  | .error fault => .error fault
  | .ok l => .ok (fs.put l (.file (fs.heldBefore mode l ++ text.toUTF8)))

/-- A file system with nothing in it but its working directory. -/
def empty (working : Location) : FileSystem :=
  ⟨(List.range working.length).map fun n => (working.take (n + 1), .directory), working⟩

end FileSystem

end FeedAudit
