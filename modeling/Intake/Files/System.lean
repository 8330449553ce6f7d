import Intake.Files.Distinct
import Intake.Files.FileError
import Intake.Files.Path

/-!
# File systems

A tree of files with a current directory. Paths are followed name by name: `.` stays,
`..` goes up, any other name must be an entry of the directory reached so far. An
operation that is refused leaves the tree as it was.
-/

namespace Intake.Files

def Location.enter (loc : Location) (name : String) : Location :=
  if name = "." then loc else if name = ".." then loc.dropLast else loc ++ [name]

namespace Path

def origin (p : Path) (cwd : Location) : Location := if p.isAbsolute then [] else cwd

/-- The location that a path names, whatever is there. -/
def location (p : Path) (cwd : Location) : Location := p.names.foldl .enter (p.origin cwd)

end Path

structure FileSystem where
  root : Node
  cwd : Location
  [distinct : root.Distinct]

def nameLimit : Nat := 255

namespace FileSystem

instance (fs : FileSystem) : fs.root.Distinct := fs.distinct

def get? (fs : FileSystem) (loc : Location) : Option Node := fs.root.get? loc

/-- The directory to which one name leads. -/
def step (fs : FileSystem) (loc : Location) (name : String) : Except FileError Location :=
  match fs.get? loc with
  | none => .error .notFound
  | some (.file _) => .error .notADirectory
  | some (.dir es) =>
    if name = "." then .ok loc
    else if name = ".." then .ok loc.dropLast
    else if nameLimit < name.utf8ByteSize then .error .nameTooLong
    else if (es.lookup name).isSome then .ok (loc ++ [name])
    else .error .notFound

def walk (fs : FileSystem) (loc : Location) : List String → Except FileError Location
  | [] => .ok loc
  | name :: rest => do
    let loc ← fs.step loc name
    fs.walk loc rest

def origin (fs : FileSystem) (p : Path) : Location := p.origin fs.cwd

/-- Refuses paths that can lead nowhere. -/
def checkPath (p : Path) : Except FileError Unit :=
  if p.text.toList.contains '\x00' then .error .nulInName
  else if p.text.isEmpty then .error .notFound
  else .ok ()

def locate (fs : FileSystem) (p : Path) : Except FileError Location := do
  checkPath p
  let loc ← fs.walk (fs.origin p) p.names
  match fs.get? loc with
  | none => .error .notFound
  | some n => if p.endsInSlash && n.isFile then .error .notADirectory else .ok loc

def status? (fs : FileSystem) (p : Path) : Option Node :=
  match fs.locate p with
  | .ok loc => fs.get? loc
  | .error _ => none

def isFile (fs : FileSystem) (p : Path) : Bool := (fs.status? p).any Node.isFile
def isDir (fs : FileSystem) (p : Path) : Bool := (fs.status? p).any Node.isDir
def exists? (fs : FileSystem) (p : Path) : Bool := (fs.status? p).isSome

/-- The directory that holds the last name of a path, and that name; none for the path of a root. -/
def locateParent (fs : FileSystem) (p : Path) : Except FileError (Option (Location × String)) := do
  checkPath p
  match p.names.getLast? with
  | none => .ok none
  | some last => do
    let loc ← fs.walk (fs.origin p) p.names.dropLast
    match fs.get? loc with
    | some (.dir _) => .ok (some (loc, last))
    | some (.file _) => .error .notADirectory
    | none => .error .notFound

def isDots (name : String) : Bool := name == "." || name == ".."

/-- The entry of a directory that a name stands for, if there is one. -/
def entry? (fs : FileSystem) (loc : Location) (name : String) : Option Node :=
  fs.get? (loc ++ [name])

def put (fs : FileSystem) (loc : Location) (n : Node) [n.Distinct] : FileSystem :=
  ⟨Node.put n loc fs.root, fs.cwd⟩

def remove (fs : FileSystem) (loc : Location) : FileSystem :=
  ⟨Node.remove loc fs.root, fs.cwd⟩

def read (fs : FileSystem) (p : Path) : Except FileError ByteArray := do
  let loc ← fs.locate p
  match fs.get? loc with
  | some (.file content) => .ok content
  | some (.dir _) => .error .isADirectory
  | none => .error .notFound

end FileSystem

end Intake.Files
