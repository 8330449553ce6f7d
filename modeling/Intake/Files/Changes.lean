import Intake.Files.System

/-!
# Changes of a file system

Making directories, removing and moving files. A single change that is refused leaves
everything as it was; of a directory that is made with its parents, the parents made
before a refusal stay.
-/

namespace Intake.Files.FileSystem

def makeDir (fs : FileSystem) (p : Path) : Except FileError FileSystem := do
  match ← fs.locateParent p with
  | none => .error .exists
  | some (loc, name) =>
    if isDots name then .error .exists
    else if nameLimit < name.utf8ByteSize then .error .nameTooLong
    else if ( fs.entry? loc name).isSome then .error .exists
    else .ok (fs.put (loc ++ [name]) .empty)

/-- Makes a directory again after its parent was made. -/
def remakeDir (fs : FileSystem) (p : Path) : Except FileError Unit × FileSystem :=
  match fs.makeDir p with
  | .ok fs => (.ok (), fs)
  | .error e => (if fs.isDir p then .ok () else .error e, fs)

/-- Makes a directory and its parents, of which there are at most `depth`. What was made before a
failure stays. -/
def makeDirsWithin : Nat → Path → FileSystem → Except FileError Unit × FileSystem
  | depth, p, fs =>
    if p.components.isEmpty && !p.isAbsolute then (.ok (), fs)
    else
      match fs.makeDir p with
      | .ok fs => (.ok (), fs)
      | .error .notFound =>
        match depth, p.parent? with
        | depth + 1, some q =>
          match makeDirsWithin depth q fs with
          | (.ok (), fs) => fs.remakeDir p
          | (.error e, fs) => (.error e, fs)
        | _, _ => (.error .noTree, fs)
      | .error e => (if fs.isDir p then .ok () else .error e, fs)

def makeDirs (fs : FileSystem) (p : Path) : Except FileError Unit × FileSystem :=
  makeDirsWithin p.components.length p fs

def removeFile (fs : FileSystem) (p : Path) : Except FileError FileSystem := do
  match ← fs.locateParent p with
  | none => .error .isADirectory
  | some (loc, name) =>
    if isDots name then .error .isADirectory
    else
      match fs.entry? loc name with
      | none => .error (if nameLimit < name.utf8ByteSize then .nameTooLong else .notFound)
      | some (.dir _) => .error .isADirectory
      | some (.file _) =>
        if p.endsInSlash then .error .notADirectory else .ok (fs.remove (loc ++ [name]))

/-- Moves the file at a location to a path, in place of a file that is there. -/
def moveTo (fs : FileSystem) (source : Location) (content : ByteArray) (p : Path) :
    Except FileError FileSystem := do
  if p.text.toList.contains '\x00' then .error .invalid
  match ← fs.locateParent p with
  | none => .error .busy
  | some (loc, name) =>
    if isDots name then .error .busy
    else if nameLimit < name.utf8ByteSize then .error .nameTooLong
    else if p.endsInSlash then .error .notADirectory
    else
      match fs.entry? loc name with
      | some (.dir _) => .error .isADirectory
      | _ => .ok ((fs.remove source).put (loc ++ [name]) (.file content))

end Intake.Files.FileSystem
