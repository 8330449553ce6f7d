import Intake.Files.Changes

/-!
# Files that are complete when they appear

Content is written to a temporary file beside its target, which it then replaces in one
step. At no time is there a target with a part of the content, and the temporary file is
gone afterwards, whether the step succeeded or not.
-/

namespace Intake.Files.FileSystem

/-- A name that no entry has: it is longer than all of them. -/
def freshName (es : List (String × Node)) : String :=
  ".tmp" ++ String.ofList (List.replicate (es.foldr (fun e n => e.1.length + n) 0) '_')

/-- The location of a directory; the empty path stands for the current one. -/
def locateDir (fs : FileSystem) (dir : Path) : Except FileError Location := do
  let loc ← if dir.text.isEmpty then .ok fs.cwd else fs.locate dir
  match fs.get? loc with
  | some (.dir _) => .ok loc
  | some (.file _) => .error .notADirectory
  | none => .error .notFound

/-- Where a temporary file in the directory at a location is put. -/
def temporary (fs : FileSystem) (loc : Location) : Location :=
  loc ++ [freshName ((fs.get? loc).elim [] Node.entries)]

/-- Makes the directory, writes the content to a temporary file in it and moves that to the target.
A failure while the content is made comes after the directory was made. -/
def publish {ε : Type} (ofFile : FileError → ε) (fs : FileSystem) (dir target : Path)
    (content : Except ε ByteArray) : Except ε Unit × FileSystem :=
  match fs.makeDirs dir with
  | (.error e, fs) => (.error (ofFile e), fs)
  | (.ok (), fs) =>
    match fs.locateDir dir with
    | .error e => (.error (ofFile e), fs)
    | .ok loc =>
      let temporary := fs.temporary loc
      let fs := fs.put temporary (.file (content.toOption.getD .empty))
      match content with
      | .error e => (.error e, fs.remove temporary)
      | .ok bytes =>
        match fs.moveTo temporary bytes target with
        | .ok fs => (.ok (), fs)
        | .error e => (.error (ofFile e), fs.remove temporary)

end Intake.Files.FileSystem
