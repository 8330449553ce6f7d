import Intake.CommandLine.Program
import Intake.CommandLine.Usage
import Intake.Files.Difference
import Std.Time.DateTime.Timestamp

/-!
# The command line

Takes the arguments, the environment and the directories that are used, runs the program on
them and carries out what it changed. No transport is built in: each request that the
program makes finds nobody to answer it.
-/

namespace Intake.Shell

open Files

/-! ## Reading -/

def entryAt (loc : Location) : IO.FS.DirEntry := ⟨"/", "/" ++ "/".intercalate loc⟩

/-- Takes over the file or directory of an entry, with all that is in it. -/
partial def load (fs : FileSystem) (loc : Location) (entry : IO.FS.DirEntry) :
    IO FileSystem := do
  if ← entry.path.isDir then
    let mut fs := fs.put loc .empty
    for e in ← entry.path.readDir do
      fs ← load fs (loc ++ [e.fileName]) e
    return fs
  else return fs.put loc (.file (← IO.FS.readBinFile entry.path))

/-- Takes over the directories on the way to a location, as far as they exist, and all that is
there. -/
def takeOver (fs : FileSystem) (loc : Location) : IO FileSystem := do
  let mut fs := fs
  for n in List.range (loc.length + 1) do
    let entry := entryAt (loc.take n)
    if n = loc.length then
      if ← entry.path.pathExists then fs ← load fs loc entry
    else if (fs.get? (loc.take n)).isNone then
      if ← entry.path.isDir then fs := fs.put (loc.take n) .empty
  return fs

def takeOverFile (fs : FileSystem) (loc : Location) : IO FileSystem := do
  if ← (entryAt loc).path.pathExists then takeOver fs loc else return fs

def readVariables : IO (List (String × String)) := do
  let values ← CommandLine.variableNames.mapM fun name => do
    return (name, ← IO.getEnv name)
  return values.filterMap fun (name, value) => value.map fun v => (name, v)

def now : IO Time.Instant := do
  let t ← Std.Time.Timestamp.now
  return (Time.Instant.of? t.val.second.val t.val.nano.val.toNat).getD .epoch

/-! ## Writing -/

def carryOut (before after : Node) : IO Unit := do
  for (loc, content) in before.lostPlaces after do
    let path := (entryAt loc).path
    if content.isSome then IO.FS.removeFile path else IO.FS.removeDirAll path
  for (loc, content) in before.newPlaces after do
    let path := (entryAt loc).path
    match content with
    | some bytes => IO.FS.writeBinFile path bytes
    | none => IO.FS.createDirAll path

def report : CommandLine.Exit → IO Unit
  | .success => return
  | .stopped .asked => IO.println CommandLine.usage
  | .stopped .misused => IO.eprintln CommandLine.usage
  | .failure message | .brokeDown message => IO.eprintln ("Error: " ++ message)

/-! ## Running -/

def patience : Nat := 1000000

/-- The files that a run with these arguments can see. -/
def visibleFiles (args : List String) (e : Environment) (cwd : Location) : IO FileSystem := do
  let mut fs := FileSystem.put ⟨.empty, cwd⟩ cwd .empty
  for dir in Environment.upwards cwd do
    fs ← takeOverFile fs (dir ++ [".env"])
  let e := e.load fs
  match CommandLine.Invocation.read args e with
  | .error _ => return fs
  | .ok i =>
    for p in i.directories e do
      fs ← takeOver fs (p.location cwd)
    return fs

end Intake.Shell

open Intake in
def main (args : List String) : IO UInt32 := do
  let cwd := Files.Path.names ⟨(← IO.currentDir).toString⟩
  let e : Environment := ⟨← Shell.readVariables, none⟩
  let files ← Shell.visibleFiles args e cwd
  let (exit, w) :=
    CommandLine.program args e ⟨.dead, Shell.patience, ← Shell.now, .inOrder⟩
      (⟨files, ()⟩ : World Unit)
  Shell.carryOut files.root w.files.root
  Shell.report exit
  return exit.code.toUInt32
