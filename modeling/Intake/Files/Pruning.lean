import Intake.Files.System

/-!
# Removing empty directories

Below a directory every directory goes that holds no file at any depth, the deepest ones
first, and then the directory itself. A directory that is named by `.` or `..`, or that is
the root, is emptied but stays.
-/

namespace Intake.Files.FileSystem

/-- Whether the directory at the end of a path can be removed by that path. -/
def removable (p : Path) : Bool :=
  match p.names.getLast? with
  | some name => !isDots name
  | none => false

/-- Removes the empty directories at and below a path, and counts them. -/
def pruneAt (fs : FileSystem) (p : Path) : Nat × FileSystem :=
  match fs.locate p with
  | .error _ => (0, fs)
  | .ok loc =>
    match hdir : fs.get? loc with
    | some (.dir es) =>
      match hkept : (Node.dir es).prune with
      | (some n, count) =>
        have := Node.distinct_prune (Node.distinct_of_get? fs.distinct hdir) (congrArg (·.1) hkept)
        (count, fs.put loc n)
      | (none, count) =>
        if removable p then (count, fs.remove loc) else (count - 1, fs.put loc .empty)
    | _ => (0, fs)

end Intake.Files.FileSystem
