import Intake.Text.Split

/-!
# Paths

A path is kept as it was written, since a slash at its end and the names `.` and `..`
have a meaning of their own for the file system. Its components are the names in it
without those that lead nowhere.
-/

namespace Intake.Files

structure Path where
  text : String
  deriving DecidableEq, Repr

namespace Path

def isAbsolute (p : Path) : Bool := p.text.toList.head? == some '/'

/-- The path of `name` within `p`. An absolute name stands for itself. -/
def join (p : Path) (name : String) : Path :=
  if name.toList.head? = some '/' then ⟨name⟩
  else if p.text.isEmpty || p.text.toList.getLast? == some '/' then ⟨p.text ++ name⟩
  else ⟨p.text ++ "/" ++ name⟩

/-- What stands between the slashes, without the empty pieces. -/
def names (p : Path) : List String :=
  ((Text.splitAt '/' p.text.toList).filter (!·.isEmpty)).map String.ofList

def endsInSlash (p : Path) : Bool := p.text.toList.getLast? == some '/'

/-- The names without `.`, which is kept only at the beginning of a relative path. -/
def components (p : Path) : List String :=
  match p.names with
  | [] => []
  | n :: rest =>
    if n = "." ∧ ¬p.isAbsolute then n :: rest.filter (· ≠ ".") else (n :: rest).filter (· ≠ ".")

def ofComponents (absolute : Bool) (cs : List String) : Path :=
  ⟨(if absolute then "/" else "") ++ "/".intercalate cs⟩

/-- The last component, where it is the name of a file. -/
def fileName? (p : Path) : Option String :=
  match p.components.getLast? with
  | some n => if n = "." ∨ n = ".." then none else some n
  | none => none

def parent? (p : Path) : Option Path :=
  match p.components with
  | [] => none
  | cs => some (ofComponents p.isAbsolute cs.dropLast)

/-- What follows the last dot of the file name, if something stands before the dot. -/
def extension? (p : Path) : Option String := do
  let name := (← p.fileName?).toList.reverse
  let ext := name.takeWhile (· ≠ '.')
  match name.drop ext.length with
  | '.' :: _ :: _ => some (String.ofList ext.reverse)
  | _ => none

end Path

end Intake.Files
