/-!
# Trees of files

A file with its content, or a directory with named entries. A location is the list of
names that leads to a place in a tree. Each operation changes one location and leaves
the others as they are.
-/

namespace Intake.Files

inductive Node where
  | file (content : ByteArray)
  | dir (entries : List (String × Node))
  deriving Inhabited

/-- The names from the root of a tree to a place in it. -/
abbrev Location := List String

namespace Node

def empty : Node := .dir []

def isDir : Node → Bool
  | .dir _ => true
  | .file _ => false

def isFile (n : Node) : Bool := !n.isDir

def entries : Node → List (String × Node)
  | .dir es => es
  | .file _ => []

def get? : Node → Location → Option Node
  | n, [] => some n
  | n, name :: rest => (n.entries.lookup name).bind fun child => child.get? rest

def setEntry (name : String) (child : Node) : List (String × Node) → List (String × Node)
  | [] => [(name, child)]
  | e :: rest => if e.1 = name then (name, child) :: rest else e :: setEntry name child rest

def removeEntry (name : String) (es : List (String × Node)) : List (String × Node) :=
  es.filter fun e => e.1 ≠ name

/-- Puts something at a location, with directories on the way to it where there is nothing yet.
Nothing is put below a file. -/
def put (x : Node) : Location → Node → Node
  | [], _ => x
  | _ :: _, .file content => .file content
  | name :: rest, .dir es => .dir (setEntry name (put x rest ((es.lookup name).getD .empty)) es)

def remove : Location → Node → Node
  | [], n => n
  | _, .file content => .file content
  | [name], .dir es => .dir (removeEntry name es)
  | name :: next :: rest, .dir es =>
    match es.lookup name with
    | some child => .dir (setEntry name (remove (next :: rest) child) es)
    | none => .dir es

/-! ## Empty directories -/

mutual

/-- The tree without directories that hold no file at any depth, if anything is left of it, and
the number of directories removed. -/
def prune : Node → Option Node × Nat
  | .file content => (some (.file content), 0)
  | .dir es =>
    let (kept, count) := pruneEntries es
    if kept.isEmpty then (none, count + 1) else (some (.dir kept), count)
termination_by structural n => n

def pruneEntries : List (String × Node) → List (String × Node) × Nat
  | [] => ([], 0)
  | (name, n) :: rest =>
    let (n?, count) := prune n
    let (kept, count') := pruneEntries rest
    match n? with
    | some n => ((name, n) :: kept, count + count')
    | none => (kept, count + count')

end

/-! ## Listing -/

/-- The paths of some entries and of all below them, after `base`; those of directories end in a
slash. -/
def entryPaths (base : String) : List (String × Node) → List String
  | [] => []
  | (name, .file _) :: rest => (base ++ name) :: entryPaths base rest
  | (name, .dir es) :: rest =>
    (base ++ name ++ "/") :: (entryPaths (base ++ name ++ "/") es ++ entryPaths base rest)

def listing (n : Node) : List String := (entryPaths "" n.entries).mergeSort fun a b => a ≤ b

end Node

end Intake.Files
