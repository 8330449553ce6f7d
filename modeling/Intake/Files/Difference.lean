import Intake.Files.System

/-!
# Differences of trees

What has to be removed from one tree and added to it to get another one. Directories come
before what is in them where something is added, and after it where something is removed.
-/

namespace Intake.Files.Node

/-- What is at a place: a file with its content, or a directory. -/
abbrev Place := Location × Option ByteArray

def entryPlaces (base : Location) : List (String × Node) → List Place
  | [] => []
  | (name, .file content) :: rest => (base ++ [name], some content) :: entryPlaces base rest
  | (name, .dir es) :: rest =>
    (base ++ [name], none) :: (entryPlaces (base ++ [name]) es ++ entryPlaces base rest)

def places (n : Node) : List Place := entryPlaces [] n.entries

def hasPlace (n : Node) (p : Place) : Bool :=
  match n.get? p.1 with
  | some (.dir _) => p.2.isNone
  | some (.file _) => p.2.isSome
  | none => false

def samePlace (n : Node) (p : Place) : Bool :=
  match n.get? p.1, p.2 with
  | some (.dir _), none => true
  | some (.file content), some content' => content == content'
  | _, _ => false

def lostPlaces (before after : Node) : List Place :=
  (before.places.filter (!after.hasPlace ·)).reverse

def newPlaces (before after : Node) : List Place := after.places.filter (!before.samePlace ·)

end Intake.Files.Node
