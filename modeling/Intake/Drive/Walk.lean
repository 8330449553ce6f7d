import Intake.Drive.Contents

/-!
# Walks through folders

The files of a folder in breadth-first order: first its own, then those of the folders in
it, and so on. A folder that is reached on several ways is listed on each of them, so a
walk through a folder that contains itself has no end; it is given up as unfinished.
-/

namespace Intake.Drive

open Http (Client)

variable {σ : Type}

def filesAmong (items : List File) : List File := items.filter (!·.isFolder)

def foldersAmong (items : List File) : List String :=
  (items.filter File.isFolder).map (·.id)

/-- The files of the pending folders, of which at most this many are listed. -/
def walk (client : Client σ) (recursive : Bool) :
    Nat → List String → σ → Except Fault (List File) × σ
  | _, [], remote => (.ok [], remote)
  | 0, _ :: _, remote => (.error .unfinished, remote)
  | folders + 1, folder :: pending, remote =>
    match children client folder remote with
    | (.error f, remote) => (.error f, remote)
    | (.ok items, remote) =>
      let pending := if recursive then pending ++ foldersAmong items else pending
      match walk client recursive folders pending remote with
      | (.ok files, remote) => (.ok (filesAmong items ++ files), remote)
      | (.error f, remote) => (.error f, remote)

def filesOf (client : Client σ) (recursive : Bool) (folder : String) (remote : σ) :
    Except Fault (List File) × σ :=
  walk client recursive client.patience [folder] remote

end Intake.Drive
