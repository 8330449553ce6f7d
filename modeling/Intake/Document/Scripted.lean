import Intake.Document.Source
import Intake.Script

/-!
# Sources that follow a script

A remote system in which each item answers probes and downloads as it was laid down, and
in which every call is noted. It stands in for a real one where a run is to be looked at.
-/

namespace Intake.Scripted

/-- An item and what it answers. An empty script answers that there is nothing special. -/
structure Item where
  locator : String
  extension : String
  probes : Script (Except Fault Probe)
  downloads : Script (Except Fault Download)

inductive Call where
  | probe (locator : String)
  | download (locator : String)
  deriving DecidableEq, Repr

structure System where
  items : List Item
  calls : List Call

namespace System

def update (s : System) (index : Nat) (call : Call) (item : Item) : System :=
  ⟨s.items.set index item, call :: s.calls⟩

def probe (index : Nat) (s : System) : Except Fault Probe × System :=
  match s.items[index]? with
  | none => (.ok .absent, s)
  | some item =>
    let (answer, probes) := item.probes.next
    (answer.getD (.ok (.present [])),
      s.update index (.probe item.locator) { item with probes := probes })

def download (index : Nat) (s : System) : Except Fault Download × System :=
  match s.items[index]? with
  | none => (.ok ⟨[], .ok .empty⟩, s)
  | some item =>
    let (answer, downloads) := item.downloads.next
    (answer.getD (.ok ⟨[], .ok .empty⟩),
      s.update index (.download item.locator) { item with downloads := downloads })

end System

def source (item : Item) (index : Nat) : Source System :=
  ⟨item.locator, item.extension, System.probe index, System.download index⟩

def sources (items : List Item) : List (Source System) :=
  items.zipIdx.map fun (item, index) => source item index

end Intake.Scripted
