import Intake.Fault
import Intake.Files.System

/-!
# Sources of documents

A source is one remote item. It can be probed, which tells whether the item exists and
when its events were, and downloaded. What it answers may depend on the state of the
remote system, which it may change.
-/

namespace Intake

inductive Probe where
  | absent
  | present (stamps : List String)
  deriving DecidableEq, Repr

/-- What a download gave: the time stamps in it, and the bytes to be staged, where these can be
made of it. -/
structure Download where
  stamps : List String
  content : Except Fault ByteArray

/-- A remote item, in a remote system whose states are `σ`. -/
structure Source (σ : Type) where
  locator : String
  extension : String
  probe : σ → Except Fault Probe × σ
  download : σ → Except Fault Download × σ

/-- What a step of the work can see and change. -/
structure World (σ : Type) where
  files : Files.FileSystem
  remote : σ

end Intake
