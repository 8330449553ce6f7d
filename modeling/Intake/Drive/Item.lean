import Intake.Document.Source
import Intake.Drive.Contents

/-!
# Files as sources

A file is staged as the bytes that it is made of. These carry no times, so a download has
those that were told when the file was found. A file in the trash counts as absent.
-/

namespace Intake.Drive

open Http (Client)

structure Item (σ : Type) where
  file : File
  client : Client σ

namespace Item

variable {σ : Type}

/-- What is found where the service tells this about a file. -/
def found : Option File → Probe
  | some f => if f.trashed then .absent else .present f.stamps
  | none => .absent

def probe (i : Item σ) (remote : σ) : Except Fault Probe × σ :=
  match file? i.client i.file.id remote with
  | (.ok f, remote) => (.ok (found f), remote)
  | (.error f, remote) => (.error f, remote)

def download (i : Item σ) (remote : σ) : Except Fault Download × σ :=
  match content i.client i.file remote with
  | (.ok bytes, remote) => (.ok ⟨i.file.stamps, .ok bytes⟩, remote)
  | (.error f, remote) => (.error f, remote)

def source (i : Item σ) : Source σ := ⟨i.file.id, i.file.extension, i.probe, i.download⟩

/-! ## Descriptions -/

def describeClient (c : Client σ) : String :=
  Text.describeRecord "DriveClient"
    [("base_url", Text.quote c.baseUrl), ("token", Text.quote "<redacted>")]

def describe (i : Item σ) : String :=
  Text.describeRecord "DriveSource"
    [("file", i.file.describe), ("extension", Text.quote i.file.extension),
      ("client", describeClient i.client)]

end Item

end Intake.Drive
