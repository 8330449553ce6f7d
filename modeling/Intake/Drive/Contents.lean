import Intake.Drive.File
import Intake.Http.Body
import Intake.Listing

/-!
# Contents of a drive

What the service tells about a file, the items of a folder, and the bytes of a file. The
items of a folder are a listing in pages, without those that are in the trash.
-/

namespace Intake.Drive

open Http (Client Reply)

def fileFields : String := "id,name,mimeType,createdTime,modifiedTime,trashed"

def pageSize : String := "1000"

variable {σ : Type}

def unavailable {α : Type} (locator : String) (r : Except Outage α) : Except Fault α :=
  r.mapError (Fault.unavailable locator)

def ask {α : Type} (client : Client σ) (locator path : String) (query : List (String × String))
    (read : Reply → Except Outage α) (remote : σ) : Except Fault α × σ :=
  match client.get path query remote with
  | (.error failure, remote) => (unavailable locator (.error (.exchange failure)), remote)
  | (.ok reply, remote) => (unavailable locator (read reply), remote)

def checkStatus (reply : Reply) : Except Outage Unit :=
  if reply.status.isSuccess then .ok () else .error (.refused "Drive" reply.status)

def filePath (id : String) : String := "/files/" ++ id

/-! ## Files -/

/-- The file in a reply; none if there is no such file. -/
def readFile? (reply : Reply) : Except Outage (Option File) := do
  if reply.status = .notFound then return none
  checkStatus reply
  let file ← (reply.decode File.shape.outline File.decode).mapError Outage.exchange
  return some file

def file? (client : Client σ) (id : String) (remote : σ) : Except Fault (Option File) × σ :=
  ask client id (filePath id) [("fields", fileFields), ("supportsAllDrives", "true")] readFile?
    remote

/-! ## Folders -/

open Json.Decode in
def pageShape : Shape where
  name := "FileList"
  fields := [.defaulted "files" (list File.decode),
    .defaulted "nextPageToken" (optional string)]

def pageOutline : Json.Outline := pageShape.outline [("files", .each File.shape.outline)]

open Json.Decode in
/-- A page of items; an empty name of the next page is none. -/
def decodePage : Json.Decoder (Page File) := fun v => do
  let entries ← entriesOf pageShape v
  let files ← fieldD entries "files" (list File.decode) []
  let next ← fieldD entries "nextPageToken" (optional string) none
  .ok ⟨files, next.filter (!·.isEmpty)⟩

def readPage (reply : Reply) : Except Outage (Page File) := do
  checkStatus reply
  (reply.decode pageOutline decodePage).mapError Outage.exchange

def childQuery (folder : String) : List (String × String) :=
  [("q", "'" ++ folder ++ "' in parents and trashed = false"),
    ("fields", "nextPageToken,files(" ++ fileFields ++ ")"), ("pageSize", pageSize),
    ("supportsAllDrives", "true"), ("includeItemsFromAllDrives", "true")]

def pager (client : Client σ) (folder : String) : Pager σ File := fun next =>
  ask client folder "/files" (childQuery folder ++ next.toList.map fun n => ("pageToken", n))
    readPage

def children (client : Client σ) (folder : String) (remote : σ) :
    Except Fault (List File) × σ :=
  (pager client folder).gather client.patience none remote

/-! ## Bytes -/

def readBytes (reply : Reply) : Except Outage ByteArray := do
  checkStatus reply
  reply.bytes.mapError Outage.exchange

/-- The content of a file, exported where the service cannot give it otherwise. -/
def content (client : Client σ) (f : File) (remote : σ) : Except Fault ByteArray × σ :=
  match f.exportFormat? with
  | some format =>
    ask client f.id (filePath f.id ++ "/export") [("mimeType", format.mimeType)] readBytes remote
  | none =>
    ask client f.id (filePath f.id) [("alt", "media"), ("supportsAllDrives", "true")] readBytes
      remote

end Intake.Drive
