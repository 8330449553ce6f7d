import Intake.Json.Times
import Intake.Text.Described

/-!
# Files of a drive

A file as the service describes it. Documents in the service's own formats have no content
that could be downloaded; some of them can be exported to a text format.
-/

namespace Intake.Drive

structure File where
  id : String
  name : String
  mimeType : String
  created : Option String
  modified : Option String
  trashed : Bool
  deriving DecidableEq, Repr

structure Format where
  mimeType : String
  extension : String
  deriving DecidableEq, Repr

def nativePrefix : String := "application/vnd.google-apps."

def folderType : String := "application/vnd.google-apps.folder"

def exportFormats : List (String × Format) := [
  ("application/vnd.google-apps.document", ⟨"text/plain", "txt"⟩),
  ("application/vnd.google-apps.spreadsheet", ⟨"text/csv", "csv"⟩),
  ("application/vnd.google-apps.presentation", ⟨"text/plain", "txt"⟩)]

namespace File

def isFolder (f : File) : Bool := f.mimeType == folderType

def isNative (f : File) : Bool := nativePrefix.toList.isPrefixOf f.mimeType.toList

def exportFormat? (f : File) : Option Format := exportFormats.lookup f.mimeType

def isDownloadable (f : File) : Bool :=
  !f.isFolder && (!f.isNative || f.exportFormat?.isSome)

/-- What follows the last dot of a name, if it is made of letters and digits without accents
and something stands before the dot; in lowercase. -/
def suffix (name : String) : String :=
  let reversed := name.toList.reverse
  let ext := reversed.takeWhile (· ≠ '.')
  match reversed.drop ext.length with
  | '.' :: _ :: _ =>
    if ext.all Char.isAlphanum then String.ofList (ext.reverse.map Char.toLower) else ""
  | _ => ""

def extension (f : File) : String :=
  match f.exportFormat? with
  | some format => format.extension
  | none => suffix f.name

def stamps (f : File) : List String := f.created.toList ++ f.modified.toList

/-! ## JSON -/

open Json.Decode in
def shape : Shape where
  name := "DriveFile"
  fields := [.required "id" string, .defaulted "name" string, .defaulted "mimeType" string,
    .defaulted "createdTime" (optional string), .defaulted "modifiedTime" (optional string),
    .defaulted "trashed" boolean]

open Json.Decode in
def decode : Json.Decoder File := fun v => do
  let entries ← entriesOf shape v
  let id ← field entries "id" string
  let name ← fieldD entries "name" string ""
  let mimeType ← fieldD entries "mimeType" string ""
  let created ← fieldD entries "createdTime" (optional string) none
  let modified ← fieldD entries "modifiedTime" (optional string) none
  let trashed ← fieldD entries "trashed" boolean false
  .ok ⟨id, name, mimeType, created, modified, trashed⟩

def toJson (f : File) : Json :=
  .object [("id", .string f.id), ("name", .string f.name), ("mimeType", .string f.mimeType),
    ("createdTime", Json.ofOption .string f.created),
    ("modifiedTime", Json.ofOption .string f.modified), ("trashed", .bool f.trashed)]

/-! ## Descriptions -/

def describe (f : File) : String :=
  Text.describeRecord "DriveFile"
    [("id", Text.quote f.id), ("name", Text.quote f.name), ("mime_type", Text.quote f.mimeType),
      ("created_time", Text.describeOption (f.created.map Text.quote)),
      ("modified_time", Text.describeOption (f.modified.map Text.quote)),
      ("trashed", Text.describeBool f.trashed)]

end File

end Intake.Drive
