import Intake.Files.FileError
import Intake.Http.Status
import Intake.Json.Decode
import Intake.Time.Window

/-!
# Faults

Why a step of the work failed. Every fault is a cause; the wording is in the `message`
functions alone. Where somebody else words the reason, the constructor `stated` keeps
their text.
-/

namespace Intake

inductive Misconfiguration where
  | notADate (field value : String)
  | noChannels
  | blankSlackToken
  | reversedWindow (oldest latest : Time.Instant)
  | blankDriveId
  | blankDriveToken
  | noConcurrency
  | noDownloadDirectory
  | noOutputDirectory
  | notABoolean (name value : String)
  | notANumber (name value : String)
  | stated (text : String)
  deriving DecidableEq

def Misconfiguration.message : Misconfiguration → String
  | .notADate field value =>
    field ++ " '" ++ value ++ "' does not match any accepted format " ++
      "(%Y-%m-%d, %Y-%m-%dT%H:%M:%S, %Y-%m-%dT%H:%M:%S%z, RFC 3339 or epoch seconds)"
  | .noChannels => "at least one Slack channel is required"
  | .blankSlackToken => "Slack token must not be empty"
  | .reversedWindow oldest latest =>
    "oldest (" ++ oldest.spacedText ++ ") is after latest (" ++ latest.spacedText ++ ")"
  | .blankDriveId => "Google Drive file or folder id is required"
  | .blankDriveToken => "Google Drive token must not be empty"
  | .noConcurrency => "concurrency must be at least 1"
  | .noDownloadDirectory => "download directory must not be empty"
  | .noOutputDirectory => "output directory must not be empty"
  | .notABoolean name value => name ++ " '" ++ value ++ "' is not a boolean"
  | .notANumber name value => name ++ " '" ++ value ++ "' is not a number"
  | .stated text => text

/-- Why a source did not give what was asked of it. -/
inductive Outage where
  /-- The server answered a request to `service` with a status other than success. -/
  | refused (service : String) (status : Http.Status)
  | reported (code : String)
  | notFound
  | exchange (failure : Http.Failure)
  | stated (text : String)
  deriving DecidableEq

def Outage.message : Outage → String
  | .refused service status => service ++ " returned HTTP " ++ status.text
  | .reported code => code
  | .notFound => "not found"
  | .exchange failure => failure.message
  | .stated text => text

inductive BadIdentity where
  | empty
  | notText (kind : String)
  | stated (text : String)
  deriving DecidableEq

def BadIdentity.message : BadIdentity → String
  | .empty => "element_id must be a non-empty string"
  | .notText kind => "element_id must be a string, got " ++ kind
  | .stated text => text

inductive DumpFlaw where
  | endOfText
  | badMarkup
  | badReference
  | mismatchedEnd
  | misplaced
  | repeated
  deriving DecidableEq, Repr

def DumpFlaw.message : DumpFlaw → String
  | .endOfText => "the document ends too early"
  | .badMarkup => "the markup is malformed"
  | .badReference => "a reference denotes no character"
  | .mismatchedEnd => "an end tag does not match"
  | .misplaced => "unexpected content"
  | .repeated => "an element is repeated"

inductive Unreadable where
  | notAStamp (text : String)
  | notAnObject (kind : String)
  | notText (path : String)
  | notADump (flaw : DumpFlaw)
  | stated (text : String)
  deriving DecidableEq

def Unreadable.message : Unreadable → String
  | .notAStamp text => "Unrecognized source timestamp: '" ++ text ++ "'"
  | .notAnObject kind => "element must be a JSON object, got " ++ kind
  | .notText path => path ++ " is not UTF-8 text"
  | .notADump flaw => "Failed to parse message dump: " ++ flaw.message
  | .stated text => text

inductive Trouble where
  | file (error : Files.FileError)
  | stated (text : String)
  deriving DecidableEq

def Trouble.message : Trouble → String
  | .file error => error.message
  | .stated text => text

inductive Fault where
  | misconfigured (cause : Misconfiguration)
  | unavailable (locator : String) (reason : Outage)
  /-- The cleaner at this position made something else than a text of a field. -/
  | unclean (field : String) (position : Nat) (found : String)
  | badIdentity (cause : BadIdentity)
  | storage (cause : Trouble)
  | mismatch (cause : Json.Mismatch)
  | unreadable (cause : Unreadable)
  /-- A listing did not end within the number of requests that it may take. -/
  | unfinished

namespace Fault

def message : Fault → String
  | .misconfigured cause => "Invalid configuration: " ++ cause.message
  | .unavailable locator reason =>
    "Source unavailable for '" ++ locator ++ "': " ++ reason.message
  | .unclean field position found =>
    "Cleaner produced invalid output for field '" ++ field ++ "' at position " ++
      String.ofList (Text.Decimal.digits position) ++ ": got " ++ found
  | .badIdentity cause => "Invalid element identifier: " ++ cause.message
  | .storage cause => "IO error: " ++ cause.message
  | .mismatch cause => "Serialization error: " ++ cause.message
  | .unreadable cause => "Parse error: " ++ cause.message
  | .unfinished => "The listing does not end"

def isUnavailable : Fault → Bool
  | .unavailable _ _ => true
  | _ => false

/-- The fault of the source with this locator; a fault that already is one stays as it is. -/
def atSource (locator : String) (f : Fault) : Fault :=
  if f.isUnavailable then f else .unavailable locator (.stated f.message)

def ofFile (e : Files.FileError) : Fault := .storage (.file e)

end Fault

/-! ## Times that have to be readable -/

def validBound (field value : String) : Except Fault Time.Instant :=
  match Time.readBound value with
  | some t => .ok t
  | none => .error (.misconfigured (.notADate field value))

def validStamp (value : String) : Except Fault Time.Instant :=
  match Time.readStamp value with
  | some t => .ok t
  | none => .error (.unreadable (.notAStamp (Text.trim value)))

def windowOf (stamps : List String) : Except Fault Time.Window :=
  (Time.Window.ofStamps stamps).mapError fun text => .unreadable (.notAStamp text)

end Intake
