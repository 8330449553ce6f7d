import Intake.Drive.File
import Intake.Fault
import Intake.Text.Case

/-!
# What to read from a drive

The file or folder to begin with, the token, and which files are wanted. A configuration
is checked when it is made: it names an item and has a token.
-/

namespace Intake.Drive

def serviceUrl : String := "https://www.googleapis.com/drive/v3"

structure Config where
  root : String
  token : String
  /-- The only extension that is wanted, with a dot and in lowercase. -/
  extension : Option String
  recursive : Bool
  url : String
  deriving DecidableEq

namespace Config

/-- An extension in its normal form; none if nothing is left of it. -/
def tidyExtension (ext : String) : Option String :=
  let body := Text.lower (String.ofList ((Text.trim ext).toList.dropWhile (· = '.')))
  if body.isEmpty then none else some ("." ++ body)

def ofText (root token : String) (extension : Option String) (recursive : Bool) :
    Except Fault Config := do
  let root := Text.trim root
  if root.isEmpty then .error (.misconfigured .blankDriveId)
  if Text.isBlankText token then .error (.misconfigured .blankDriveToken)
  .ok ⟨root, token, extension.bind tidyExtension, recursive, serviceUrl⟩

def accepts (c : Config) (f : File) : Bool :=
  c.extension.all fun wanted => "." ++ f.extension == wanted

def describe (c : Config) : String :=
  Text.describeRecord "GoogleDriveConfig"
    [("drive_id", Text.quote c.root), ("token", Text.quote "<redacted>"),
      ("extension", Text.describeOption (c.extension.map Text.quote)),
      ("recursive", Text.describeBool c.recursive), ("api_url", Text.quote c.url)]

end Config

end Intake.Drive
