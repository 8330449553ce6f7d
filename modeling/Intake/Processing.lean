import Intake.Cleaning.Cleaners
import Intake.Dump.Reader
import Intake.Files.System
import Intake.Partition

/-!
# Processing staged files

A staged file is made into elements: a message dump into one element for each message,
any other text into its paragraphs. The elements are cleaned, those that are left without
text are dropped, and the others get the identifiers of their positions.
-/

namespace Intake

open Element Files

/-- What comes of processing a file; a processor may also break down. -/
inductive Verdict where
  | elements (ps : List Paragraph)
  | failed (f : Fault)
  | brokeDown (message : String)

abbrev Processor := FileSystem → Path → String → Verdict

namespace Processing

def ofExcept : Except Fault (List Paragraph) → Verdict
  | .ok ps => .elements ps
  | .error f => .failed f

def lowerAscii (s : String) : String := String.ofList (s.toList.map Char.toLower)

def isDump (p : Path) : Bool := p.extension?.any fun ext => lowerAscii ext == "xml"

def elementsOf (content : String) (dump : Bool) (origin : Origin) : Except Fault (List Paragraph) :=
  if dump then
    match Dump.read content with
    | .ok texts => .ok (texts.map (Partition.unplaced .narrativeText origin))
    | .error flaw => .error (.unreadable (.notADump flaw))
  else .ok (Partition.partition content origin)

/-- Cleans the elements one after the other and drops those that have no text left. -/
def cleanAll (cleaners : List Cleaning.Cleaner) (ps : List Paragraph) :
    Except Fault (List Paragraph) :=
  (ps.mapM (Paragraph.clean cleaners)).map fun ps => ps.filter (!·.text.isEmpty)

def process (cleaners : List Cleaning.Cleaner) (fs : FileSystem) (p : Path) (locator : String) :
    Except Fault (List Paragraph) := do
  let bytes ← (fs.read p).mapError Fault.ofFile
  let some content := String.fromUTF8? bytes | .error (.unreadable (.notText p.text))
  let ps ← elementsOf content (isDump p) ⟨none, p.fileName?, some locator⟩
  let ps ← cleanAll cleaners ps
  .ok (number ps)

def processor (cleaners : List Cleaning.Cleaner) : Processor := fun fs p locator =>
  ofExcept (process cleaners fs p locator)

def defaultCleaners : List Cleaning.Cleaner := [Cleaning.ofFunction Cleaning.extraWhitespace]

end Processing

end Intake
