/-!
# Categories of elements

What an element is within a document. Names and paragraphs have kinds of their own, each
of which is one category.
-/

namespace Intake.Element

inductive Category where
  | uncategorized
  | sender
  | recipient
  | metaData
  | receivedInfo
  | attachment
  | subject
  | bodyText
  | text
  | narrativeText
  | title
  deriving DecidableEq, Repr

def Category.name : Category → String
  | .uncategorized => "Uncategorized"
  | .sender => "Sender"
  | .recipient => "Recipient"
  | .metaData => "MetaData"
  | .receivedInfo => "ReceivedInfo"
  | .attachment => "Attachment"
  | .subject => "Subject"
  | .bodyText => "BodyText"
  | .text => "Text"
  | .narrativeText => "NarrativeText"
  | .title => "Title"

/-- From which header field a name was taken. -/
inductive NameKind where
  | uncategorized
  | sender
  | recipient
  | metaData
  | receivedInfo
  | attachment
  deriving DecidableEq, Repr

def NameKind.category : NameKind → Category
  | .uncategorized => .uncategorized
  | .sender => .sender
  | .recipient => .recipient
  | .metaData => .metaData
  | .receivedInfo => .receivedInfo
  | .attachment => .attachment

inductive TextKind where
  | text
  | narrativeText
  | title
  | subject
  deriving DecidableEq, Repr

def TextKind.category : TextKind → Category
  | .text => .text
  | .narrativeText => .narrativeText
  | .title => .title
  | .subject => .subject

def NameKind.table : List (String × NameKind) :=
  [.uncategorized, .sender, .recipient, .metaData, .receivedInfo, .attachment].map
    fun k : NameKind => (k.category.name, k)

def TextKind.table : List (String × TextKind) :=
  [.text, .narrativeText, .title, .subject].map fun k : TextKind => (k.category.name, k)

end Intake.Element
