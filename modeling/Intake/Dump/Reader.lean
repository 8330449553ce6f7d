import Intake.Dump.Content
import Intake.Text.Blank

/-!
# Reading message dumps

The reader goes through the items of a document and keeps its place in it. The root may
have any name. Its first child `message` and the ones with the same name that follow it
directly are the messages; other children are passed over, but a later `message` is a
repetition. The text of a message is in its child `text`, of which there may be one, with
nothing but text inside. A document type may stand anywhere, but it must not tear the text
of a message. Nothing is looked at after the end of the root.
-/

namespace Intake.Dump

/-- How far an element that is passed over has been gone through. Its first child or text is looked
at, and so is the first thing in this child and the one that follows; all else is skipped. -/
inductive Stage where
  | fresh
  /-- At the beginning of the first child, or behind the first child or text. -/
  | look (inChild : Bool)
  | skip (inChild : Bool) (depth : Nat)

inductive Place where
  | outside
  /-- Among the children of the root, before or after the messages. -/
  | root (listed : Bool)
  /-- After a message with this name. -/
  | list (name : List Char)
  /-- Inside a message, with its text if that has been read. -/
  | message (name : List Char) (text : Option (List Char))
  | text (name : List Char) (content : Option (List Char))
  /-- Inside an element that is passed over. -/
  | passed (stage : Stage) (back : Place)

/-- The name without the qualifier in front of a colon. -/
def localName (name : List Char) : List Char :=
  match name.dropWhile (· ≠ ':') with
  | _ :: rest => rest
  | [] => name

inductive Move where
  | go (place : Place)
  | found (text : List Char) (place : Place)
  | finish

def enter (attributes : List Char) (place : Place) : Except DumpFlaw Move :=
  if wellFormed attributes then .ok (.go place) else .error .badMarkup

/-- Goes to what is inside a tag of which the attributes are not looked at, but for the prefixes
that they bind. -/
def skim {α : Type} (attributes : List Char) (inside : α) : Except DumpFlaw α :=
  if bindingsFit attributes then .ok inside else .error .badMarkup

/-- The stage after the end of the first child, or of all of the element. -/
def Stage.behind (inChild : Bool) : Option Stage := if inChild then some (.look false) else none

/-- The stage after an item inside an element that is passed over, none after its end. -/
def Stage.next : Stage → Item → Except DumpFlaw (Option Stage)
  | _, .broken flaw => .error flaw
  | .fresh, .start _ attributes => skim attributes (some (.look true))
  | .fresh, .stop => .ok none
  | .fresh, .text none => .error .badReference
  | .fresh, .text (some _) => .ok (some (.look false))
  | .fresh, .doctype => .ok (some .fresh)
  | .look inChild, .start _ attributes => skim attributes (some (.skip inChild 1))
  | .look inChild, .stop => .ok (behind inChild)
  | .look inChild, _ => .ok (some (.skip inChild 0))
  | .skip inChild depth, .start _ _ => .ok (some (.skip inChild (depth + 1)))
  | .skip inChild 0, .stop => .ok (behind inChild)
  | .skip inChild (depth + 1), .stop => .ok (some (.skip inChild depth))
  | .skip inChild depth, _ => .ok (some (.skip inChild depth))

/-- Where the reader is at a stage, or behind the element. -/
def Place.at (back : Place) : Option Stage → Place
  | some stage => .passed stage back
  | none => back

/-- A child of the root that is no further message of the list. -/
def rootChild (listed : Bool) (name attributes : List Char) : Except DumpFlaw Move :=
  if localName name = "message".toList then
    if listed then .error .repeated else enter attributes (.message name none)
  else skim attributes (.go (.passed .fresh (.root listed)))

def blankOnly (place : Place) (content : List Char) : Except DumpFlaw Move :=
  if content.all Text.isBlank then .ok (.go place) else .error .misplaced

def move : Place → Item → Except DumpFlaw Move
  | .passed stage back, item => (stage.next item).map fun stage? => .go (back.at stage?)
  | _, .broken flaw => .error flaw
  | place, .doctype => .ok (.go place)
  | _, .text none => .error .badReference
  | .outside, .start _ attributes => enter attributes (.root false)
  | .outside, .stop => .error .mismatchedEnd
  | .outside, .text (some content) => blankOnly .outside content
  | .root listed, .start name attributes => rootChild listed name attributes
  | .root _, .stop => .ok .finish
  | .root listed, .text (some _) => .ok (.go (.root listed))
  | .list name, .start name' attributes =>
    if name' = name then enter attributes (.message name none)
    else rootChild true name' attributes
  | .list _, .stop => .ok .finish
  | .list name, .text (some content) => blankOnly (.list name) content
  | .message name text, .start name' attributes =>
    if localName name' = "text".toList then
      if text.isSome then .error .repeated else skim attributes (.go (.text name none))
    else skim attributes (.go (.passed .fresh (.message name text)))
  | .message name text, .stop => .ok (.found (text.getD []) (.list name))
  | .message name text, .text (some _) => .ok (.go (.message name text))
  | .text _ _, .start _ _ => .error .misplaced
  | .text name content, .stop => .ok (.go (.message name (some (content.getD []))))
  | .text name none, .text (some content) => .ok (.go (.text name (some content)))
  | .text _ (some _), .text (some _) => .error .misplaced

def textsFrom : Place → List Item → Except DumpFlaw (List String)
  | _, [] => .error .endOfText
  | place, item :: rest =>
    match move place item with
    | .error flaw => .error flaw
    | .ok (.go place) => textsFrom place rest
    | .ok (.found text place) => (textsFrom place rest).map (String.ofList text :: ·)
    | .ok .finish => .ok []

def read (s : String) : Except DumpFlaw (List String) := textsFrom .outside (items s.toList)

end Intake.Dump
