import Intake.Dump.Markup

/-!
# The content of a document

Marks with their texts made up for reading. Blanks at the outer ends of a text are
dropped, where the ends are those of a run of texts and verbatim sections; references are
replaced after that, so that a blank given by a reference stays. Every run becomes one
text.
-/

namespace Intake.Dump

inductive Item where
  | start (name attributes : List Char)
  | stop
  /-- A text, none if it has a bad reference. -/
  | text (content : Option (List Char))
  | doctype
  | broken (flaw : DumpFlaw)
  deriving Repr

/-- Drops the blanks where a run of texts begins, and the text if nothing else is in it. -/
def trimStarts (atStart : Bool) : List Mark → List Mark
  | [] => []
  | .text raw :: rest =>
    if atStart then
      let raw := raw.dropWhile isBlank
      if raw.isEmpty then trimStarts true rest else .text raw :: trimStarts false rest
    else .text raw :: trimStarts false rest
  | .verbatim content :: rest => .verbatim content :: trimStarts false rest
  | m :: rest => m :: trimStarts true rest

def goesOn : List Mark → Bool
  | .text _ :: _ | .verbatim _ :: _ => true
  | _ => false

/-- Puts a text in front of the items; one run becomes one text. -/
def addText (content : Option (List Char)) : List Item → List Item
  | .text more :: rest => .text (do some ((← content) ++ (← more))) :: rest
  | rest => .text content :: rest

/-- The items of marks whose texts have no blanks in front. -/
def gather : List Mark → List Item
  | [] => []
  | .start name attributes :: rest => .start name attributes :: gather rest
  | .stop :: rest => .stop :: gather rest
  | .doctype :: rest => .doctype :: gather rest
  | .broken flaw :: rest => .broken flaw :: gather rest
  | .verbatim content :: rest =>
    if goesOn rest then addText (some content) (gather rest)
    else .text (some content) :: gather rest
  | .text raw :: rest =>
    if goesOn rest then addText (unescape raw) (gather rest)
    else .text (unescape (raw.reverse.dropWhile isBlank).reverse) :: gather rest

def items (cs : List Char) : List Item := gather (trimStarts true (marks cs))

end Intake.Dump
