import Intake.Element.Paragraph
import Intake.Text.Blank

/-!
# Cutting text into paragraphs

Plain text is cut at its empty lines, which may hold spaces and tabs. A single short line
that does not end like a sentence is a title, everything else is narrative text.
-/

namespace Intake.Partition

open Element Text

def lineFeeds : List Char → List Char
  | [] => []
  | '\r' :: '\n' :: rest => '\n' :: lineFeeds rest
  | c :: rest => c :: lineFeeds rest

def isLineBlank (c : Char) : Bool := c == ' ' || c == '\t'

/-- What follows an empty line, if the text after a line feed begins with one. -/
def afterEmptyLine (cs : List Char) : Option (List Char) :=
  match cs.dropWhile isLineBlank with
  | '\n' :: rest => some rest
  | _ => none

theorem length_afterEmptyLine {cs rest : List Char} (h : afterEmptyLine cs = some rest) :
    rest.length < cs.length := by
  unfold afterEmptyLine at h
  split at h
  · next r heq =>
    obtain rfl := Option.some.inj h
    have := (List.dropWhile_suffix isLineBlank (l := cs)).length_le
    rw [heq] at this
    exact Nat.lt_of_lt_of_le (by simp) this
  · exact absurd h (by simp)

/-- The pieces between empty lines; `piece` is the beginning of the first one, backwards. -/
def pieces (piece : List Char) : List Char → List (List Char)
  | [] => [piece.reverse]
  | c :: rest =>
    if c = '\n' then
      match _h : afterEmptyLine rest with
      | some rest' => piece.reverse :: pieces [] rest'
      | none => pieces (c :: piece) rest
    else pieces (c :: piece) rest
termination_by cs => cs.length
decreasing_by
  · have := length_afterEmptyLine _h
    simp
    omega
  · simp
  · simp

/-- The paragraphs of a text: its pieces without outer blanks, those that are not empty. -/
def paragraphs (text : String) : List (List Char) :=
  ((pieces [] (lineFeeds text.toList)).map trimChars).filter fun p => !p.isEmpty

def titleLimit : Nat := 80

def isSentenceEnd (c : Char) : Bool := ".!?,;:".toList.contains c

/-- A title is a single short line that does not end like a sentence. -/
def kindOf (p : List Char) : TextKind :=
  if !p.contains '\n' && p.length ≤ titleLimit && !p.getLast?.any isSentenceEnd then .title
  else .narrativeText

def unplaced (kind : TextKind) (origin : Origin) (text : String) : Paragraph :=
  ⟨kind, ⟨⟨""⟩, origin⟩, text⟩

def partition (text : String) (origin : Origin) : List Paragraph :=
  number ((paragraphs text).map fun p => unplaced (kindOf p) origin (String.ofList p))

end Intake.Partition
