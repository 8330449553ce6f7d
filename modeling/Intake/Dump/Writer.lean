/-!
# Writing message dumps

A dump is an XML document whose root holds one element for each message, which in turn
holds the text of the message. Only the characters that would be taken for markup are
escaped.
-/

namespace Intake.Dump

def declaration : String := "<?xml version=\"1.0\" encoding=\"utf-8\"?>"

def escapeChar (c : Char) : List Char :=
  if c = '<' then "&lt;".toList
  else if c = '>' then "&gt;".toList
  else if c = '&' then "&amp;".toList
  else [c]

def escape (cs : List Char) : List Char := cs.flatMap escapeChar

/-- An element with this content, without end tag if there is none. -/
def element (name content : List Char) : List Char :=
  if content.isEmpty then '<' :: (name ++ ['/', '>'])
  else '<' :: (name ++ '>' :: (content ++ '<' :: '/' :: (name ++ ['>'])))

def messageElement (text : String) : List Char :=
  element "message".toList (element "text".toList (escape text.toList))

def write (texts : List String) : String :=
  declaration ++ "\n" ++ String.ofList (element "messages".toList (texts.flatMap messageElement))

end Intake.Dump
