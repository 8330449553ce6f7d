import Intake.Cleaning.Pipeline
import Intake.Text.Blank
import Intake.Text.Case

/-!
# Cleaners

The transformations of text that pipelines are made of.
-/

namespace Intake.Cleaning

open Text

def isFolded (c : Char) : Bool :=
  c == ' ' || c == '\t' || c == '\n' || c == '\r' || c == '\u00A0'

def foldBlanks : List Char → List Char
  | [] => []
  | [c] => if isFolded c then [' '] else [c]
  | c :: d :: rest =>
    if isFolded c then
      if isFolded d then foldBlanks (d :: rest) else ' ' :: foldBlanks (d :: rest)
    else c :: foldBlanks (d :: rest)

/-- Folds runs of blanks and drops the blanks at both ends. -/
def extraWhitespace (s : String) : String :=
  String.ofList (trimChars (foldBlanks s.toList))

def isBullet (c : Char) : Bool :=
  "•·▪‣◦●⁃*-".toList.contains c

/-- Drops a bullet with the blanks around it; at least one has to follow. -/
def bullets (s : String) : String :=
  match s.toList.dropWhile isBlank with
  | b :: c :: rest =>
    if isBullet b && isBlank c then String.ofList (rest.dropWhile isBlank) else s
  | _ => s

def dashes (s : String) : String :=
  String.ofList (trimChars (s.toList.map fun c => if c == '-' || c == '–' then ' ' else c))

def isEndMark (c : Char) : Bool := c == '.' || c == ',' || c == ';' || c == ':'

/-- Drops the blanks at both ends, then the marks at the end. -/
def trailingPunctuation (s : String) : String :=
  String.ofList (dropEndWhile isEndMark (trimChars s.toList))

def straightQuote (c : Char) : Char :=
  if c == '“' || c == '”' then '"'
  else if c == '‘' || c == '’' then '\x27'
  else c

def unicodeQuotes (s : String) : String := String.ofList (s.toList.map straightQuote)

def cleaners : List (String × (String → String)) := [
  ("clean_extra_whitespace", extraWhitespace),
  ("clean_bullets", bullets),
  ("clean_dashes", dashes),
  ("clean_trailing_punctuation", trailingPunctuation),
  ("replace_unicode_quotes", unicodeQuotes),
  ("trim", trim),
  ("to_lowercase", lower)]

end Intake.Cleaning
