import Intake.Text.Blank

/-!
# Assignments

A line `NAME=value`, with `export` before it or not. A value may be quoted. Between single
quotes every character stands for itself; elsewhere a backslash makes the next character
plain, and a dollar sign with a name stands for the value of that variable. After an
unquoted blank only a comment may follow.
-/

namespace Intake.Environment

/-! ## Values -/

/-- How the next character of a value is read. -/
inductive Mode where
  | plain
  | weak
  | strong
  /-- After a backslash; the mode goes on as it was. -/
  | escape (quoted : Bool)
  | name (quoted : Bool) (sofar : List Char)
  | braced (quoted : Bool) (sofar : List Char)
  /-- After a blank that ends the value. -/
  | ended
  | comment
  deriving DecidableEq, Repr

/-- Plain text, within double quotes or not. -/
def Mode.text (quoted : Bool) : Mode := if quoted then .weak else .plain

def unescape (c : Char) : Option Char :=
  if c = 'n' then some '\n' else if "\\'\"$ ".toList.contains c then some c else none

/-- Whether a name goes on with this character. Letters beyond the basic ones count. -/
def continuesName (c : Char) : Bool := c.isAlphanum || 0x80 ≤ c.toNat

def plainStep (quoted : Bool) (c : Char) : List Char × Mode :=
  if c = '$' then ([], .name quoted [])
  else if c = '\\' then ([], .escape quoted)
  else if c = '"' then ([], .text !quoted)
  else if quoted then ([c], .weak)
  else if c = '\'' then ([], .strong)
  else if c = ' ' ∨ c = '\t' then ([], .ended)
  else ([c], .plain)

/-- A character after a name: a dollar sign begins the next one, any other character is taken as
it is, even a quotation mark. -/
def nameStep (lookup : List Char → List Char) (quoted : Bool) (sofar : List Char) (c : Char) :
    List Char × Mode :=
  if continuesName c then ([], .name quoted (sofar ++ [c]))
  else if c = '\x7b' ∧ sofar = [] then ([], .braced quoted [])
  else if c = '$' then (lookup sofar, .name quoted [])
  else (lookup sofar ++ [c], .text quoted)

/-- One character: what it adds to the value, and the mode after it. -/
def Mode.step (lookup : List Char → List Char) (c : Char) : Mode → Option (List Char × Mode)
  | .plain => some (plainStep false c)
  | .weak => some (plainStep true c)
  | .strong => some (if c = '\'' then ([], .plain) else ([c], .strong))
  | .escape quoted => (unescape c).map fun d => ([d], .text quoted)
  | .name quoted sofar => some (nameStep lookup quoted sofar c)
  | .braced quoted sofar =>
    some (if c = '\x7d' then (lookup sofar, .text quoted)
      else ([], .braced quoted (sofar ++ [c])))
  | .ended =>
    if c = ' ' ∨ c = '\t' then some ([], .ended)
    else if c = '#' then some ([], .comment)
    else none
  | .comment => some ([], .comment)

/-- What is added at the end of a value; quotes and braces have to be closed. -/
def Mode.finish (lookup : List Char → List Char) : Mode → Option (List Char)
  | .plain | .ended | .comment | .escape false => some []
  | .name false sofar => some (lookup sofar)
  | _ => none

def readValue (lookup : List Char → List Char) : Mode → List Char → Option (List Char)
  | mode, [] => mode.finish lookup
  | mode, c :: rest => do
    let (added, mode) ← mode.step lookup c
    let value ← readValue lookup mode rest
    some (added ++ value)

/-! ## Lines -/

def beginsKey (c : Char) : Bool := c.isAlpha || c == '_'

def continuesKey (c : Char) : Bool := c.isAlphanum || c == '_' || c == '.'

def readKey (cs : List Char) : Option (List Char × List Char) :=
  if (cs.head?).any beginsKey then
    some (cs.takeWhile continuesKey, (cs.dropWhile continuesKey).dropWhile Text.isBlank)
  else none

def afterEquals : List Char → Option (List Char)
  | '=' :: rest => some rest
  | _ => none

def readTarget (cs : List Char) : Option (List Char × List Char) := do
  let (key, rest) ← readKey cs
  match afterEquals rest with
  | some value => some (key, value)
  | none =>
    if key = "export".toList then
      let (key, rest) ← readKey rest
      let value ← afterEquals rest
      some (key, value)
    else none

inductive Line where
  | empty
  | assign (name value : String)
  | broken
  deriving DecidableEq, Repr

def isComment (cs : List Char) : Bool := cs.isEmpty || cs.head? == some '#'

def Line.read (lookup : List Char → List Char) (cs : List Char) : Line :=
  let cs := Text.trimChars cs
  if isComment cs then .empty
  else
    match readTarget cs with
    | none => .broken
    | some (key, rest) =>
      let rest := rest.dropWhile Text.isBlank
      if isComment rest then .assign (String.ofList key) ""
      else
        match readValue lookup .plain rest with
        | some value => .assign (String.ofList key) (String.ofList value)
        | none => .broken

end Intake.Environment
