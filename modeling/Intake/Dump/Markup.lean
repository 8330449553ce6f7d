import Intake.Fault
import Intake.Text.Hex

/-!
# Markup

A document as a sequence of marks: start tags, end tags, text between them, verbatim
sections and the document type. Comments and processing instructions leave no mark. An
empty element is a start tag followed by its end. A fault of the markup is the last mark.

Between `<` and `>` each kind of markup has its own rule for which `>` ends it.
-/

namespace Intake.Dump

inductive Mark where
  | start (name attributes : List Char)
  | stop
  | text (raw : List Char)
  | verbatim (content : List Char)
  | doctype
  | broken (flaw : DumpFlaw)
  deriving Repr

/-- The blanks of markup. -/
def isBlank (c : Char) : Bool := c == ' ' || c == '\t' || c == '\r' || c == '\n'

/-! ## One piece of markup

A piece is what stands between `<` and the `>` that ends it. -/

/-- The quotation mark that is open after some characters. -/
def openQuote (cs : List Char) : Option Char :=
  cs.foldl (fun quote c =>
    match quote with
    | some q => if c = q then none else some q
    | none => if c = '"' ∨ c = '\x27' then some c else none) none

/-- The number of `<` less the number of `>`, never below zero. -/
def depth (cs : List Char) : Nat :=
  cs.foldl (fun n c => if c = '<' then n + 1 else if c = '>' then n - 1 else n) 0

/-- Whether a `>` after these characters ends the piece. -/
def isComplete (cs : List Char) : Bool :=
  match cs with
  | '!' :: '-' :: _ => 5 ≤ cs.length && ['-', '-'].isSuffixOf cs
  | '!' :: '[' :: _ => [']', ']'].isSuffixOf cs
  | '!' :: c :: _ => if c = 'D' ∨ c = 'd' then depth cs == 0 else true
  | '?' :: _ => ['?'].isSuffixOf cs
  | _ => (openQuote cs).isNone

def splitName (cs : List Char) : List Char × List Char :=
  (cs.takeWhile fun c => !isBlank c, cs.dropWhile fun c => !isBlank c)

def endName (cs : List Char) : List Char :=
  let name := (cs.reverse.dropWhile isBlank).reverse
  if name.isEmpty then cs else name

/-- The marks of a piece, and the names of the elements that are open after it. -/
def pieceMarks (opened : List (List Char)) (cs : List Char) :
    Except DumpFlaw (List Mark × List (List Char)) :=
  match cs with
  | '!' :: '-' :: rest =>
    if ['-'].isPrefixOf rest then .ok ([], opened) else .error .badMarkup
  | '!' :: '[' :: rest =>
    if "CDATA[".toList.isPrefixOf rest then
      .ok ([.verbatim ((rest.drop 6).take (rest.length - 8))], opened)
    else .error .badMarkup
  | '!' :: rest =>
    if (rest.take 7).map Char.toUpper = "DOCTYPE".toList ∧ (rest.drop 7).any (!isBlank ·) then
      .ok ([.doctype], opened)
    else .error .badMarkup
  | '?' :: rest => if rest.isEmpty then .error .badMarkup else .ok ([], opened)
  | '/' :: rest =>
    match opened with
    | [] => .error .mismatchedEnd
    | name :: opened => if endName rest = name then .ok ([.stop], opened) else .error .mismatchedEnd
  | _ =>
    if ['/'].isSuffixOf cs then
      let (name, attributes) := splitName cs.dropLast
      .ok ([.start name attributes, .stop], opened)
    else
      let (name, attributes) := splitName cs
      .ok ([.start name attributes], name :: opened)

/-! ## Documents -/

/-- Where a scan stands: in text or in a piece, with the characters so far, backwards. -/
inductive Scan where
  | text (before : List Char)
  | piece (before : List Char)

def textMark (before : List Char) : List Mark :=
  if before.isEmpty then [] else [.text before.reverse]

/-- The marks of what is left of a document. -/
def marksFrom (opened : List (List Char)) : Scan → List Char → List Mark
  | .text before, [] => textMark before
  | .text before, c :: rest =>
    if c = '<' then textMark before ++ marksFrom opened (.piece []) rest
    else marksFrom opened (.text (c :: before)) rest
  | .piece _, [] => [.broken .endOfText]
  | .piece before, c :: rest =>
    if c = '>' && isComplete before.reverse then
      match pieceMarks opened before.reverse with
      | .ok (marks, opened) => marks ++ marksFrom opened (.text []) rest
      | .error flaw => [.broken flaw]
    else marksFrom opened (.piece (c :: before)) rest

/-- The marks of a document; a byte order mark in front is dropped. -/
def marks : List Char → List Mark
  | '\uFEFF' :: rest => marksFrom [] (.text []) rest
  | cs => marksFrom [] (.text []) cs

/-! ## Attributes -/

/-- The names and values of the attributes of a tag, up to the first one that is malformed, and
whether there is none that is. The first argument bounds their number. -/
def attributesFrom : Nat → List Char → List (List Char × List Char) × Bool
  | 0, cs => ([], (cs.dropWhile isBlank).isEmpty)
  | count + 1, cs =>
    match cs.dropWhile isBlank with
    | [] => ([], true)
    | c :: rest =>
      let isInner (c : Char) : Bool := c != '=' && !isBlank c
      let name := c :: rest.takeWhile isInner
      match (rest.dropWhile isInner).dropWhile isBlank with
      | '=' :: rest =>
        match rest.dropWhile isBlank with
        | q :: rest =>
          if q = '"' ∨ q = '\x27' then
            match rest.dropWhile (· != q) with
            | _ :: more =>
              let (others, whole) := attributesFrom count more
              ((name, rest.takeWhile (· != q)) :: others, whole)
            | [] => ([], false)
          else ([], false)
        | [] => ([], false)
      | _ => ([], false)

def attributesOf (attributes : List Char) : List (List Char × List Char) × Bool :=
  attributesFrom attributes.length attributes

/-- An address that stands for the names of one of the prefixes `xml` and `xmlns`. -/
def reservedAddress (path : String) : List Char := ("http://" ++ "www.w3.org/" ++ path).toList

/-- Whether an attribute may have a value, if it binds a prefix: `xml` may be bound to its own
address only, `xmlns` not at all, and no other prefix to the address of one of these two. -/
def bindingFits (name value : List Char) : Bool :=
  if "xmlns:".toList.isPrefixOf name then
    let own := value = reservedAddress "XML/1998/namespace"
    let bound := name.drop 6
    if bound = "xml".toList then own
    else bound ≠ "xmlns".toList ∧ ¬own ∧ value ≠ reservedAddress "2000/xmlns/"
  else true

def bindingsFit (attributes : List Char) : Bool :=
  (attributesOf attributes).1.all fun (name, value) => bindingFits name value

/-- Whether the attributes of a tag are well formed, have different names and bind prefixes as they
may. -/
def wellFormed (attributes : List Char) : Bool :=
  let (given, whole) := attributesOf attributes
  bindingsFit attributes && whole && decide (given.map Prod.fst).Nodup

/-! ## References -/

def readDigits (base : Nat) (cs : List Char) : Option Nat :=
  if cs.isEmpty then none
  else cs.foldl (fun n? c => do
    let n ← n?
    let d ← Text.hexValue c
    if d < base then some (n * base + d) else none) (some 0)

/-- The character with a number, zero and surrogates excepted. -/
def charOf (n : Nat) : Option Char :=
  if n ≠ 0 ∧ n.isValidChar then some (Char.ofNat n) else none

def resolve (name : List Char) : Option Char :=
  match name with
  | '#' :: 'x' :: digits => (readDigits 16 digits).bind charOf
  | '#' :: digits => (readDigits 10 digits).bind charOf
  | _ =>
    [("lt".toList, '<'), ("gt".toList, '>'), ("amp".toList, '&'), ("apos".toList, '\x27'),
      ("quot".toList, '"')].lookup name

/-- Replaces references by what they stand for. The first argument is the reference that is being
read, backwards; it must end in a semicolon. -/
def unescapeFrom : Option (List Char) → List Char → Option (List Char)
  | none, [] => some []
  | some _, [] => none
  | none, c :: rest =>
    if c = '&' then unescapeFrom (some []) rest else (unescapeFrom none rest).map (c :: ·)
  | some name, c :: rest =>
    if c = ';' then
      match resolve name.reverse with
      | some d => (unescapeFrom none rest).map (d :: ·)
      | none => none
    else if c = '&' then none
    else unescapeFrom (some (c :: name)) rest

def unescape (cs : List Char) : Option (List Char) := unescapeFrom none cs

end Intake.Dump
