import Intake.Http.Form
import Intake.Text.Decimal

/-!
# URLs

Addresses of the schemes `http` and `https`. The path is kept as its segments and is free
of `.` and `..`: these are resolved when a URL is read, and they cannot lead above the
root. Path, query and fragment are kept percent-encoded, as they are sent.
-/

namespace Intake.Http

structure Url where
  origin : String
  segments : List String
  query : Option String
  fragment : Option String
  deriving DecidableEq, Repr

namespace Url

/-! ## Reading -/

def isOuter (c : Char) : Bool := c.toNat ≤ 0x20

/-- The text without outer blanks and without line breaks and tabs. -/
def clean (cs : List Char) : List Char :=
  let inner := ((cs.dropWhile isOuter).reverse.dropWhile isOuter).reverse
  inner.filter fun c => c ≠ '\t' ∧ c ≠ '\n' ∧ c ≠ '\r'

def cut (p : Char → Bool) (cs : List Char) : List Char × List Char := cs.span (!p ·)

def isSlash (c : Char) : Bool := c == '/' || c == '\\'

/-- A segment in which encoded dots are written as dots. -/
def plainDots : List Char → List Char
  | '%' :: '2' :: 'e' :: rest => '.' :: plainDots rest
  | '%' :: '2' :: 'E' :: rest => '.' :: plainDots rest
  | c :: rest => c :: plainDots rest
  | [] => []

/-- Goes from a path to the place that a segment names. At the end of a path, dots lead to
a directory, whose last segment is empty. -/
def descend (path : List String) (segment : List Char) (last : Bool) : List String :=
  let dots := plainDots segment
  if dots = ['.', '.'] then (if last then path.dropLast ++ [""] else path.dropLast)
  else if dots = ['.'] then (if last then path ++ [""] else path)
  else path ++ [String.ofList (Percent.encode Percent.inPath segment)]

def resolve (path : List String) : List (List Char) → List String
  | [] => path
  | [segment] => descend path segment true
  | segment :: rest => resolve (descend path segment false) rest

def readPath (cs : List Char) : List String :=
  resolve [] (Text.splitAt '/' ((cs.drop 1).map fun c => if isSlash c then '/' else c))

def isForbiddenInHost (c : Char) : Bool :=
  c.toNat ≤ 0x20 || c.toNat == 0x7F || "#%/:<>?@[\\]^`|\x7b\x7d".toList.contains c

/-- The port in an address, if it is not the usual one. -/
def readPort (usual : Nat) (cs : List Char) : Option (Option Nat) :=
  if cs.isEmpty then some none
  else ((Text.Decimal.read cs).filter (· < 65536)).map fun port =>
    if port = usual then none else some port

def readAuthority (usual : Nat) (cs : List Char) : Option (List Char) := do
  let (host, rest) := cut (· = ':') cs
  let port ← readPort usual (rest.drop 1)
  if host.isEmpty || host.any isForbiddenInHost then none
  let host := host.map Char.toLower
  match port with
  | none => some host
  | some n => some (host ++ ':' :: Text.Decimal.digits n)

def readRest (scheme : String) (usual : Nat) (cs : List Char) : Option Url := do
  let (authority, rest) := cut (fun c => isSlash c || c = '?' || c = '#') (cs.dropWhile isSlash)
  let authority ← readAuthority usual authority
  let (path, rest) := cut (fun c => c = '?' || c = '#') rest
  let (query, fragment) := cut (· = '#') rest
  let encoded (inPart : Char → Bool) : List Char → Option String
    | [] => none
    | _ :: text => some (String.ofList (Percent.encode inPart text))
  some ⟨scheme ++ "://" ++ String.ofList authority, readPath path,
    encoded Percent.inQuery query, encoded Percent.inFragment fragment⟩

def ofText? (s : String) : Option Url :=
  let (scheme, rest) := cut (· = ':') (clean s.toList)
  match String.ofList (scheme.map Char.toLower) with
  | "http" => readRest "http" 80 (rest.drop 1)
  | "https" => readRest "https" 443 (rest.drop 1)
  | _ => none

/-! ## Queries -/

/-- Adds names with values at the end of the query. A query without content is dropped. -/
def withQuery (u : Url) (pairs : List (String × String)) : Url :=
  let old := (u.query.getD "").toList
  let new := Form.write pairs
  let query := if old.isEmpty then new else if new.isEmpty then old else old ++ '&' :: new
  { u with query := if query.isEmpty then none else some (String.ofList query) }

def pairs (u : Url) : List (String × String) := Form.read (u.query.getD "").toList

/-! ## Writing -/

def path (u : Url) : String := "/" ++ "/".intercalate u.segments

def text (u : Url) : String :=
  let query := match u.query with
    | some q => "?" ++ q
    | none => ""
  let fragment := match u.fragment with
    | some f => "#" ++ f
    | none => ""
  u.origin ++ u.path ++ query ++ fragment

end Url

end Intake.Http
