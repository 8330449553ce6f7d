import Intake.Http.Status
import Intake.Http.Url

/-!
# Clients

A client asks one service for data. It puts its token into each request and knows the
address of the service. How a request is answered is up to the network, which is a
function on the states of all that is remote.
-/

namespace Intake.Http

structure Request where
  url : Url
  authorization : String
  deriving DecidableEq, Repr

/-- An answer. There is no body if the transfer broke off. -/
structure Reply where
  status : Status
  body : Option ByteArray

/-- How requests are answered, if at all. -/
abbrev Network (σ : Type) := Request → σ → Option Reply × σ

def Network.dead {σ : Type} : Network σ := fun _ s => (none, s)

structure Client (σ : Type) where
  baseUrl : String
  token : String
  network : Network σ
  /-- The greatest number of pages that are asked for to make up one listing. -/
  patience : Nat

namespace Client

variable {σ : Type}

def trimSlashes (s : String) : String :=
  String.ofList (s.toList.reverse.dropWhile (· = '/')).reverse

def ofUrl (network : Network σ) (patience : Nat) (url token : String) : Client σ :=
  ⟨trimSlashes url, token, network, patience⟩

def fitsHeader (s : String) : Bool :=
  s.toUTF8.toList.all fun b => b = 9 || (32 ≤ b && b ≠ 127)

def authorization (c : Client σ) : String := "Bearer " ++ c.token

def request? (c : Client σ) (path : String) (query : List (String × String)) : Option Request :=
  if fitsHeader c.authorization then
    (Url.ofText? (c.baseUrl ++ path)).map fun url => ⟨url.withQuery query, c.authorization⟩
  else none

def get (c : Client σ) (path : String) (query : List (String × String)) (remote : σ) :
    Except Failure Reply × σ :=
  match c.request? path query with
  | none => (.error .badRequest, remote)
  | some request =>
    match c.network request remote with
    | (some reply, remote) => (.ok reply, remote)
    | (none, remote) => (.error (.unreachable request.url.text), remote)

end Client

end Intake.Http
