import Intake.Http.Client
import Intake.Script

/-!
# A server that follows a script

Each route tells which requests it is for and what they are answered. A request takes the
first route that fits, and every request is noted. After many requests the server fails,
so that no client is kept busy without end.
-/

namespace Intake.Http.Scripted

structure Route where
  /-- The path, as it is sent; none for any path. -/
  path : Option String
  /-- Names with the value that they must have, or none for names that must not be there. -/
  query : List (String × Option String)
  replies : Script Reply

structure Server where
  routes : List Route
  requests : List Request
  /-- The number of requests that can still be answered by a route. -/
  left : Nat
  up : Bool

namespace Route

def fits (r : Route) (request : Request) : Bool :=
  r.path.all (· == request.url.path) &&
    r.query.all fun (name, value) => request.url.pairs.lookup name == value

end Route

def unrouted : Reply := ⟨.notFound, some .empty⟩

def exhausted : Reply := ⟨.serverError, some .empty⟩

/-- The answer of the first route that fits, and the routes after it was given. -/
def answer (request : Request) : List Route → Reply × List Route
  | [] => (unrouted, [])
  | r :: rest =>
    if r.fits request then
      let (reply, replies) := r.replies.next
      (reply.getD unrouted, { r with replies := replies } :: rest)
    else
      let (reply, rest) := answer request rest
      (reply, r :: rest)

def network : Network Server := fun request s =>
  if !s.up then (none, s)
  else
    let s := { s with requests := request :: s.requests }
    match s.left with
    | 0 => (some exhausted, s)
    | left + 1 =>
      let (reply, routes) := answer request s.routes
      (some reply, { s with routes := routes, left := left })

end Intake.Http.Scripted
