import Intake.Http.Client
import Intake.Listing

/-!
# Listings that are asked for page by page

A service gives a listing as pages that name their successors, and then ends it: with the last
items, or with a failure. A pager that takes the replies for what they say gathers the items of
all pages in their order, or only the failure. It asks for the first page without a name and then
once for each page that was named; it asks for nothing else.
-/

namespace Intake.Http

variable {σ α : Type}

/-! ## Requests that are noted -/

/-- The same network, which also notes the requests that it gets, the latest one last. -/
def Network.noted (network : Network σ) : Network (σ × List Request) := fun request remote =>
  ((network request remote.1).1, (network request remote.1).2, remote.2 ++ [request])

/-- The same client in the network that notes its requests. -/
def Client.noted (c : Client σ) : Client (σ × List Request) :=
  ⟨c.baseUrl, c.token, c.network.noted, c.patience⟩

/-- What is got does not depend on the notes, and each request that can be sent is noted once. -/
theorem Client.get_noted (c : Client σ) (path : String) (query : List (String × String))
    (remote : σ) (log : List Request) :
    c.noted.get path query (remote, log) =
      ((c.get path query remote).1, (c.get path query remote).2,
        log ++ (c.request? path query).toList) := by
  have hrequest : c.noted.request? path query = c.request? path query := rfl
  unfold Client.get
  rw [hrequest]
  cases c.request? path query with
  | none => simp
  | some request =>
      have hnetwork : c.noted.network request (remote, log) =
          ((c.network request remote).1, (c.network request remote).2, log ++ [request]) := rfl
      simp only [hnetwork]
      obtain ⟨reply, remote'⟩ := c.network request remote
      cases reply <;> rfl

/-- Who gets an answer, or none from the network, had a request to send. -/
theorem Client.request_of_get {c : Client σ} {path : String} {query : List (String × String)}
    {remote remote' : σ} {r : Except Failure Reply} (hget : c.get path query remote = (r, remote'))
    (hr : r ≠ .error .badRequest) : ∃ request, c.request? path query = some request := by
  cases hrequest : c.request? path query with
  | some request => exact ⟨request, rfl⟩
  | none =>
      rw [Client.get, hrequest] at hget
      exact absurd (congrArg Prod.fst hget).symm hr

/-! ## Inquiries -/

/-- How a listing is asked for. -/
structure Inquiry where
  path : String
  /-- The parameters of each request. -/
  params : List (String × String)
  /-- The parameter that names a page. -/
  mark : String

/-- The parameters of the request for a page: the same for all pages, but for the name of the page.
The first page has no name. -/
def Inquiry.query (i : Inquiry) (name : Option String) : List (String × String) :=
  i.params ++ name.toList.map fun n => (i.mark, n)

def Inquiry.request? (i : Inquiry) (client : Client σ) (name : Option String) : Option Request :=
  client.request? i.path (i.query name)

/-- Asks for a page about what has a locator, and reads the reply. -/
def Inquiry.pager (i : Inquiry) (client : Client σ) (read : Reply → Except Outage (Page α))
    (locator : String) : Pager σ α := fun name remote =>
  match client.get i.path (i.query name) remote with
  | (.error failure, remote) => (.error (.unavailable locator (.exchange failure)), remote)
  | (.ok reply, remote) => ((read reply).mapError (Fault.unavailable locator), remote)

/-- What a reply says about a listing: these are the last items; these are items, and there is a
next page; or there is a failure. -/
inductive Turn (α : Type) where
  | last (items : List α)
  | more (items : List α) (next : String)
  | failed (outage : Outage)

/-- The page for which a turn is to be taken. -/
def Turn.page : Turn α → Except Outage (Page α)
  | .last items => .ok ⟨items, none⟩
  | .more items next => .ok ⟨items, some next⟩
  | .failed outage => .error outage

/-- Pages that a service gives one after the other, from the page with a name on, each with the
name of the next page, and how the listing ends after them: with the last items, with the failure
that a reply tells, or without a reply. `Means` tells what replies say. -/
inductive Serves (client : Client σ) (i : Inquiry) (Means : Reply → Turn α → Prop) :
    Option String → σ → List (List α × String) → Except Outage (List α) → σ → Prop where
  | last {name : Option String} {remote remote' : σ} {reply : Reply} {items : List α} :
      client.get i.path (i.query name) remote = (.ok reply, remote') → Means reply (.last items) →
        Serves client i Means name remote [] (.ok items) remote'
  | failed {name : Option String} {remote remote' : σ} {reply : Reply} {outage : Outage} :
      client.get i.path (i.query name) remote = (.ok reply, remote') →
        Means reply (.failed outage) → Serves client i Means name remote [] (.error outage) remote'
  | silent {name : Option String} {remote remote' : σ} {url : String} :
      client.get i.path (i.query name) remote = (.error (.unreachable url), remote') →
        Serves client i Means name remote [] (.error (.exchange (.unreachable url))) remote'
  | more {name : Option String} {remote middle remote' : σ} {reply : Reply} {items : List α}
      {next : String} {pages : List (List α × String)} {ending : Except Outage (List α)} :
      client.get i.path (i.query name) remote = (.ok reply, middle) →
        Means reply (.more items next) →
        Serves client i Means (some next) middle pages ending remote' →
          Serves client i Means name remote ((items, next) :: pages) ending remote'

/-- What is to be gathered from pages before an ending: all items in their order, or only the
failure. -/
def gathered (locator : String) (pages : List (List α × String))
    (ending : Except Outage (List α)) : Except Fault (List α) :=
  match ending with
  | .ok items => .ok (pages.flatMap Prod.fst ++ items)
  | .error outage => .error (.unavailable locator outage)

/-- The requests for the page with a name and for those that pages name, in their order. -/
def Inquiry.requests (i : Inquiry) (client : Client σ) (name : Option String)
    (pages : List (List α × String)) : List (Option Request) :=
  (name :: pages.map fun page => some page.2).map (i.request? client)

theorem Inquiry.requests_nil (i : Inquiry) (client : Client σ) (name : Option String) :
    i.requests client name ([] : List (List α × String)) = [i.request? client name] := rfl

theorem Inquiry.requests_cons (i : Inquiry) (client : Client σ) (name : Option String)
    (items : List α) (next : String) (pages : List (List α × String)) :
    i.requests client name ((items, next) :: pages) =
      i.request? client name :: i.requests client (some next) pages := rfl

/-! ## Gathering -/

section

variable {client : Client σ} {i : Inquiry} {read : Reply → Except Outage (Page α)}
  {Means : Reply → Turn α → Prop} {locator : String} {name : Option String} {remote remote' : σ}
  {pages : List (List α × String)} {ending : Except Outage (List α)}

theorem gathered_cons (items : List α) (next : String) (pages : List (List α × String))
    (ending : Except Outage (List α)) :
    gathered locator ((items, next) :: pages) ending =
      (gathered locator pages ending).map (items ++ ·) := by
  cases ending with
  | ok last =>
      show Except.ok _ = Except.ok _
      rw [List.flatMap_cons, List.append_assoc]
  | error outage => rfl

/-- The pager takes a reply for what it says. -/
theorem Inquiry.pager_of_reply (hread : ∀ reply turn, Means reply turn → read reply = turn.page)
    {reply : Reply} {turn : Turn α}
    (hget : client.get i.path (i.query name) remote = (.ok reply, remote'))
    (hmeans : Means reply turn) :
    i.pager client read locator name remote =
      (turn.page.mapError (Fault.unavailable locator), remote') := by
  unfold Inquiry.pager
  rw [hget]
  simp only [hread reply turn hmeans]

/-- All pages are gathered up to the ending, by whoever has the patience for them. -/
theorem Serves.gather (hread : ∀ reply turn, Means reply turn → read reply = turn.page)
    (h : Serves client i Means name remote pages ending remote') {patience : Nat}
    (hpages : pages.length < patience) :
    (i.pager client read locator).gather patience name remote =
      (gathered locator pages ending, remote') := by
  induction h generalizing patience with
  | last hget hmeans =>
      obtain ⟨patience, rfl⟩ := Nat.exists_eq_add_of_lt hpages
      rw [Pager.gather, Inquiry.pager_of_reply hread hget hmeans]
      rfl
  | failed hget hmeans =>
      obtain ⟨patience, rfl⟩ := Nat.exists_eq_add_of_lt hpages
      rw [Pager.gather, Inquiry.pager_of_reply hread hget hmeans]
      rfl
  | silent hget =>
      obtain ⟨patience, rfl⟩ := Nat.exists_eq_add_of_lt hpages
      rw [Pager.gather, Inquiry.pager, hget]
      rfl
  | @more name remote middle remote' reply items next pages ending hget hmeans _ ih =>
      obtain ⟨patience, rfl⟩ := Nat.exists_eq_add_of_lt hpages
      rw [Pager.gather, Inquiry.pager_of_reply hread hget hmeans]
      have hrest := @ih (pages.length + 1 + patience) (by omega)
      have hlength : ((items, next) :: pages).length = pages.length + 1 := rfl
      rw [hlength, gathered_cons]
      have hpage : (Turn.page (.more items next)).mapError (Fault.unavailable locator) =
          .ok ⟨items, some next⟩ := rfl
      rw [hpage]
      simp only [hrest]
      cases gathered locator pages ending <;> rfl

/-- One request more is noted with each answer. -/
theorem Inquiry.get_noted {r : Except Failure Reply}
    (hget : client.get i.path (i.query name) remote = (r, remote')) (hr : r ≠ .error .badRequest)
    (log : List Request) : ∃ request, i.request? client name = some request ∧
      client.noted.get i.path (i.query name) (remote, log) = (r, remote', log ++ [request]) := by
  obtain ⟨request, hrequest⟩ := Client.request_of_get hget hr
  refine ⟨request, hrequest, ?_⟩
  rw [Client.get_noted, hget, hrequest]
  rfl

/-- The pages are the same where the requests are noted, and the notes are those for these pages. -/
theorem Serves.noted (h : Serves client i Means name remote pages ending remote')
    (log : List Request) : ∃ asked, asked.map some = i.requests client name pages ∧
      Serves client.noted i Means name (remote, log) pages ending (remote', log ++ asked) := by
  induction h generalizing log with
  | last hget hmeans =>
      obtain ⟨request, hrequest, hnoted⟩ := Inquiry.get_noted hget (by simp) log
      exact ⟨[request], by simp [Inquiry.requests_nil, hrequest], .last hnoted hmeans⟩
  | failed hget hmeans =>
      obtain ⟨request, hrequest, hnoted⟩ := Inquiry.get_noted hget (by simp) log
      exact ⟨[request], by simp [Inquiry.requests_nil, hrequest], .failed hnoted hmeans⟩
  | silent hget =>
      obtain ⟨request, hrequest, hnoted⟩ := Inquiry.get_noted hget (by simp) log
      exact ⟨[request], by simp [Inquiry.requests_nil, hrequest], .silent hnoted⟩
  | more hget hmeans _ ih =>
      obtain ⟨request, hrequest, hnoted⟩ := Inquiry.get_noted hget (by simp) log
      obtain ⟨asked, hasked, hrest⟩ := ih (log ++ [request])
      rw [List.append_assoc] at hrest
      refine ⟨request :: asked, ?_, .more hnoted hmeans hrest⟩
      rw [List.map_cons, hasked, Inquiry.requests_cons, hrequest]

end

end Intake.Http
