import Intake.Http.Scripted
import Intake.Proofs.Http.Addresses
import Intake.Proofs.Http.Paging
import Intake.Proofs.Run.Twins

/-!
# Services that do not look at tokens

A service is blind to two authorizations if it gives the same answers under both of them, whatever
it is asked for, one request after the other. Two clients that differ in the token alone get the
same from a blind service, and the requests that they send differ in the authorization alone.
-/

namespace Intake.Http

variable {σ : Type}

/-! ## Networks -/

/-- The answers to requests for some addresses, one after the other, with one authorization. -/
def Network.answers (network : Network σ) (authorization : String) :
    σ → List Url → List (Option Reply)
  | _, [] => []
  | s, url :: urls =>
    let (reply, s) := network ⟨url, authorization⟩ s
    reply :: network.answers authorization s urls

/-- Whatever is asked for under `a` in the state `s` is answered as if it was asked for under `b` in
the state `t`. -/
def Network.Alike (network : Network σ) (a b : String) (s t : σ) : Prop :=
  ∀ urls, network.answers a s urls = network.answers b t urls

/-- Whether the answers are the same under two authorizations from a state on. -/
def Network.Blind (network : Network σ) (a b : String) (s : σ) : Prop := network.Alike a b s s

/-- One request gets the same answer, and the later ones will. -/
theorem Network.Alike.step {network : Network σ} {a b : String} {s t : σ}
    (h : network.Alike a b s t) (url : Url) :
    InStep Eq (network.Alike a b) (network ⟨url, a⟩ s) (network ⟨url, b⟩ t) :=
  ⟨(List.cons.inj (h [url])).1, fun urls => (List.cons.inj (h (url :: urls))).2⟩

/-- Two states answer alike if one answer from related states is the same and leads to related
states. -/
theorem Network.alike_of_step {network : Network σ} {a b : String} {R : σ → σ → Prop}
    (hstep : ∀ url {s t}, R s t → InStep Eq R (network ⟨url, a⟩ s) (network ⟨url, b⟩ t)) {s t : σ}
    (h : R s t) : network.Alike a b s t := by
  intro urls
  induction urls generalizing s t with
  | nil => rfl
  | cons url rest ih =>
      obtain ⟨reply, s', t', hs, ht, h'⟩ := (hstep url h).same
      rw [answers, answers, hs, ht]
      exact congrArg (reply :: ·) (ih h')

/-- The same request under another authorization. -/
def Request.under (r : Request) (authorization : String) : Request :=
  { r with authorization := authorization }

/-- A network that notes its requests answers alike in two states. The requests that are noted in
the second one are those of the first one under the other authorization. -/
def Network.Heard (network : Network σ) (a b : String) (x y : σ × List Request) : Prop :=
  network.Alike a b x.1 y.1 ∧ y.2 = x.2.map (·.under b)

theorem Network.Heard.step {network : Network σ} {a b : String} {x y : σ × List Request}
    (h : network.Heard a b x y) (url : Url) :
    InStep Eq (network.Heard a b) (network.noted ⟨url, a⟩ x) (network.noted ⟨url, b⟩ y) := by
  obtain ⟨hsame, halike⟩ := h.1.step url
  refine ⟨hsame, halike, ?_⟩
  show y.2 ++ [Request.mk url b] = (x.2 ++ [Request.mk url a]).map (·.under b)
  rw [List.map_append, h.2]
  rfl

/-! ### Servers that follow a script -/

namespace Scripted

/-- The same server but for the requests that are noted in it. -/
structure Server.Akin (s t : Server) : Prop where
  routes : s.routes = t.routes
  left : s.left = t.left
  up : s.up = t.up

/-- Routes are told apart by what is asked for alone. -/
theorem answer_under (url : Url) (a b : String) (routes : List Route) :
    answer ⟨url, a⟩ routes = answer ⟨url, b⟩ routes := by
  induction routes with
  | nil => rfl
  | cons r rest ih =>
      rw [answer, answer, ih]
      rfl

/-- A script is followed under any authorization. -/
theorem blind_network (a b : String) (s : Server) : network.Blind a b s := by
  refine Network.alike_of_step (R := Server.Akin) ?_ ⟨rfl, rfl, rfl⟩
  intro url s t h
  unfold network
  rw [h.up, h.routes, h.left]
  cases t.up with
  | false => exact ⟨rfl, h⟩
  | true =>
      simp only [Bool.not_true, Bool.false_eq_true, if_false]
      cases t.left with
      | zero => exact ⟨rfl, rfl, rfl, rfl⟩
      | succ left =>
          rw [answer_under url a b]
          exact ⟨rfl, rfl, rfl, rfl⟩

end Scripted

/-! ## Clients -/

/-- The word before a token has nothing in it that a header may not have. -/
theorem Client.fitsHeader_bearer (token : String) :
    fitsHeader ("Bearer " ++ token) = fitsHeader token := by
  have hbearer : fitsHeader "Bearer " = true := by
    rw [fitsHeader_eq]
    decide
  rw [fitsHeader_eq] at hbearer
  rw [fitsHeader_eq, fitsHeader_eq, String.toList_append, List.flatMap_append, List.all_append,
    hbearer, Bool.true_and]

/-- Clients of the same service that get the same wherever remote systems answer alike. -/
structure Client.Twin {τ : Type} (R : σ → τ → Prop) (c : Client σ) (k : Client τ) : Prop where
  baseUrl : c.baseUrl = k.baseUrl
  patience : c.patience = k.patience
  get : ∀ path query {x y}, R x y → InStep Eq R (c.get path query x) (k.get path query y)

/-- **Clients of a blind service differ in nothing but the token.** -/
theorem Client.twin_ofUrl (network : Network σ) (patience : Nat) (url : String) {a b : String}
    (ha : fitsHeader a = true) (hb : fitsHeader b = true) :
    (ofUrl network.noted patience url a).Twin (network.Heard ("Bearer " ++ a) ("Bearer " ++ b))
      (ofUrl network.noted patience url b) := by
  have hrequest {token : String} (h : fitsHeader token = true) (path : String)
      (query : List (String × String)) :
      (ofUrl network.noted patience url token).request? path query =
        (Url.ofText? (trimSlashes url ++ path)).map fun u =>
          ⟨u.withQuery query, "Bearer " ++ token⟩ :=
    if_pos ((fitsHeader_bearer token).trans h)
  refine ⟨rfl, rfl, ?_⟩
  intro path query x y hr
  unfold get
  rw [hrequest ha, hrequest hb]
  cases Url.ofText? (trimSlashes url ++ path) with
  | none => exact ⟨rfl, hr⟩
  | some u =>
      obtain ⟨reply, x', y', hx, hy, hr'⟩ := (hr.step (u.withQuery query)).same
      have hx' : (ofUrl network.noted patience url a).network
          ⟨u.withQuery query, "Bearer " ++ a⟩ x = (reply, x') := hx
      have hy' : (ofUrl network.noted patience url b).network
          ⟨u.withQuery query, "Bearer " ++ b⟩ y = (reply, y') := hy
      simp only [Option.map_some, hx', hy']
      cases reply with
      | none => exact ⟨rfl, hr'⟩
      | some reply => exact ⟨rfl, hr'⟩

end Intake.Http

namespace Intake

/-! ## Listings -/

/-- What is gathered page by page is the same where the pages are. -/
theorem Pager.twin_gather {σ τ α : Type} {R : σ → τ → Prop} {pager : Pager σ α}
    {pager' : Pager τ α}
    (h : ∀ name {x y}, R x y → InStep Eq R (pager name x) (pager' name y)) (pages : Nat) :
    ∀ name {x y}, R x y →
      InStep Eq R (pager.gather pages name x) (pager'.gather pages name y) := by
  induction pages with
  | zero => exact fun _ _ _ hr => ⟨rfl, hr⟩
  | succ pages ih =>
      intro name x y hr
      rw [gather, gather]
      obtain ⟨answer, x', y', hx, hy, hr'⟩ := (h name hr).same
      rw [hx, hy]
      cases answer with
      | error f => exact ⟨rfl, hr'⟩
      | ok page =>
          simp only
          cases page.next with
          | none => exact ⟨rfl, hr'⟩
          | some next =>
              obtain ⟨rest, x'', y'', hx', hy', hr''⟩ := (ih (some next) hr').same
              simp only [hx', hy']
              rcases rest with f | items
              · exact ⟨rfl, hr''⟩
              · exact ⟨rfl, hr''⟩

end Intake
