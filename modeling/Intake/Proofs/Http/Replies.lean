import Intake.Http.Body
import Intake.Http.Client
import Intake.Proofs.Attempts
import Intake.Proofs.Json.RoundTrip

/-!
# What replies hold

A reply is decoded as the value whose text it holds. What cannot be decoded is an unreadable body,
whatever the reason was, and two decoders that give the same values read the same replies.
-/

namespace Intake.Http

/-- Where a request can be sent, the answer to it is the one of the network. -/
theorem Client.get_of_request {σ : Type} {client : Client σ} {path : String}
    {query : List (String × String)} {remote remote' : σ} {reply : Reply}
    (h : (client.request? path query).isSome = true)
    (hanswer : ∀ request, client.network request remote = (some reply, remote')) :
    client.get path query remote = (.ok reply, remote') := by
  obtain ⟨request, hrequest⟩ := Option.isSome_iff_exists.mp h
  rw [get, hrequest]
  simp only [hanswer]

namespace Reply

variable {α β : Type} {outline : Json.Outline} {decoder : Json.Decoder α}

/-- A reply that holds a text is decoded as the value that the text denotes. -/
theorem decode_text (hshows : outline.Shows decoder) {status : Status} {text : String} {v : Json}
    (hread : Json.read text = some v) {a : α} :
    decode outline decoder ⟨status, some text.toUTF8⟩ = .ok a ↔ decoder v = .ok a := by
  have hbody : (some text.toUTF8).bind (Json.readBytes outline) = some (v.prune outline) :=
    Json.readBytes_toUTF8 hread outline
  unfold decode
  rw [hbody]
  exact mapError_eq_ok.trans (hshows v a)

/-- A reply that holds the text of a value is decoded as the value is. -/
theorem decode_pretty (hshows : outline.Shows decoder) {status : Status} {v : Json} {a : α}
    (hv : Json.Whole v) (h : (decoder v).toOption = some a) :
    decode outline decoder ⟨status, some v.pretty.toUTF8⟩ = .ok a :=
  (decode_text hshows (Json.read_pretty hv)).mpr (eq_ok_of_toOption h)

theorem decode_error {reply : Reply} {failure : Failure}
    (h : reply.decode outline decoder = .error failure) : failure = .unreadableBody := by
  unfold decode at h
  split at h
  · cases h
    rfl
  · rename_i v _
    cases hv : decoder v with
    | ok a =>
        rw [hv] at h
        cases h
    | error e =>
        rw [hv] at h
        cases h
        rfl

/-- A decoder that goes on from another one reads replies as that one does, and goes on. -/
theorem decode_map {decoder' : Json.Decoder β} {f : α → β}
    (h : ∀ v, decoder' v = (decoder v).map f) (reply : Reply) :
    reply.decode outline decoder' = (reply.decode outline decoder).map f := by
  unfold decode
  cases reply.body.bind (Json.readBytes outline) with
  | none => rfl
  | some v =>
      show (decoder' v).mapError _ = ((decoder v).mapError _).map f
      rw [h v]
      cases decoder v <;> rfl

end Reply

end Intake.Http
