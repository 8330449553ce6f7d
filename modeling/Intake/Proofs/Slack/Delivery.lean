import Intake.Proofs.Document.Extensions
import Intake.Proofs.Element.Narration
import Intake.Proofs.Run.Room
import Intake.Proofs.Slack.Bounds
import Intake.Proofs.Slack.Listings
import Intake.Proofs.Time.Window

/-!
# Channels from end to end

A channel is listed in pages, its threads are folded into its messages, the texts are dumped,
read back, cleaned and numbered, and the result is written and read. What comes out is one
element for each message that has not only blanks, whatever the texts are.
-/

namespace Intake.Slack

open Document Files Processing

variable {σ : Type}

/-- The document of a channel, of which nothing is known yet. -/
def document (settings : Settings) (c : Channel σ) : Document σ := .ofSource settings c.source

/-! ## The parts -/

theorem soundExtension_document (settings : Settings) (c : Channel σ) :
    SoundExtension (document settings c).source.extension :=
  show SoundExtension "xml" by decide

theorem ordinaryName_document (settings : Settings) (c : Channel σ) :
    Path.OrdinaryName (stagedNameOf (document settings c).source) :=
  ordinaryName_stagedName (soundExtension_document settings c) (show "xml" ≠ "" by decide)

/-- A dump never stands in the place of its result. -/
theorem stagingPlace_ne_outputPlace (settings : Settings) (c : Channel σ) (cwd : Location) :
    (document settings c).stagingPlace cwd ≠ (document settings c).outputPlace cwd := by
  intro hsame
  have hjson := (stagingPlace_eq_outputPlace (soundExtension_document settings c)
    (ordinaryName_document settings c) cwd).mp hsame
  exact absurd hjson.1 (show "xml" ≠ "json" by decide)

/-- The staged file of a channel with a name is taken for the dump that it is. -/
theorem isDump_document (settings : Settings) {c : Channel σ} (hname : c.span.channel ≠ "") :
    isDump (document settings c).stagingPath = true := by
  rw [isDump, extension?_stagingPath (soundExtension_document settings c)
    (show "xml" ≠ "" by decide) hname]
  exact show (lowerAscii "xml" == "xml") = true by decide

theorem windowOf_topics {topics : List Topic}
    (hstamps : ∀ t ∈ topics, (Time.readStamp t.message.stamp).isSome = true) :
    windowOf (topics.map (·.message.stamp)) =
      .ok (.hull (topics.filterMap fun t => Time.readStamp t.message.stamp)) := by
  rw [windowOf_eq_ok, List.filterMap_map]
  · rfl
  · intro s hs
    obtain ⟨t, ht, rfl⟩ := List.mem_map.mp hs
    exact hstamps t ht

/-! ## From end to end -/

/-- **Channels from end to end.** A channel with a name, as all of a configuration have one, whose
history and threads are listed by the service in any number of pages with stamps that can be read,
is processed wherever there is room for it and no fault strikes while its result is written. The
written result has one element of narrative text for each message whose text with the replies has
not only blanks, in their order, cleaned and with the identifiers of their positions; its window
reaches from the least to the greatest stamp of the history. -/
theorem channel_delivered {c : Channel σ} {settings : Settings} {plan : Plan} {w : World σ}
    {topics : List Topic} {remote : σ} (hplan : plan.processor = processor defaultCleaners)
    (hname : c.span.channel ≠ "") (htopics : Holds c w.remote topics remote)
    (hstamps : ∀ t ∈ topics, (Time.readStamp t.message.stamp).isSome = true)
    (hroom : Room (document settings c) w.files)
    (hspared : plan.conditions.strike c.span.channel = none) :
    ∃ bytes o, ((document settings c).work plan w).1 =
        .finished (.processed c.span.channel o.elements.length) ∧
      ((document settings c).work plan w).2.files.read (document settings c).outputPath =
        .ok bytes ∧
      Output.ofBytes? bytes = some o ∧ o.locator = c.span.channel ∧
      o.elements = narration (originOf (document settings c).stagingPath c.span.channel)
        (topics.map Topic.text) ∧
      o.window.Spans (topics.filterMap fun t => Time.readStamp t.message.stamp) := by
  have hprocess (staged : FileSystem)
      (hread : staged.read (document settings c).stagingPath =
        .ok (Dump.write (topics.map Topic.text)).toUTF8) :
      plan.processor staged (document settings c).stagingPath (document settings c).locator =
        .elements (narration (originOf (document settings c).stagingPath c.span.channel)
          (topics.map Topic.text)) := by
    rw [hplan, processor, process_dump (isDump_document settings hname) hread]
    rfl
  obtain ⟨hending, hread⟩ := work_of_room rfl hroom (ordinaryName_document settings c)
    (stagingPlace_ne_outputPlace settings c _) hspared htopics.download (windowOf_topics hstamps)
    hprocess
  refine ⟨_, (document settings c).output _ _ _, hending, hread, Output.ofBytes?_bytes ?_,
    rfl, rfl, Time.Window.spans_hull _⟩
  intro p hp n hn
  rw [from_narration _ _ p hp] at hn
  cases hn

/-! ## A question and its answer -/

def question : Message := ⟨"1.5", " a  <b>", 1, none⟩

def answer : Message := ⟨"3", "yes", 0, some "1.5"⟩

/-- The report that lists the question and the answer. -/
def quizReply : Http.Reply :=
  ⟨.ok, some (Json.object [("ok", .bool true),
    ("messages", .array [question.toJson, answer.toJson])]).pretty.toUTF8⟩

/-- A channel whose service gives the same report whatever it is asked for. -/
def quiz : Channel Unit :=
  ⟨⟨"C1", none, none⟩, .ofUrl (fun _ s => (some quizReply, s)) 1 "http://s" "t", false⟩

theorem chain_quiz {method : String} {params : List (String × String)}
    (h : (quiz.client.request? ("/" ++ method) (params ++ [("limit", pageLimit)])).isSome = true) :
    Chain quiz.client method params none () 1 [question, answer] () := by
  have hmessages : ∀ m ∈ [question.toJson, answer.toJson], Json.Whole m :=
    List.forall_mem_cons.mpr ⟨Message.whole_toJson (by decide),
      List.forall_mem_singleton.mpr (Message.whole_toJson (by decide))⟩
  have hwhole : Json.Whole (.object [("ok", .bool true),
      ("messages", .array [question.toJson, answer.toJson])]) :=
    .object (List.forall_mem_cons.mpr ⟨.bool true, List.forall_mem_singleton.mpr (.array hmessages)⟩)
  have hdecode : quizReply.decode Report.outline Report.decode =
      .ok ⟨true, none, [question, answer], false, none⟩ :=
    Http.Reply.decode_pretty Report.shows hwhole (by decide +kernel)
  refine .last ⟨rfl, quizReply, ?_, rfl, hdecode⟩ rfl
  rw [Option.toList_none, List.map_nil, List.append_nil]
  exact Http.Client.get_of_request h fun _ => rfl

/-- The service lists the question with its thread, and the answer. -/
theorem holds_quiz : Holds quiz () [⟨question, [question, answer]⟩, ⟨answer, []⟩] () := by
  refine ⟨1, (), Nat.le_refl 1, chain_quiz (by decide +kernel), ?_⟩
  exact .threaded rfl (Nat.le_refl 1) (chain_quiz (by decide +kernel)) (.plain rfl .nil)

/-- Separate directories for staged files and results. -/
def apart : Settings := .within ⟨"d"⟩ ⟨"o"⟩

/-- The default way to work, on the first second. -/
def plain : Plan := ⟨processor defaultCleaners, .steady .epoch, false⟩

/-- A world with an empty tree of files. -/
def blank : World Unit := ⟨⟨.empty, []⟩, ()⟩

theorem room_quiz : Room (document apart quiz) blank.files where
  current := by decide
  stagedName := ⟨by decide, by decide⟩
  outputName := ⟨by decide, by decide⟩
  directories := ⟨_, _, rfl, rfl, by decide, by decide⟩

theorem channel_delivered_quiz :
    ∃ bytes o, ((document apart quiz).work plain blank).1 = .finished (.processed "C1" 2) ∧
      ((document apart quiz).work plain blank).2.files.read ⟨"o/C1.json"⟩ = .ok bytes ∧
      Output.ofBytes? bytes = some o ∧ o.elements.map (·.text) = ["a <b> <reply> yes", "yes"] := by
  obtain ⟨bytes, o, hending, hread, ho, _, helements, _⟩ :=
    @channel_delivered Unit quiz apart plain blank _ () rfl (by decide) holds_quiz
      (by decide +kernel) room_quiz rfl
  have htexts : o.elements.map (·.text) = ["a <b> <reply> yes", "yes"] := by
    rw [helements]
    decide +kernel
  have hlength : o.elements.length = 2 := by rw [← List.length_map (·.text), htexts]; rfl
  rw [hlength] at hending
  exact ⟨bytes, o, hending, hread, ho, htexts⟩

end Intake.Slack
