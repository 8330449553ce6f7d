import Intake.Drive.Contents
import Intake.Json.Printer
import Intake.Proofs.Http.Paging
import Intake.Proofs.Http.Replies
import Intake.Slack.History

/-!
# Messages of a channel and items of a folder

Both services give listings in pages, but they say in different ways that a page is the last one,
and that there was a failure. The messages of a channel and the items of a folder are all that
their pages hold, in the order of the pages.
-/

namespace Intake

open Http (Client Inquiry Reply Request Serves Turn gathered)

variable {σ : Type}

/-! ## Channels -/

namespace Slack

open Json Json.Decode in
theorem Message.shows : shape.outline.Shows decode := by
  apply Outline.shows_record
  · exact fun f _ => f.fits_whole
  · intro es m
    rw [field_shown_whole rfl, fieldD_shown_whole rfl, fieldD_shown_whole rfl,
      fieldD_shown_whole rfl]

open Json Json.Decode in
theorem Report.shows_cursor : cursorShape.outline.Shows decodeCursor := by
  apply Outline.shows_record
  · exact fun f _ => f.fits_whole
  · intro es c
    rw [fieldD_shown_whole rfl]

open Json Json.Decode in
/-- What is looked at in a reply about messages is all that its report depends on. -/
theorem Report.shows : outline.Shows decode := by
  have hcursor := shows_cursor.optional
  have hmessages := Message.shows.each
  apply Outline.shows_record
  · intro f hf
    simp only [shape, List.mem_cons, List.not_mem_nil, or_false] at hf
    rcases hf with rfl | rfl | rfl | rfl | rfl
    · exact Field.fits_whole _
    · exact Field.fits_whole _
    · exact hmessages.check
    · exact Field.fits_whole _
    · exact hcursor.check
  · intro es report
    simp only [bind_eq_ok]
    refine exists_congr fun ok => and_congr ?_ (exists_congr fun error => and_congr ?_
      (exists_congr fun messages => and_congr ?_ (exists_congr fun hasMore => and_congr ?_
        (exists_congr fun cursor => and_congr ?_ Iff.rfl))))
    · rw [field_shown_whole rfl]
    · rw [fieldD_shown_whole rfl]
    · exact fieldD_shown hmessages rfl
    · rw [fieldD_shown_whole rfl]
    · exact fieldD_shown hcursor rfl

/-- How messages are asked for. -/
def inquiry (method : String) (params : List (String × String)) : Inquiry :=
  ⟨"/" ++ method, params ++ [("limit", pageLimit)], "cursor"⟩

/-- The name of the next page. -/
def Report.next? (r : Report) : Option String :=
  if r.hasMore then r.cursor.filter (!·.isEmpty) else none

theorem Report.page_eq (r : Report) (h : r.ok = true) : r.page = .ok ⟨r.messages, r.next?⟩ :=
  if_pos h

theorem Report.next?_eq_some {r : Report} {next : String} :
    r.next? = some next ↔ r.hasMore = true ∧ r.cursor = some next ∧ next ≠ "" := by
  rw [next?, Option.ite_none_right_eq_some, Option.filter_eq_some_iff]
  simp

theorem Report.next?_eq_none {r : Report} :
    r.next? = none ↔ r.hasMore = false ∨ r.cursor = none ∨ r.cursor = some "" := by
  unfold next?
  cases r.hasMore with
  | false => simp
  | true =>
      cases r.cursor with
      | none => simp
      | some next => simp

/-- What a reply about messages says. There is a next page only if there is the word that there is
more, and a name for it that is not empty. -/
inductive Means (method : String) (reply : Reply) : Turn Message → Prop where
  | refused :
      reply.status.isSuccess = false → Means method reply (.failed (.refused method reply.status))
  | unreadable :
      reply.status.isSuccess = true →
        (∀ report, reply.decode Report.outline Report.decode ≠ .ok report) →
        Means method reply (.failed (.exchange .unreadableBody))
  | reported {report : Report} :
      reply.status.isSuccess = true → reply.decode Report.outline Report.decode = .ok report →
        report.ok = false →
        Means method reply (.failed (.reported (report.error.getD "unknown_error")))
  | last {report : Report} :
      reply.status.isSuccess = true → reply.decode Report.outline Report.decode = .ok report →
        report.ok = true →
        (report.hasMore = false ∨ report.cursor = none ∨ report.cursor = some "") →
          Means method reply (.last report.messages)
  | more {report : Report} {next : String} :
      reply.status.isSuccess = true → reply.decode Report.outline Report.decode = .ok report →
        report.ok = true → report.hasMore = true → report.cursor = some next → next ≠ "" →
          Means method reply (.more report.messages next)

theorem readReport_of_means {method : String} {reply : Reply} {turn : Turn Message}
    (h : Means method reply turn) : readReport method reply = turn.page := by
  have hread (hsuccess : reply.status.isSuccess = true) : readReport method reply =
      ((reply.decode Report.outline Report.decode).mapError Outage.exchange).bind Report.page := by
    rw [readReport, hsuccess]
    rfl
  cases h with
  | refused hrefused =>
      rw [readReport, hrefused]
      rfl
  | unreadable hsuccess hnone =>
      rw [hread hsuccess]
      cases hdecode : reply.decode Report.outline Report.decode with
      | ok report => exact absurd hdecode (hnone report)
      | error failure =>
          rw [Http.Reply.decode_error hdecode]
          rfl
  | @reported report hsuccess hdecode hok =>
      rw [hread hsuccess, hdecode]
      show report.page = _
      rw [Report.page, hok]
      rfl
  | @last report hsuccess hdecode hok hend =>
      rw [hread hsuccess, hdecode]
      show report.page = _
      rw [report.page_eq hok, Report.next?_eq_none.mpr hend]
      rfl
  | @more report next hsuccess hdecode hok hmore hcursor hnext =>
      rw [hread hsuccess, hdecode]
      show report.page = _
      rw [report.page_eq hok, Report.next?_eq_some.mpr ⟨hmore, hcursor, hnext⟩]
      rfl

/-- Whatever the reply is, it says something about the listing. -/
theorem exists_meaning (method : String) (reply : Reply) : ∃ turn, Means method reply turn := by
  cases hsuccess : reply.status.isSuccess with
  | false => exact ⟨_, .refused hsuccess⟩
  | true =>
      cases hdecode : reply.decode Report.outline Report.decode with
      | error failure =>
          refine ⟨_, .unreadable hsuccess ?_⟩
          intro report hok
          rw [hdecode] at hok
          cases hok
      | ok report =>
          cases hok : report.ok with
          | false => exact ⟨_, .reported hsuccess hdecode hok⟩
          | true =>
              cases hnext : report.next? with
              | none =>
                  exact ⟨_, .last hsuccess hdecode hok (Report.next?_eq_none.mp hnext)⟩
              | some next =>
                  obtain ⟨hmore, hcursor, hne⟩ := Report.next?_eq_some.mp hnext
                  exact ⟨_, .more hsuccess hdecode hok hmore hcursor hne⟩

/-- A reply says that there is no such channel exactly if it is a report that says so. -/
theorem means_channelNotFound_iff {method : String} {reply : Reply} :
    Means method reply (.failed (.reported channelNotFound)) ↔
      reply.status.isSuccess = true ∧
        ∃ report, reply.decode Report.outline Report.decode = .ok report ∧
          report.ok = false ∧ report.error = some channelNotFound := by
  constructor
  · intro h
    generalize hturn : (Turn.failed (.reported channelNotFound) : Turn Message) = turn at h
    cases h with
    | refused _ => cases hturn
    | unreadable _ _ => cases hturn
    | last _ _ _ _ => cases hturn
    | more _ _ _ _ _ _ => cases hturn
    | @reported report hsuccess hdecode hok =>
        refine ⟨hsuccess, report, hdecode, hok, ?_⟩
        have hcode : channelNotFound = report.error.getD "unknown_error" := by
          injection hturn with houtage
          injection houtage
        cases herror : report.error with
        | some code => rw [hcode, herror, Option.getD_some]
        | none =>
            rw [herror, Option.getD_none] at hcode
            exact absurd hcode (by decide)
  · rintro ⟨hsuccess, report, hdecode, hok, herror⟩
    have hmeans : Means method reply
        (.failed (.reported (report.error.getD "unknown_error"))) := .reported hsuccess hdecode hok
    rwa [herror] at hmeans

theorem pager_eq (client : Client σ) (method channel : String) (params : List (String × String)) :
    pager client method channel params =
      (inquiry method params).pager client (readReport method) channel := rfl

theorem messages_eq_gather (client : Client σ) (method channel : String)
    (params : List (String × String)) (remote : σ) :
    messages client method channel params remote =
      ((inquiry method params).pager client (readReport method) channel).gather client.patience
        none remote := rfl

/-- There is no history exactly if the listing ended with the word that there is no channel. -/
theorem history_eq_none_iff {client : Client σ} {span : Span} {remote remote' : σ}
    {pages : List (List Message × String)} {ending : Except Outage (List Message)}
    (hlisted : messages client "conversations.history" span.channel span.params remote =
      (gathered span.channel pages ending, remote')) :
    (history client span remote).1 = .ok none ↔
      ending = .error (.reported channelNotFound) := by
  rw [history, hlisted]
  cases ending with
  | ok items => simp [gathered]
  | error outage =>
      cases outage with
      | reported code =>
          simp only [gathered]
          by_cases hcode : code = channelNotFound
          · simp [hcode]
          · simp [hcode]
      | refused service status => simp [gathered]
      | notFound => simp [gathered]
      | exchange failure => simp [gathered]
      | stated text => simp [gathered]

end Slack

/-! ## Folders -/

namespace Drive

/-- How the items of a folder are asked for. -/
def inquiry (folder : String) : Inquiry := ⟨"/files", childQuery folder, "pageToken"⟩

open Json.Decode in
/-- The items in an answer about a folder, with the name of the next page as it is given. -/
def decodeListed : Json.Decoder (List File × Option String) := fun v => do
  let entries ← entriesOf pageShape v
  let files ← fieldD entries "files" (list File.decode) []
  let next ← fieldD entries "nextPageToken" (optional string) none
  .ok (files, next)

open Json Json.Decode in
theorem File.shows : shape.outline.Shows decode := by
  apply Outline.shows_record
  · exact fun f _ => f.fits_whole
  · intro es f
    rw [field_shown_whole rfl, fieldD_shown_whole rfl, fieldD_shown_whole rfl,
      fieldD_shown_whole rfl, fieldD_shown_whole rfl, fieldD_shown_whole rfl]

open Json Json.Decode in
/-- What is looked at in a reply about a folder is all that its page depends on. -/
theorem shows_listed : pageOutline.Shows decodeListed := by
  have hfiles := File.shows.each
  apply Outline.shows_record
  · intro f hf
    simp only [pageShape, List.mem_cons, List.not_mem_nil, or_false] at hf
    rcases hf with rfl | rfl
    · exact hfiles.check
    · exact Field.fits_whole _
  · intro es listed
    simp only [bind_eq_ok]
    refine exists_congr fun files => and_congr (fieldD_shown hfiles rfl) ?_
    rw [fieldD_shown_whole rfl]

/-- A page is what is listed, where an empty name is none. -/
theorem decodePage_eq (v : Json) :
    decodePage v = (decodeListed v).map fun l => ⟨l.1, l.2.filter (!·.isEmpty)⟩ := by
  unfold decodePage decodeListed
  simp only [bind, Except.bind, Except.map]
  split
  · rfl
  split
  · rfl
  split <;> rfl

/-- What a reply about the items of a folder says. There is a next page only if there is a name for
it that is not empty. -/
inductive Means (reply : Reply) : Turn File → Prop where
  | refused :
      reply.status.isSuccess = false → Means reply (.failed (.refused "Drive" reply.status))
  | unreadable :
      reply.status.isSuccess = true →
        (∀ listed, reply.decode pageOutline decodeListed ≠ .ok listed) →
        Means reply (.failed (.exchange .unreadableBody))
  | last {files : List File} {token : Option String} :
      reply.status.isSuccess = true → reply.decode pageOutline decodeListed = .ok (files, token) →
        (token = none ∨ token = some "") → Means reply (.last files)
  | more {files : List File} {next : String} :
      reply.status.isSuccess = true →
        reply.decode pageOutline decodeListed = .ok (files, some next) →
        next ≠ "" → Means reply (.more files next)

theorem readPage_of_means {reply : Reply} {turn : Turn File} (h : Means reply turn) :
    readPage reply = turn.page := by
  have hread (hsuccess : reply.status.isSuccess = true) : readPage reply =
      ((reply.decode pageOutline decodeListed).map fun l => ⟨l.1, l.2.filter (!·.isEmpty)⟩).mapError
        Outage.exchange := by
    rw [readPage, checkStatus, if_pos hsuccess, ← Http.Reply.decode_map decodePage_eq]
    rfl
  cases h with
  | refused hrefused =>
      rw [readPage, checkStatus, hrefused]
      rfl
  | unreadable hsuccess hnone =>
      rw [hread hsuccess]
      cases hdecode : reply.decode pageOutline decodeListed with
      | ok listed => exact absurd hdecode (hnone listed)
      | error failure =>
          rw [Http.Reply.decode_error hdecode]
          rfl
  | last hsuccess hdecode hend =>
      rw [hread hsuccess, hdecode]
      rcases hend with rfl | rfl
      · rfl
      · rfl
  | @more files next hsuccess hdecode hnext =>
      have hfilter : (some next).filter (!·.isEmpty) = some next := by simp [hnext]
      rw [hread hsuccess, hdecode, Except.map, hfilter]
      rfl

/-- Whatever the reply is, it says something about the listing. -/
theorem exists_meaning (reply : Reply) : ∃ turn, Means reply turn := by
  cases hsuccess : reply.status.isSuccess with
  | false => exact ⟨_, .refused hsuccess⟩
  | true =>
      cases hdecode : reply.decode pageOutline decodeListed with
      | error failure =>
          refine ⟨_, .unreadable hsuccess ?_⟩
          intro listed hok
          rw [hdecode] at hok
          cases hok
      | ok listed =>
          obtain ⟨files, token⟩ := listed
          cases token with
          | none => exact ⟨_, .last hsuccess hdecode (.inl rfl)⟩
          | some next =>
              by_cases hnext : next = ""
              · exact ⟨_, .last hsuccess hdecode (.inr (congrArg some hnext))⟩
              · exact ⟨_, .more hsuccess hdecode hnext⟩

theorem children_eq_gather (client : Client σ) (folder : String) (remote : σ) :
    children client folder remote =
      ((inquiry folder).pager client readPage folder).gather client.patience none remote := rfl

end Drive

/-! ## Both -/

/-- **Listings in pages.** Whatever pages the services give, in any number that a client has the
patience for, the messages of a channel and the items of a folder are those of all pages, in the
order of the pages; if a page is refused, cannot be read or tells a failure, or nobody answers,
there is only the failure of this channel or folder. The first page is asked for without a name
and each other one once, by the name that the page before it gave; all else in the requests is the
same, and after the ending nothing is asked for. A channel has no history exactly if the ending is
a report without success that names the fault so. -/
theorem listings_whole :
    (∀ (client : Client σ) (method channel : String) (params : List (String × String))
        (remote remote' : σ) (pages : List (List Slack.Message × String))
        (ending : Except Outage (List Slack.Message)),
      Serves client (Slack.inquiry method params) (Slack.Means method) none remote pages ending
          remote' → pages.length < client.patience →
        Slack.messages client method channel params remote =
            (gathered channel pages ending, remote') ∧
          ∃ asked, Slack.messages client.noted method channel params (remote, []) =
              (gathered channel pages ending, remote', asked) ∧
            asked.map some = (Slack.inquiry method params).requests client none pages) ∧
    (∀ (client : Client σ) (folder : String) (remote remote' : σ)
        (pages : List (List Drive.File × String)) (ending : Except Outage (List Drive.File)),
      Serves client (Drive.inquiry folder) Drive.Means none remote pages ending remote' →
        pages.length < client.patience →
          Drive.children client folder remote = (gathered folder pages ending, remote') ∧
            ∃ asked, Drive.children client.noted folder (remote, []) =
                (gathered folder pages ending, remote', asked) ∧
              asked.map some = (Drive.inquiry folder).requests client none pages) ∧
    (∀ (client : Client σ) (span : Slack.Span) (remote remote' : σ)
        (pages : List (List Slack.Message × String))
        (ending : Except Outage (List Slack.Message)),
      Serves client (Slack.inquiry "conversations.history" span.params)
          (Slack.Means "conversations.history") none remote pages ending remote' →
        pages.length < client.patience →
          ((Slack.history client span remote).1 = .ok none ↔
            ending = .error (.reported Slack.channelNotFound))) ∧
    ∀ (method : String) (reply : Reply),
      Slack.Means method reply (.failed (.reported Slack.channelNotFound)) ↔
        reply.status.isSuccess = true ∧
          ∃ report, reply.decode Slack.Report.outline Slack.Report.decode = .ok report ∧
            report.ok = false ∧ report.error = some Slack.channelNotFound := by
  have hslack (method : String) : ∀ reply turn, Slack.Means method reply turn →
      Slack.readReport method reply = turn.page := fun _ _ => Slack.readReport_of_means
  have hdrive : ∀ reply turn, Drive.Means reply turn → Drive.readPage reply = turn.page :=
    fun _ _ => Drive.readPage_of_means
  refine ⟨?_, ?_, ?_, ?_⟩
  · intro client method channel params remote remote' pages ending hserves hpages
    obtain ⟨asked, hasked, hnoted⟩ := hserves.noted []
    refine ⟨?_, asked, ?_, hasked⟩
    · rw [Slack.messages_eq_gather]
      exact hserves.gather (hslack method) hpages
    · rw [Slack.messages_eq_gather]
      exact hnoted.gather (hslack method) hpages
  · intro client folder remote remote' pages ending hserves hpages
    obtain ⟨asked, hasked, hnoted⟩ := hserves.noted []
    refine ⟨?_, asked, ?_, hasked⟩
    · rw [Drive.children_eq_gather]
      exact hserves.gather hdrive hpages
    · rw [Drive.children_eq_gather]
      exact hnoted.gather hdrive hpages
  · intro client span remote remote' pages ending hserves hpages
    have hlisted : Slack.messages client "conversations.history" span.channel span.params remote =
        (gathered span.channel pages ending, remote') := by
      rw [Slack.messages_eq_gather]
      exact hserves.gather (hslack _) hpages
    exact Slack.history_eq_none_iff hlisted
  · intro method reply
    exact Slack.means_channelNotFound_iff

/-! ## Two pages each -/

namespace Http

/-- The network that gives replies one after the other, as long as there are any. -/
def inTurn : Network (List Reply) := fun _ replies => (replies.head?, replies.tail)

def reader : Client (List Reply) := .ofUrl inTurn 2 "http://s" "t"

theorem get_reader {path : String} {query : List (String × String)}
    (h : (reader.request? path query).isSome = true) (reply : Reply) (replies : List Reply) :
    reader.get path query (reply :: replies) = (.ok reply, replies) :=
  Client.get_of_request h fun _ => rfl

def replyOf (v : Json) : Reply := ⟨.ok, some v.pretty.toUTF8⟩

end Http

open Http (reader get_reader replyOf)

namespace Slack

def newest : Message := ⟨"2", "", 0, none⟩

def oldest : Message := ⟨"1", "", 0, none⟩

deriving instance DecidableEq for Report

theorem Message.whole_toJson {m : Message} (h : Number.fits m.replyCount = true) :
    Json.Whole m.toJson := by
  refine .object ?_
  rcases m with ⟨stamp, text, replies, _ | thread⟩
  · simp only [List.append_nil, List.forall_mem_cons]
    exact ⟨.string stamp, .string text, .integer h, List.forall_mem_nil _⟩
  · simp only [List.cons_append, List.nil_append, List.forall_mem_cons]
    exact ⟨.string stamp, .string text, .integer h, .string thread, List.forall_mem_nil _⟩

/-- A page with a message, the word that there is more and a name for it, which may be empty. -/
def pageOf (m : Message) (cursor : String) : Json :=
  .object [("ok", .bool true), ("messages", .array [m.toJson]), ("has_more", .bool true),
    ("response_metadata", .object [("next_cursor", .string cursor)])]

theorem whole_pageOf {m : Message} (h : Number.fits m.replyCount = true) (cursor : String) :
    Json.Whole (pageOf m cursor) := by
  refine .object ?_
  simp only [List.forall_mem_cons]
  refine ⟨.bool true, .array ?_, .bool true, .object ?_, List.forall_mem_nil _⟩
  · exact List.forall_mem_singleton.mpr (Message.whole_toJson h)
  · exact List.forall_mem_singleton.mpr (.string cursor)

def gone : Json := .object [("ok", .bool false), ("error", .string channelNotFound)]

theorem whole_gone : Json.Whole gone := by
  refine .object ?_
  simp only [List.forall_mem_cons]
  exact ⟨.bool false, .string _, List.forall_mem_nil _⟩

/-- The first page is followed by whatever ends the listing. -/
theorem serves_newest {reply : Reply} {ending : Except Outage (List Message)}
    (hrest : Serves reader (inquiry "conversations.history" [("channel", "C1")])
      (Means "conversations.history") (some "a b") [reply] [] ending []) :
    Serves reader (inquiry "conversations.history" [("channel", "C1")])
      (Means "conversations.history") none [replyOf (pageOf newest "a b"), reply]
      [([newest], "a b")] ending [] := by
  have hdecode : (replyOf (pageOf newest "a b")).decode Report.outline Report.decode =
      .ok ⟨true, none, [newest], true, some "a b"⟩ :=
    Reply.decode_pretty Report.shows (whole_pageOf (by decide) _) (by decide +kernel)
  have hmore : Means "conversations.history" (replyOf (pageOf newest "a b"))
      (.more [newest] "a b") := .more rfl hdecode rfl rfl rfl (by decide)
  exact .more (get_reader (by decide +kernel) _ _) hmore hrest

end Slack

theorem listings_whole_reader :
    (∃ asked, Slack.messages reader.noted "conversations.history" "C1" [("channel", "C1")]
        ([replyOf (Slack.pageOf Slack.newest "a b"), replyOf (Slack.pageOf Slack.oldest "")], []) =
          (.ok [Slack.newest, Slack.oldest], [], asked) ∧
      asked.map (some ·.url.text) =
        [some "http://s/conversations.history?channel=C1&limit=200",
          some "http://s/conversations.history?channel=C1&limit=200&cursor=a+b"]) ∧
    (Slack.history reader ⟨"C1", none, none⟩
      [replyOf (Slack.pageOf Slack.newest "a b"), replyOf Slack.gone]).1 = .ok none ∧
    Drive.children reader "f"
        [replyOf (.object [("nextPageToken", .string "b")]), ⟨.serverError, none⟩] =
      (.error (.unavailable "f" (.refused "Drive" .serverError)), []) := by
  obtain ⟨hmessages, hchildren, hhistory, hgone⟩ := @listings_whole (List Reply)
  refine ⟨?_, ?_, ?_⟩
  · have hdecode : (replyOf (Slack.pageOf Slack.oldest "")).decode Slack.Report.outline
        Slack.Report.decode =
        .ok ⟨true, none, [Slack.oldest], true, some ""⟩ :=
      Reply.decode_pretty Slack.Report.shows (Slack.whole_pageOf (by decide) _) (by decide +kernel)
    have hlast : Slack.Means "conversations.history" (replyOf (Slack.pageOf Slack.oldest ""))
        (.last [Slack.oldest]) := .last rfl hdecode rfl (.inr (.inr rfl))
    have hserves := Slack.serves_newest (.last (get_reader (by decide +kernel) _ _) hlast)
    obtain ⟨_, asked, hasked, hrequests⟩ := hmessages _ _ "C1" _ _ _ _ _ hserves (by decide)
    refine ⟨asked, hasked, ?_⟩
    have htexts := congrArg (List.map (Option.map (·.url.text))) hrequests
    rw [List.map_map] at htexts
    refine htexts.trans ?_
    decide +kernel
  · have hfailed : Slack.Means "conversations.history" (replyOf Slack.gone)
        (.failed (.reported Slack.channelNotFound)) :=
      (hgone _ _).mpr ⟨rfl, ⟨false, some Slack.channelNotFound, [], false, none⟩,
        Reply.decode_pretty Slack.Report.shows Slack.whole_gone (by decide +kernel), rfl, rfl⟩
    have hserves := Slack.serves_newest (.failed (get_reader (by decide +kernel) _ _) hfailed)
    exact (hhistory reader ⟨"C1", none, none⟩ _ _ _ _ hserves (by decide)).mpr rfl
  · have hwhole : Json.Whole (.object [("nextPageToken", .string "b")]) :=
      .object (List.forall_mem_singleton.mpr (.string "b"))
    have hmore : Drive.Means (replyOf (.object [("nextPageToken", .string "b")])) (.more [] "b") :=
      .more rfl (Reply.decode_pretty Drive.shows_listed hwhole (by decide +kernel)) (by decide)
    have hserves : Serves reader (Drive.inquiry "f") Drive.Means none
        [replyOf (.object [("nextPageToken", .string "b")]), ⟨.serverError, none⟩] [([], "b")]
        (.error (.refused "Drive" .serverError)) [] :=
      .more (get_reader (by decide +kernel) _ _) hmore
        (.failed (get_reader (by decide +kernel) _ _) (.refused rfl))
    exact (hchildren _ _ _ _ _ _ hserves (by decide)).1

end Intake
