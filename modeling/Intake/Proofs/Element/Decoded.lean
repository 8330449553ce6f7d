import Intake.Element.Name
import Intake.Output
import Intake.Proofs.Json.Given

/-!
# What decoders let through

An element that is read alone has an identifier that is not empty: its own, or a fresh one. In a
body or a result an element keeps the identifier that it is given, also an empty one, and a window
has the bounds that it is given, also one without the other. So the values that the constructors
refuse are let through exactly where they are given.
-/

namespace Intake

open Json.Decode

namespace Element

/-! ## Elements alone -/

theorem Id.ofText_eq_ok {s : String} {id : Id} : ofText s = .ok id ↔ s ≠ "" ∧ id = ⟨s⟩ := by
  rw [ofText]
  split
  · next hempty => simp [String.isEmpty_iff.mp hempty]
  · next hne =>
      have hs : s ≠ "" := fun heq => hne (String.isEmpty_iff.mpr heq)
      simp [hs, eq_comm]

/-- An identifier in JSON is not empty. -/
theorem Id.ne_empty_of_ofJson {v : Option Json} {id : Id} (h : ofJson v = .ok (some id)) :
    id.text ≠ "" := by
  unfold ofJson at h
  split at h
  · cases h
  · cases h
  · obtain ⟨id', hid, hsome⟩ := map_eq_ok.mp h
    obtain ⟨hne, rfl⟩ := ofText_eq_ok.mp hid
    cases hsome
    exact hne
  · cases h

namespace Core

theorem id_of_ofEntries {entries : List (String × Json)} {c : Core}
    (h : ofEntries entries = .ok c) :
    entries.lookup "element_id" = some (.string c.id.text) := by
  obtain ⟨id, hid, h⟩ := bind_eq_ok.mp h
  obtain ⟨origin, _, h⟩ := bind_eq_ok.mp h
  obtain ⟨w, hw, hstring⟩ := field_eq_ok.mp hid
  rw [hw, string_eq_ok.mp hstring, ← Except.ok.inj h]

/-- The entries beside which an element has its own are those of the object. -/
theorem field?_of_entriesBeside {name : String} {own : List Field} {v : Json}
    {entries : List (String × Json)} (h : entriesBeside name own v = .ok entries) (key : String) :
    v.field? key = entries.lookup key := by
  cases v with
  | object es =>
      obtain ⟨_, _, h⟩ := bind_eq_ok.mp h
      obtain ⟨_, _, h⟩ := bind_eq_ok.mp h
      rw [Json.field?, Except.ok.inj h]
  | null => cases h
  | bool b => cases h
  | number n => cases h
  | string t => cases h
  | array items => cases h

/-- The identifier that an object is read with is not empty. -/
theorem field?_of_withId {fresh : Id} {v v' : Json} (hfresh : fresh.text ≠ "")
    (h : withId fresh v = .ok v') : ∃ s, v'.field? "element_id" = some (.string s) ∧ s ≠ "" := by
  unfold withId at h
  split at h
  · obtain ⟨id?, hid, h⟩ := bind_eq_ok.mp h
    refine ⟨(id?.getD fresh).text, ?_, ?_⟩
    · rw [← Except.ok.inj h, Json.field?, Json.lookup_setEntry]
    · cases id? with
      | none => exact hfresh
      | some id => exact Id.ne_empty_of_ofJson hid
  · cases h

theorem withId_of_empty (fresh : Id) {entries : List (String × Json)}
    (h : entries.lookup "element_id" = some (.string "")) :
    withId fresh (.object entries) = .error (.badIdentity .empty) := by
  rw [withId, h]
  rfl

end Core

/-- A paragraph has the identifier that it is given. -/
theorem Paragraph.id_of_decode {v : Json} {p : Paragraph} (h : decode v = .ok p) :
    v.field? "element_id" = some (.string p.core.id.text) := by
  obtain ⟨entries, hentries, h⟩ := bind_eq_ok.mp h
  obtain ⟨kind, _, h⟩ := bind_eq_ok.mp h
  obtain ⟨core, hcore, h⟩ := bind_eq_ok.mp h
  obtain ⟨text, _, h⟩ := bind_eq_ok.mp h
  rw [Core.field?_of_entriesBeside hentries, ← Except.ok.inj h]
  exact Core.id_of_ofEntries hcore

/-- A name has the identifier that it is given. -/
theorem Name.id_of_decode {v : Json} {n : Name} (h : decode v = .ok n) :
    v.field? "element_id" = some (.string n.core.id.text) := by
  obtain ⟨entries, hentries, h⟩ := bind_eq_ok.mp h
  obtain ⟨kind, _, h⟩ := bind_eq_ok.mp h
  obtain ⟨core, hcore, h⟩ := bind_eq_ok.mp h
  obtain ⟨name, _, h⟩ := bind_eq_ok.mp h
  obtain ⟨text, _, h⟩ := bind_eq_ok.mp h
  obtain ⟨date, _, h⟩ := bind_eq_ok.mp h
  rw [Core.field?_of_entriesBeside hentries, ← Except.ok.inj h]
  exact Core.id_of_ofEntries hcore

/-- What is read alone, and has the identifier that it is given, has one that is not empty. -/
theorem Core.id_of_reading {α : Type} {decode : Json.Decoder α} {idOf : α → Id}
    (hgiven : ∀ {v a}, decode v = .ok a → v.field? "element_id" = some (.string (idOf a).text))
    {fresh : Id} (hfresh : fresh.text ≠ "") {v : Json} {a : α}
    (h : (withId fresh v >>= fun v => (decode v).mapError Fault.mismatch) = .ok a) :
    (idOf a).text ≠ "" := by
  obtain ⟨v', hv', h⟩ := bind_eq_ok.mp h
  obtain ⟨s, hs, hne⟩ := field?_of_withId hfresh hv'
  rw [hgiven (mapError_eq_ok.mp h)] at hs
  cases hs
  exact hne

theorem Paragraph.id_of_ofJson {fresh : Id} {v : Json} {p : Paragraph} (hfresh : fresh.text ≠ "")
    (h : ofJson fresh v = .ok p) : p.core.id.text ≠ "" :=
  Core.id_of_reading id_of_decode hfresh h

theorem Name.id_of_ofJson {fresh : Id} {v : Json} {n : Name} (hfresh : fresh.text ≠ "")
    (h : ofJson fresh v = .ok n) : n.core.id.text ≠ "" :=
  Core.id_of_reading id_of_decode hfresh h

/-! ## Lists of elements -/

/-- Whether all elements in a list have identifiers that are not empty. -/
def Identified (ps : List Paragraph) : Prop := ∀ p ∈ ps, p.core.id.text ≠ ""

/-- Whether an empty identifier is given for one of the elements of a record. -/
def TellsEmptyId (s : Shape) (v : Json) : Prop :=
  ∃ items, s.given v "elements" = some (.array items) ∧
    ∃ item ∈ items, item.field? "element_id" = some (.string "")

/-- The elements of a record have no empty identifiers but those that are given. -/
theorem identified_iff {s : Shape} {v : Json} {entries : List (String × Json)}
    {ps : List Paragraph} (hentries : entriesOf s v = .ok entries)
    (h : field entries "elements" (list Paragraph.decode) = .ok ps) :
    Identified ps ↔ ¬TellsEmptyId s v := by
  obtain ⟨w, hw, hlist⟩ := field_eq_ok.mp h
  obtain ⟨items, rfl, hitems⟩ := list_eq_ok.mp hlist
  rw [← given_of_entriesOf hentries] at hw
  have hsome : TellsEmptyId s v ↔
      ∃ item ∈ items, item.field? "element_id" = some (.string "") := by
    simp [TellsEmptyId, hw]
  rw [hsome, Identified]
  clear hsome hw hlist h
  -- each element has the identifier of the item that it is decoded from
  induction hitems with
  | nil => simp
  | @cons item p items ps hitem _ ih =>
      have hid : item.field? "element_id" = some (.string "") ↔ p.core.id.text = "" := by
        rw [Paragraph.id_of_decode hitem]
        simp
      rw [List.forall_mem_cons, List.exists_mem_cons_iff, hid, not_or]
      exact and_congr_right fun _ => ih

theorem Body.identified_of_decode {v : Json} {b : Body} (h : decode v = .ok b) :
    Identified b.paragraphs ↔ ¬TellsEmptyId shape v := by
  obtain ⟨entries, hentries, h⟩ := bind_eq_ok.mp h
  obtain ⟨ps, hps, rfl⟩ := map_eq_ok.mp h
  exact identified_iff hentries hps

end Element

/-! ## Windows -/

/-- A decoded window has the bounds that it is given. -/
theorem Time.Window.bounds_of_decode {v : Json} {w : Window} (h : decode v = .ok w) :
    (w.createdAt.isSome = true ↔ shape.Tells v "created_at") ∧
      (w.modifiedAt.isSome = true ↔ shape.Tells v "modified_at") := by
  obtain ⟨entries, hentries, h⟩ := bind_eq_ok.mp h
  obtain ⟨createdAt, hcreated, h⟩ := bind_eq_ok.mp h
  obtain ⟨modifiedAt, hmodified, h⟩ := bind_eq_ok.mp h
  rw [← Except.ok.inj h]
  exact ⟨isSome_of_fieldD hentries hcreated, isSome_of_fieldD hentries hmodified⟩

/-- Whether a window has both bounds or neither. -/
def Time.Window.Paired (w : Window) : Prop := w.createdAt.isSome = w.modifiedAt.isSome

instance (w : Time.Window) : Decidable w.Paired := inferInstanceAs (Decidable (_ = _))

theorem Output.parts_of_decode {v : Json} {o : Output} (h : decode v = .ok o) :
    (Element.Identified o.elements ↔ ¬Element.TellsEmptyId shape v) ∧
      ∃ m, shape.given v "metadata" = some m ∧ Time.Window.decode m = .ok o.window := by
  obtain ⟨entries, hentries, h⟩ := bind_eq_ok.mp h
  obtain ⟨locator, _, h⟩ := bind_eq_ok.mp h
  obtain ⟨filename, _, h⟩ := bind_eq_ok.mp h
  obtain ⟨window, hwindow, h⟩ := bind_eq_ok.mp h
  obtain ⟨processedAt, _, h⟩ := bind_eq_ok.mp h
  obtain ⟨elements, helements, h⟩ := bind_eq_ok.mp h
  rw [← Except.ok.inj h]
  refine ⟨Element.identified_iff hentries helements, ?_⟩
  rw [given_of_entriesOf hentries]
  exact field_eq_ok.mp hwindow

namespace Element

/-- **What decoders let through.** Names and paragraphs that are read alone have identifiers that
are not empty, and an empty one is refused. In bodies and results the identifiers are not empty
unless an empty one is given; and a window has both bounds or neither exactly where both or neither
are given, and counts as empty exactly where no first one is. -/
theorem decoded_as_given (v : Json) :
    (∀ fresh : Id, fresh.text ≠ "" →
      (∀ n, Name.ofJson fresh v = .ok n → n.core.id.text ≠ "") ∧
      ∀ p, Paragraph.ofJson fresh v = .ok p → p.core.id.text ≠ "") ∧
    (∀ fresh entries, v = .object entries → entries.lookup "element_id" = some (.string "") →
      Name.ofJson fresh v = .error (.badIdentity .empty) ∧
      Paragraph.ofJson fresh v = .error (.badIdentity .empty)) ∧
    (∀ b, Body.decode v = .ok b → (Identified b.paragraphs ↔ ¬TellsEmptyId Body.shape v)) ∧
    (∀ o, Output.decode v = .ok o →
      (Identified o.elements ↔ ¬TellsEmptyId Output.shape v) ∧
      ∃ m, Output.shape.given v "metadata" = some m ∧ Time.Window.decode m = .ok o.window) ∧
    ∀ w, Time.Window.decode v = .ok w →
      (w.Paired ↔
        (Time.Window.shape.Tells v "created_at" ↔ Time.Window.shape.Tells v "modified_at")) ∧
      (w.isEmpty = true ↔ ¬Time.Window.shape.Tells v "created_at") := by
  refine ⟨?_, ?_, fun _ => Body.identified_of_decode, fun _ => Output.parts_of_decode, ?_⟩
  · intro fresh hfresh
    exact ⟨fun _ => Name.id_of_ofJson hfresh, fun _ => Paragraph.id_of_ofJson hfresh⟩
  · rintro fresh entries rfl hempty
    have hrefused := Core.withId_of_empty fresh hempty
    exact ⟨by rw [Name.ofJson, hrefused]; rfl, by rw [Paragraph.ofJson, hrefused]; rfl⟩
  · intro w hw
    obtain ⟨hcreated, hmodified⟩ := Time.Window.bounds_of_decode hw
    rw [Time.Window.Paired, Bool.eq_iff_iff, hcreated, hmodified, ← hcreated,
      Time.Window.isEmpty]
    exact ⟨Iff.rfl, by simp⟩

/-- An element whose identifier is empty. -/
def nameless : Json := .object [("element_id", .string ""), ("text", .string "x")]

/-- A window that has a last event and no first one. -/
def lastOnly : Json := .object [("modified_at", .string "1970-01-01T00:00:00Z")]

/-- A result with both. -/
def namelessOutput : Json :=
  .object [("elements", .array [nameless]), ("filename", .string "x.txt"), ("metadata", lastOnly),
    ("processed_at", .string "1970-01-01T00:00:00Z"), ("source_locator", .string "x")]

/-- The paragraph and the window that these are decoded to. -/
def namelessParagraph : Paragraph := ⟨.text, ⟨⟨""⟩, .unknown⟩, "x"⟩

def lastWindow : Time.Window := ⟨none, some .epoch⟩

theorem decode_namelessBody :
    Body.decode (.object [("elements", .array [nameless])]) = .ok ⟨[namelessParagraph]⟩ :=
  eq_ok_of_toOption (by decide +kernel)

theorem decode_lastOnly : Time.Window.decode lastOnly = .ok lastWindow :=
  eq_ok_of_toOption (by decide +kernel)

theorem decode_namelessOutput : Output.decode namelessOutput =
    .ok ⟨"x", "x.txt", lastWindow, .epoch, [namelessParagraph]⟩ :=
  eq_ok_of_toOption (by decide +kernel)

theorem not_identified_nameless : ¬Identified [namelessParagraph] :=
  fun h => h namelessParagraph List.mem_cons_self rfl

theorem decoded_as_given_nameless :
    (⟨"new"⟩ : Id).text ≠ "" ∧
      Paragraph.ofJson ⟨"new"⟩ (.object [("text", .string "x")]) =
        .ok ⟨.text, ⟨⟨"new"⟩, .unknown⟩, "x"⟩ ∧
      Paragraph.ofJson ⟨"new"⟩ nameless = .error (.badIdentity .empty) ∧
      TellsEmptyId Body.shape (.object [("elements", .array [nameless])]) ∧
      TellsEmptyId Output.shape namelessOutput ∧
      ¬(Time.Window.shape.Tells lastOnly "created_at" ↔
        Time.Window.shape.Tells lastOnly "modified_at") := by
  have hfresh : (⟨"new"⟩ : Id).text ≠ "" := by decide
  have hnew : Paragraph.ofJson ⟨"new"⟩ (.object [("text", .string "x")]) =
      .ok ⟨.text, ⟨⟨"new"⟩, .unknown⟩, "x"⟩ := eq_ok_of_toOption (by decide +kernel)
  obtain ⟨hread, -⟩ := decoded_as_given (.object [("text", .string "x")])
  obtain ⟨-, hrefused, -⟩ := decoded_as_given nameless
  obtain ⟨-, -, hbody, -⟩ := decoded_as_given (.object [("elements", .array [nameless])])
  obtain ⟨-, -, -, houtput, -⟩ := decoded_as_given namelessOutput
  obtain ⟨-, -, -, -, hwindow⟩ := decoded_as_given lastOnly
  refine ⟨(hread _ hfresh).2 _ hnew, hnew, (hrefused _ _ rfl rfl).2, ?_, ?_, ?_⟩
  · exact not_not.mp (mt (hbody _ decode_namelessBody).mpr not_identified_nameless)
  · exact not_not.mp (mt (houtput _ decode_namelessOutput).1.mpr not_identified_nameless)
  · exact mt (hwindow _ decode_lastOnly).1.mpr (by decide)

/-- In bodies, in results and in windows there can be what the constructors refuse. -/
theorem refused_values_decoded :
    (¬∀ v b, Body.decode v = .ok b → Identified b.paragraphs) ∧
    (¬∀ v o, Output.decode v = .ok o → Identified o.elements) ∧
    (¬∀ v o, Output.decode v = .ok o → o.window.Paired) ∧
    (¬∀ v w, Time.Window.decode v = .ok w → w.Paired) ∧
    ¬∀ v w, Time.Window.decode v = .ok w → (w.isEmpty = true ↔ w = .empty) := by
  refine ⟨fun h => ?_, fun h => ?_, fun h => ?_, fun h => ?_, fun h => ?_⟩
  · exact not_identified_nameless (h _ _ decode_namelessBody)
  · exact not_identified_nameless (h _ _ decode_namelessOutput)
  · exact absurd (h _ _ decode_namelessOutput) (by decide)
  · exact absurd (h _ _ decode_lastOnly) (by decide)
  · exact absurd ((h _ _ decode_lastOnly).mp rfl) (by decide)

end Element

end Intake
