import Intake.Proofs.Dump.Pieces
import Intake.Proofs.Element.Processing

/-!
# Elements of message dumps

What a staged file is by its name decides how it is read. A file that is taken for a dump is made
into elements exactly if it has a root that is read as a dump, and then from the texts of its
messages alone. The name of the root is not looked at, so that a document of another kind may be
taken for a dump, one without messages for an empty one.
-/

namespace Intake.Processing

open Dump Element Files

/-- The elements of a dump are the texts of its messages. -/
theorem elementsOf_dump {content : String} {origin : Origin} {raw : List Paragraph} :
    elementsOf content true origin = .ok raw ↔ ∃ root texts, HasRoot content root ∧
      root.IsDump texts ∧ raw = texts.map (Partition.unplaced .narrativeText origin) := by
  have hread : elementsOf content true origin = .ok raw ↔ ∃ texts, Dump.read content = .ok texts ∧
      raw = texts.map (Partition.unplaced .narrativeText origin) := by
    rw [elementsOf, if_pos rfl]
    cases Dump.read content <;> simp [eq_comm]
  rw [hread]
  constructor
  · rintro ⟨texts, htexts, rfl⟩
    obtain ⟨root, hroot, hdump⟩ := read_eq_ok.mp htexts
    exact ⟨root, texts, hroot, hdump, rfl⟩
  · rintro ⟨root, texts, hroot, hdump, rfl⟩
    exact ⟨texts, read_eq_ok.mpr ⟨root, hroot, hdump⟩, rfl⟩

/-- **Dumps tell their messages.** A document is read exactly if its root is a dump, and then as one
text for each message among the children of the root, in their order. It makes no difference what
the name of the root is. So a staged file that is a dump by its name is made into elements exactly
if it has such a root and the texts of the messages can be cleaned; the elements are made of these
texts, and nothing else that the file holds leaves a trace. -/
theorem dumps_tell_messages (s : String) (texts : List String) :
    (Dump.read s = .ok texts ↔ ∃ root, HasRoot s root ∧ root.IsDump texts) ∧
    (∀ s' name name' attributes children, HasRoot s (.element name attributes children) →
      HasRoot s' (.element name' attributes children) →
      (Dump.read s = .ok texts ↔ Dump.read s' = .ok texts)) ∧
    ∀ cleaners fs p locator ps, isDump p = true →
      (process cleaners fs p locator = .ok ps ↔
        ∃ bytes content root texts kept, fs.read p = .ok bytes ∧
          String.fromUTF8? bytes = some content ∧ HasRoot content root ∧ root.IsDump texts ∧
          cleanAll cleaners (texts.map (Partition.unplaced .narrativeText (originOf p locator))) =
            .ok kept ∧ ps = number kept) := by
  refine ⟨read_eq_ok, ?_, ?_⟩
  · intro s' name name' attributes children hs hs'
    have hread : ∀ {s name}, HasRoot s (.element name attributes children) →
        (Dump.read s = .ok texts ↔ wellFormed attributes = true ∧ Dumped children texts) := by
      intro s name hs
      rw [read_eq_ok]
      constructor
      · rintro ⟨root, hroot, hdump⟩
        rw [hroot.unique hs] at hdump
        exact hdump
      · exact fun h => ⟨_, hs, h⟩
    rw [hread hs, hread hs']
  · intro cleaners fs p locator ps hdump
    rw [process_eq_ok, hdump]
    constructor
    · rintro ⟨bytes, content, raw, kept, hread, hcontent, hraw, hkept, rfl⟩
      obtain ⟨root, texts, hroot, htexts, rfl⟩ := elementsOf_dump.mp hraw
      exact ⟨bytes, content, root, texts, kept, hread, hcontent, hroot, htexts, hkept, rfl⟩
    · rintro ⟨bytes, content, root, texts, kept, hread, hcontent, hroot, htexts, hkept, rfl⟩
      exact ⟨bytes, content, _, kept, hread, hcontent,
        elementsOf_dump.mpr ⟨root, texts, hroot, htexts, rfl⟩, hkept, rfl⟩

/-- A document of another kind, with a text in it. -/
def note : String := "<note><body>secret</body></note>"

/-- Where it is staged. -/
def noteFiles : FileSystem := ⟨.dir [("note.xml", .file note.toUTF8)], []⟩

/-- What is inside its root. -/
def noteBody : List Piece := [.element "body".toList [] [.text (some "secret".toList)]]

theorem hasRoot_note : HasRoot note (.element "note".toList [] noteBody) := ⟨[], by rfl⟩

theorem hasRoot_messages :
    HasRoot "<messages><body>secret</body></messages>" (.element "messages".toList [] noteBody) :=
  ⟨[], by rfl⟩

theorem read_note : Dump.read note = .ok [] :=
  read_of_no_message hasRoot_note rfl
    (List.forall_mem_singleton.mpr (Piece.isAside_element.mpr (by decide)))

theorem process_note : process defaultCleaners noteFiles ⟨"note.xml"⟩ "note" = .ok [] :=
  eq_ok_of_toOption (by decide +kernel)

theorem dumps_tell_messages_note :
    Dump.read "<messages><body>secret</body></messages>" = .ok [] ∧
      isDump ⟨"note.xml"⟩ = true ∧
      ∃ bytes content root texts, noteFiles.read ⟨"note.xml"⟩ = .ok bytes ∧
        String.fromUTF8? bytes = some content ∧ HasRoot content root ∧ root.IsDump texts := by
  obtain ⟨-, hrename, hprocess⟩ := dumps_tell_messages note []
  have hdump : isDump ⟨"note.xml"⟩ = true := by decide +kernel
  obtain ⟨bytes, content, root, texts, _, hbytes, hcontent, hroot, htexts, _⟩ :=
    (hprocess _ _ _ _ _ hdump).mp process_note
  exact ⟨(hrename _ _ _ _ _ hasRoot_note hasRoot_messages).mp read_note, hdump, bytes, content,
    root, texts, hbytes, hcontent, hroot, htexts⟩

/-- A root with any name is read, and its text is lost without an error. -/
theorem other_root_read :
    (¬∀ s texts, Dump.read s = .ok texts →
      ∃ attributes children, HasRoot s (.element "messages".toList attributes children)) ∧
    noteFiles.read ⟨"note.xml"⟩ = .ok note.toUTF8 ∧
    process defaultCleaners noteFiles ⟨"note.xml"⟩ "note" = .ok [] := by
  refine ⟨fun h => ?_, eq_ok_of_toOption (by decide +kernel), process_note⟩
  obtain ⟨attributes, children, hroot⟩ := h note [] read_note
  have hsame := hroot.unique hasRoot_note
  injection hsame with hname
  exact absurd hname (by decide)

end Intake.Processing
