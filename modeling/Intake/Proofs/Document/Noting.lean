import Intake.Proofs.Run.Effects

/-!
# Sources that note what they are asked

A source that makes a note of each question and its answer is like the source itself otherwise. So
what becomes of a document does not depend on whether its source makes notes, and the notes tell
what was asked.
-/

namespace Intake

open Files

/-- A question to a source, with its answer. -/
inductive Asked where
  | probe (answer : Except Fault Probe)
  | download (answer : Except Fault Download)

variable {σ β : Type} (note : Source σ → Asked → β)

/-- The source that notes what it is asked, the latest note last. -/
def Source.noting (s : Source σ) : Source (σ × List β) where
  locator := s.locator
  extension := s.extension
  probe := fun (remote, notes) =>
    ((s.probe remote).1, (s.probe remote).2, notes ++ [note s (.probe (s.probe remote).1)])
  download := fun (remote, notes) =>
    ((s.download remote).1, (s.download remote).2,
      notes ++ [note s (.download (s.download remote).1)])

namespace Document

/-- The document whose source notes what it is asked. -/
def noting (d : Document σ) : Document (σ × List β) :=
  ⟨d.source.noting note, d.settings, d.presence, d.window⟩

variable (d : Document σ)

theorem learn_noting (answer : Except Fault Probe) :
    (d.noting note).learn answer = ((d.learn answer).1, (d.learn answer).2.noting note) := by
  have hsource := (d.akin_learn answer).source
  rw [noting, noting, hsource]
  exact d.learn_asking (s := d.source.noting note) rfl answer

theorem receive_noting (fs : FileSystem) (answer : Except Fault Download) :
    (d.noting note).receive fs answer =
      ((d.receive fs answer).1, (d.receive fs answer).2.1.noting note,
        (d.receive fs answer).2.2) := by
  have hsource := (d.akin_receive fs answer).source
  rw [noting, noting, hsource]
  exact d.receive_asking (s := d.source.noting note) rfl rfl fs answer

end Document

end Intake
