import Intake.Element.Email

/-!
# Cleaning in place

An edit changes a value where it stands. One that fails ends there: what it has changed until then
stays changed. Sections are cleaned by edits, each of which changes nothing before all that can
fail is done; a body has its paragraphs cleaned one after the other, so that is done in a copy.
-/

namespace Intake.Element

/-- Work on a value where it stands, which may fail. -/
abbrev Edit (σ α : Type) := EStateM Fault σ α

namespace Edit

variable {σ τ : Type}

/-- Edits the members of a list one after the other, up to the first one that cannot be edited. -/
def each (edit : Edit σ Unit) : Edit (List σ) Unit
  | [] => .ok () []
  | a :: rest =>
    match edit a with
    | .ok () a =>
      match each edit rest with
      | .ok () rest => .ok () (a :: rest)
      | .error f rest => .error f (a :: rest)
    | .error f a => .error f (a :: rest)

/-- Edits what a value is made of. -/
def within (wrap : τ → σ) (edit : Edit τ Unit) (t : τ) : EStateM.Result Fault σ Unit :=
  match edit t with
  | .ok () t => .ok () (wrap t)
  | .error f t => .error f (wrap t)

end Edit

def Paragraph.apply (cleaners : List Cleaning.Cleaner) : Edit Paragraph Unit := do
  let p ← get
  let text ← MonadExcept.ofExcept (Cleaning.runOne cleaners ⟨"text", p.text⟩)
  modify fun p => { p with text := text }

/-- Cleans text and name where they stand, both or neither. -/
def Name.apply (cleaners : List Cleaning.Cleaner) : Edit Name Unit := do
  let n ← get
  let fields ← MonadExcept.ofExcept
    (Cleaning.run cleaners [⟨"text", n.text⟩, ⟨"name", n.name⟩])
  match fields with
  | [text, name] =>
    modify fun n => { n with text := text.value }
    modify fun n => { n with name := name.value }
  | _ => pure ()

def Body.apply (cleaners : List Cleaning.Cleaner) : Edit Body Unit := do
  let b ← get
  -- the loop works on a copy, which is given up where a paragraph fails
  match (Edit.each (Paragraph.apply cleaners)).run b.paragraphs with
  | .ok () cleaned => set (Body.mk cleaned)
  | .error f _ => throw f

def Section.apply (cleaners : List Cleaning.Cleaner) : Edit Section Unit
  | .name n => Edit.within .name (Name.apply cleaners) n
  | .text p => Edit.within .text (Paragraph.apply cleaners) p
  | .body b => Edit.within .body (Body.apply cleaners) b

end Intake.Element
