import Intake.Proofs.Element.Identifiers
import Intake.Proofs.Element.Processing

/-!
# Positions of the elements of a staged file

The elements that are left of a staged file are numbered after the cleaning, so their positions
have no gaps where elements were dropped. None of them has a page; hence all of them are hashed
differently, and two of them have one identifier only where fingerprints collide.
-/

namespace Intake

open Element Files

namespace Processing

variable {cleaners : List Cleaning.Cleaner} {fs : FileSystem} {p : Path} {locator : String}
  {ps : List Paragraph}

/-- Where elements come from: those of the content of a staged file, with their texts cleaned, in
their order, without those that have no text left. -/
def LeftOf (cleaners : List Cleaning.Cleaner) (fs : FileSystem) (p : Path) (locator : String)
    (ps : List Paragraph) : Prop :=
  ∃ bytes content raw cleaned, fs.read p = .ok bytes ∧ String.fromUTF8? bytes = some content ∧
    elementsOf content (isDump p) (originOf p locator) = .ok raw ∧
    List.Forall₂ (fun q r => Paragraph.clean cleaners q = .ok r) raw cleaned ∧
    ps.map (fun q => (q.kind, q.text)) =
      (cleaned.filter (!·.text.isEmpty)).map fun q => (q.kind, q.text)

/-- Elements that stand at their positions: each of them has a text, the identifier of its text at
its place in the list, and the same origin. -/
structure InPlace (origin : Origin) (ps : List Paragraph) : Prop where
  text : ∀ q ∈ ps, q.text ≠ ""
  core : ∀ (i : Nat) (q : Paragraph), ps[i]? = some q → q.core = ⟨.fingerprint q.text none i, origin⟩

theorem getElem?_number (ps : List Paragraph) (i : Nat) :
    (number ps)[i]? = ps[i]?.map (·.identify i) := by
  rw [number, numberFrom_eq, List.getElem?_map, List.getElem?_zipIdx, Option.map_map, Nat.zero_add]
  rfl

/-- Numbering changes identifiers only. -/
theorem map_number {β : Type} (f : Paragraph → β) (hf : ∀ q i, f (q.identify i) = f q)
    (ps : List Paragraph) : (number ps).map f = ps.map f := by
  apply List.ext_getElem?
  intro i
  rw [List.getElem?_map, List.getElem?_map, getElem?_number, Option.map_map]
  exact Option.map_congr fun q _ => hf q i

/-- Numbering puts elements in place that have texts and one origin without a page. -/
theorem inPlace_number {origin : Origin} (hpage : origin.page = none) (hfrom : From origin ps)
    (htext : ∀ q ∈ ps, q.text ≠ "") : InPlace origin (number ps) := by
  have hmem : ∀ q ∈ number ps, ∃ (i : Nat) (r : Paragraph), ps[i]? = some r ∧ q = r.identify i := by
    intro q hq
    obtain ⟨i, hi⟩ := List.mem_iff_getElem?.mp hq
    rw [getElem?_number] at hi
    obtain ⟨r, hr, rfl⟩ := Option.map_eq_some_iff.mp hi
    exact ⟨i, r, hr, rfl⟩
  constructor
  · intro q hq
    obtain ⟨i, r, hr, rfl⟩ := hmem q hq
    exact htext r (List.mem_of_getElem? hr)
  · intro i q hq
    rw [getElem?_number] at hq
    obtain ⟨r, hr, rfl⟩ := Option.map_eq_some_iff.mp hq
    have horigin := hfrom r (List.mem_of_getElem? hr)
    rw [Paragraph.identify, Core.identify, horigin, hpage]

/-- **Identifiers of a processed file.** Whatever the file holds and its cleaners do, the elements
that are made of it are those that have a text left, in their order, and they stand at positions
without gaps: each has the identifier of its cleaned text, without a page, at its place in the
list, and the origin of the file. Any two of them are hashed differently, so two of them have one
identifier only where fingerprints collide. -/
theorem elements_in_place (h : process cleaners fs p locator = .ok ps) :
    LeftOf cleaners fs p locator ps ∧ InPlace ⟨none, p.fileName?, some locator⟩ ps ∧
      ∀ (i j : Nat) (q r : Paragraph), i ≠ j → ps[i]? = some q → ps[j]? = some r →
        Id.hashed q.text none i ≠ Id.hashed r.text none j ∧
          (q.core.id = r.core.id → Digest.Collision (Id.message (Id.hashed q.text none i))
            (Id.message (Id.hashed r.text none j))) := by
  obtain ⟨bytes, content, raw, kept, hread, hcontent, hraw, hkept, rfl⟩ := process_eq_ok.mp h
  obtain ⟨cleaned, hclean, hleft⟩ := cleanAll_eq_ok.mp hkept
  have htext : ∀ q ∈ kept, q.text ≠ "" := by
    intro q hq
    rw [hleft] at hq
    simpa using (List.mem_filter.mp hq).2
  have hplace : InPlace (originOf p locator) (number kept) :=
    inPlace_number rfl ((from_elementsOf hraw).cleanAll hkept) htext
  refine ⟨⟨bytes, content, raw, cleaned, hread, hcontent, hraw, hclean, ?_⟩, hplace, ?_⟩
  · rw [map_number _ fun _ _ => rfl, hleft]
  · intro i j q r hij hq hr
    have hne : Id.hashed q.text none i ≠ Id.hashed r.text none j := Id.hashed_none_ne hij
    refine ⟨hne, fun hid => Id.collision_of_ofHashed_eq hne ?_⟩
    rw [hplace.core i q hq, hplace.core j r hr] at hid
    exact hid

/-- A file with two paragraphs that are alike, and a dash between them. -/
def dashed : FileSystem := ⟨.dir [("n.txt", .file "None1\n\n-\n\nNone1".toUTF8)], []⟩

theorem elements_in_place_dashed :
    ∃ ps, process [Cleaning.ofFunction Cleaning.dashes] dashed ⟨"n.txt"⟩ "n" = .ok ps ∧
      ps.map (·.text) = ["None1", "None1"] ∧ InPlace ⟨none, some "n.txt", some "n"⟩ ps := by
  have htexts : (process [Cleaning.ofFunction Cleaning.dashes] dashed ⟨"n.txt"⟩ "n").toOption.map
      (List.map (·.text)) = some ["None1", "None1"] := by decide +kernel
  cases h : process [Cleaning.ofFunction Cleaning.dashes] dashed ⟨"n.txt"⟩ "n" with
  | error f =>
      rw [h] at htexts
      cases htexts
  | ok ps =>
      rw [h] at htexts
      have hname : Path.fileName? ⟨"n.txt"⟩ = some "n.txt" := by decide +kernel
      exact ⟨ps, rfl, Option.some.inj htexts, hname ▸ (elements_in_place h).2.1⟩

end Processing

end Intake
