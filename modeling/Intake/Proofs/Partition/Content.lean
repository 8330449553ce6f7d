import Intake.Proofs.Element.Placement
import Intake.Proofs.Partition.Lines

/-!
# Plain text is kept

Between a plain text and its elements only blanks are lost. The line ends that are made alike, the
empty lines at which the text is cut, the outer blanks of paragraphs and the folded blanks within
them are all blanks, although each step has its own class of them. A paragraph has a character that
is no blank, so it is never cleaned away.
-/

namespace Intake

open Element Text

namespace Partition

/-! ## Paragraphs -/

theorem solid_lineFeeds (cs : List Char) : solid (lineFeeds cs) = solid cs := by
  fun_induction lineFeeds cs with
  | case1 => rfl
  | case2 rest ih =>
      have hreturn : isBlank '\r' = true := by decide
      have hfeed : isBlank '\n' = true := by decide
      rw [solid_cons_of_blank hfeed, solid_cons_of_blank hreturn, solid_cons_of_blank hfeed, ih]
  | case3 c rest _ ih =>
      rw [← List.singleton_append, solid_append, ih, ← solid_append, List.singleton_append]

/-- An empty line has only blanks, its line feed included. -/
theorem solid_afterEmptyLine {cs rest : List Char} (h : afterEmptyLine cs = some rest) :
    solid rest = solid cs := by
  have hdrop : solid (cs.dropWhile isLineBlank) = solid cs :=
    solid_dropWhile (fun _ hc => isBlank_of_isLineBlank hc) cs
  rw [afterEmptyLine] at h
  split at h
  · next found heq =>
      cases h
      rw [heq, solid_cons_of_blank (by decide)] at hdrop
      exact hdrop
  · cases h

/-- Of what the scan has begun and what it has before it, the pieces have all but blanks. -/
theorem flatMap_solid_pieces (piece cs : List Char) :
    (pieces piece cs).flatMap solid = solid (piece.reverse ++ cs) := by
  fun_induction pieces piece cs with
  | case1 piece => simp
  | case2 piece rest rest' h ih =>
      rw [List.flatMap_cons, ih, List.reverse_nil, List.nil_append, solid_append,
        solid_cons_of_blank (by decide), solid_afterEmptyLine h]
  | case3 piece rest _ ih => rw [ih, List.reverse_cons, List.append_assoc, List.singleton_append]
  | case4 piece c rest _ ih => rw [ih, List.reverse_cons, List.append_assoc, List.singleton_append]

/-- Outer blanks and texts that have nothing else are all that is not kept. -/
theorem flatMap_solid_kept (texts : List (List Char)) :
    (kept texts).flatMap solid = texts.flatMap solid := by
  induction texts with
  | nil => rfl
  | cons text rest ih =>
      rw [kept_cons, List.flatMap_append, ih, List.flatMap_cons]
      congr 1
      rw [kept, List.map_singleton]
      cases hempty : (trimChars text).isEmpty with
      | true =>
          rw [← solid_trimChars text, List.isEmpty_iff.mp hempty]
          rfl
      | false => simp [hempty]

theorem paragraphs_eq_kept (text : String) :
    paragraphs text = kept (pieces [] (lineFeeds text.toList)) := rfl

/-- The paragraphs of a text have all of its characters but blanks, in their order. -/
theorem flatMap_solid_paragraphs (text : String) :
    (paragraphs text).flatMap solid = solid text.toList := by
  rw [paragraphs_eq_kept, flatMap_solid_kept, flatMap_solid_pieces, List.reverse_nil,
    List.nil_append, solid_lineFeeds]

/-- No paragraph has only blanks. -/
theorem solid_ne_nil {text : String} {p : List Char} (h : p ∈ paragraphs text) : solid p ≠ [] := by
  rw [paragraphs_eq_kept, kept, List.mem_filter, List.mem_map] at h
  obtain ⟨⟨piece, _, rfl⟩, hne⟩ := h
  rw [solid_trimChars, ne_eq, solid_eq_nil, ← trimChars_eq_nil]
  simpa using hne

/-- No element of a text has only blanks. -/
theorem solid_text_ne_nil {text : String} {origin : Origin} {q : Paragraph}
    (h : q ∈ partition text origin) : solid q.text.toList ≠ [] := by
  have htext : q.text ∈ (partition text origin).map (·.text) := List.mem_map_of_mem h
  rw [texts_partition] at htext
  obtain ⟨p, hp, heq⟩ := List.mem_map.mp htext
  rw [← heq, String.toList_ofList]
  exact solid_ne_nil hp

end Partition

namespace Processing

open Intake.Partition

/-- An element with its blanks folded. -/
def folded (p : Paragraph) : Paragraph := { p with text := Cleaning.extraWhitespace p.text }

/-- The default cleaning keeps every element that has anything but blanks. -/
theorem cleanAll_solid {ps : List Paragraph} (h : ∀ p ∈ ps, solid p.text.toList ≠ []) :
    cleanAll defaultCleaners ps = .ok (ps.map folded) := by
  rw [cleanAll_default, List.filter_eq_self.mpr]
  · rfl
  · intro q hq
    obtain ⟨p, hp, rfl⟩ := List.mem_map.mp hq
    rw [Cleaning.isEmpty_extraWhitespace, isBlankText, Bool.not_eq_true', ← Bool.not_eq_true,
      List.all_eq_true, ← solid_eq_nil]
    exact h p hp

variable {fs : Files.FileSystem} {p : Files.Path} {locator : String} {bytes : ByteArray}
  {content : String}

/-- A plain text is made into its paragraphs with their blanks folded, all of them. -/
theorem process_plain (hread : fs.read p = .ok bytes)
    (hcontent : String.fromUTF8? bytes = some content) (hplain : isDump p = false) :
    process defaultCleaners fs p locator =
      .ok (number ((partition content (originOf p locator)).map folded)) := by
  have helements : elementsOf content (isDump p) (originOf p locator) =
      .ok (partition content (originOf p locator)) := by
    rw [elementsOf, hplain]
    rfl
  exact process_eq_ok.mpr ⟨bytes, content, _, _, hread, hcontent, helements,
    cleanAll_solid fun _ hq => solid_text_ne_nil hq, rfl⟩

/-- **Plain text is kept.** A staged file that is text, and by its name no message dump, is always
made into elements. Their texts have, one after the other, exactly the characters of the file that
are no blanks, in their order; and there are as many elements as the text has paragraphs, so that
the cleaning drops none of them. -/
theorem plain_text_kept (hread : fs.read p = .ok bytes)
    (hcontent : String.fromUTF8? bytes = some content) (hplain : isDump p = false) :
    ∃ ps, process defaultCleaners fs p locator = .ok ps ∧
      ps.flatMap (fun q => solid q.text.toList) = solid content.toList ∧
      ps.length = (partition content (originOf p locator)).length := by
  have htexts (qs : List Paragraph) :
      qs.flatMap (fun q => solid q.text.toList) = (qs.map (·.text)).flatMap (solid ·.toList) := by
    rw [List.flatMap_map]
  refine ⟨_, process_plain hread hcontent hplain, ?_, ?_⟩
  · -- neither numbering nor folding changes what the texts have besides blanks
    rw [htexts, map_number _ fun _ _ => rfl, ← htexts, List.flatMap_map]
    simp only [folded, Cleaning.solid_extraWhitespace]
    rw [htexts, texts_partition, List.flatMap_map]
    simp only [String.toList_ofList]
    exact flatMap_solid_paragraphs content
  · rw [number, numberFrom_eq, List.length_map, List.length_zipIdx, List.length_map]

/-- A text with line ends of both kinds, and with blanks of all kinds between its characters. -/
def offerText : String := "\u2003Item\u00A0\t1\r\n \t\r\n\n a\u0085b \nc\u2003"

def offer : Files.FileSystem := ⟨.dir [("offer.txt", .file offerText.toUTF8)], []⟩

theorem plain_text_kept_offer :
    offer.read ⟨"offer.txt"⟩ = .ok offerText.toUTF8 ∧ isDump ⟨"offer.txt"⟩ = false ∧
      ∃ ps, process defaultCleaners offer ⟨"offer.txt"⟩ "offer" = .ok ps ∧
        ps.flatMap (fun q => solid q.text.toList) = "Item1abc".toList ∧ ps.length = 2 := by
  have hread : offer.read ⟨"offer.txt"⟩ = .ok offerText.toUTF8 := rfl
  have hplain : isDump ⟨"offer.txt"⟩ = false := by decide +kernel
  obtain ⟨ps, hprocess, hsolid, hlength⟩ :=
    @plain_text_kept offer ⟨"offer.txt"⟩ "offer" _ _ hread (fromUTF8?_toUTF8 _) hplain
  exact ⟨hread, hplain, ps, hprocess, hsolid.trans (by decide +kernel),
    hlength.trans (by decide +kernel)⟩

end Processing

end Intake
