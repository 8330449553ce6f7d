import Intake.Proofs.Partition.Lines

/-!
# Bodies that are cut into paragraphs again

A body is shown with an empty line between its paragraphs. When it is cut at its empty lines, these
are the places to cut at: the paragraphs before and after bring no blanks along that would make the
line end between them another one, and within a paragraph there is no empty line.
-/

namespace Intake.Partition

open Element Text

/-- A text that is one paragraph: it has neither outer blanks, nor a line end of two characters,
nor a line within it that has only spaces and tabs. -/
structure Whole (text : List Char) : Prop where
  ne_nil : text ≠ []
  first : ∀ c ∈ text.head?, isBlank c = false
  last : ∀ c ∈ text.getLast?, isBlank c = false
  plain : ¬ ['\r', '\n'] <:+: text
  closed : ∀ blanks : List Char, (∀ c ∈ blanks, c = ' ' ∨ c = '\t') →
    ¬ '\n' :: (blanks ++ ['\n']) <:+: text

namespace Whole

variable {text : List Char} (h : Whole text)

include h

theorem kept_self : kept [text] = [text] := by
  rw [kept, List.map_singleton, trimChars_eq_self h.first h.last]
  simp [h.ne_nil]

/-- The text does not begin with blanks. -/
theorem eq_nil_of_front (front back : List Char) (heq : text = front ++ back)
    (hfront : ∀ c ∈ front, isBlank c = true) : front = [] := by
  cases front with
  | nil => rfl
  | cons c front =>
      have hc := h.first c (by rw [heq]; rfl)
      rw [hfront c List.mem_cons_self] at hc
      cases hc

/-- The text does not end with blanks. -/
theorem eq_nil_of_back (front back : List Char) (heq : text = front ++ back)
    (hback : ∀ c ∈ back, isBlank c = true) : back = [] := by
  cases back using List.reverseRecOn with
  | nil => rfl
  | append_singleton back c =>
      have hc := h.last c (by rw [heq, ← List.append_assoc, List.getLast?_concat]; rfl)
      rw [hback c (by simp)] at hc
      cases hc

/-- None of its lines is empty: the first and the last one have a character that is no blank, and
any other one stands between two line feeds. -/
theorem isEmptyLine_eq_false {line : List Char} (hline : line ∈ splitAt '\n' text) :
    isEmptyLine line = false := by
  rw [← Bool.not_eq_true]
  intro hempty
  have hfeed : isBlank '\n' = true := by decide
  have hblank := isBlank_of_isEmptyLine hempty
  obtain ⟨front, back, heq, rfl | ⟨before, rfl⟩, rfl | ⟨after, rfl⟩⟩ :=
    exists_of_mem_splitAt hline
  · rw [List.nil_append, List.append_nil] at heq
    exact h.ne_nil (h.eq_nil_of_front text [] (List.append_nil text).symm (heq ▸ hblank))
  · have hfront : line ++ ['\n'] = [] :=
      h.eq_nil_of_front _ after (by simpa using heq)
        (List.forall_mem_append.mpr ⟨hblank, List.forall_mem_singleton.mpr hfeed⟩)
    exact List.append_ne_nil_of_right_ne_nil _ (List.cons_ne_nil _ _) hfront
  · have hback : '\n' :: line = [] :=
      h.eq_nil_of_back before _ (by simpa using heq) (List.forall_mem_cons.mpr ⟨hfeed, hblank⟩)
    exact List.cons_ne_nil _ _ hback
  · refine h.closed line (fun c hc => ?_) ⟨before, after, by simp [heq]⟩
    simpa [isLineBlank] using List.all_eq_true.mp hempty c hc

end Whole

/-- Spaces and tabs between two line feeds are a line. -/
theorem mem_splitAt_of_between {text line : List Char} (hline : '\n' ∉ line)
    (h : '\n' :: (line ++ ['\n']) <:+: text) : line ∈ splitAt '\n' text := by
  obtain ⟨front, back, rfl⟩ := h
  have hsplit : front ++ '\n' :: (line ++ ['\n']) ++ back =
      front ++ '\n' :: (line ++ '\n' :: back) := by simp
  rw [hsplit, splitAt_append, splitAt_append, splitAt_of_notMem hline]
  simp

/-- Whether a text is one paragraph can be seen from its ends and line by line. -/
theorem whole_iff {text : List Char} :
    Whole text ↔ text ≠ [] ∧ text.head?.any isBlank = false ∧ text.getLast?.any isBlank = false ∧
      lineFeeds text = text ∧ ∀ line ∈ splitAt '\n' text, isEmptyLine line = false := by
  rw [Option.any_eq_false, Option.any_eq_false, lineFeeds_eq_self]
  constructor
  · intro h
    exact ⟨h.ne_nil, h.first, h.last, h.plain, fun _ => h.isEmptyLine_eq_false⟩
  · rintro ⟨hne, hfirst, hlast, hplain, hlines⟩
    refine ⟨hne, hfirst, hlast, hplain, fun blanks hblanks hwithin => ?_⟩
    have hfeed : '\n' ∉ blanks := fun hmem => by
      rcases hblanks _ hmem with heq | heq <;> cases heq
    have hempty : isEmptyLine blanks = true :=
      List.all_eq_true.mpr fun c hc => by rcases hblanks c hc with rfl | rfl <;> rfl
    rw [hlines blanks (mem_splitAt_of_between hfeed hwithin)] at hempty
    cases hempty

instance (text : List Char) : Decidable (Whole text) := decidable_of_iff' _ whole_iff

/-! ## Line ends -/

/-- Line ends are made alike before and after a place that is not within one. -/
theorem lineFeeds_append {front : List Char} (h : '\r' ∉ front.getLast?) (back : List Char) :
    lineFeeds (front ++ back) = lineFeeds front ++ lineFeeds back := by
  fun_induction lineFeeds front with
  | case1 => rfl
  | case2 rest ih =>
      have hrest : '\r' ∉ rest.getLast? := by
        cases rest with
        | nil => simp
        | cons c rest => simpa using h
      rw [List.cons_append, List.cons_append, lineFeeds, ih hrest, List.cons_append]
  | case3 c rest hpair ih =>
      cases rest with
      | nil =>
          have hc : c ≠ '\r' := by simpa [eq_comm] using h
          rw [List.singleton_append, lineFeeds_cons_of_ne hc]
          rfl
      | cons d rest =>
          rw [List.cons_append, lineFeeds, ih (by simpa using h), List.cons_append]
          intro rest' hc heq
          cases heq
          exact hpair rest hc rfl

/-! ## Bodies -/

/-- Texts with an empty line between them, line by line. -/
theorem paragraphsOf_spread {texts : List (List Char)} (h : ∀ text ∈ texts, Whole text) :
    paragraphsOf (splitAt '\n' (lineFeeds (['\n', '\n'].intercalate texts))) = texts := by
  induction texts with
  | nil => rfl
  | cons text rest ih =>
      obtain ⟨htext, hrest⟩ := List.forall_mem_cons.mp h
      have hlines : ∀ line ∈ splitAt '\n' text, isEmptyLine line = false :=
        fun _ hline => htext.isEmptyLine_eq_false hline
      have hjoined : joined (splitAt '\n' text) = text := intercalate_splitAt '\n' text
      cases rest with
      | nil =>
          rw [List.intercalate_singleton, lineFeeds_eq_self.mpr htext.plain,
            paragraphsOf_last hlines, hjoined, htext.kept_self]
      | cons next rest =>
          have hreturn : '\r' ∉ text.getLast? := fun hc => by
            have hlast := htext.last _ hc
            revert hlast
            decide
          have hfeeds (cs : List Char) :
              lineFeeds ('\n' :: '\n' :: cs) = '\n' :: '\n' :: lineFeeds cs := by
            rw [lineFeeds_cons_of_ne (by decide), lineFeeds_cons_of_ne (by decide)]
          have hgap (cs : List Char) : splitAt '\n' ('\n' :: cs) = [] :: splitAt '\n' cs :=
            splitAt_append '\n' [] cs
          rw [List.intercalate_cons_cons, List.append_assoc, lineFeeds_append hreturn,
            lineFeeds_eq_self.mpr htext.plain, List.cons_append, List.singleton_append, hfeeds,
            splitAt_append, hgap, paragraphsOf_block hlines rfl, ih hrest, hjoined, htext.kept_self,
            List.singleton_append]

/-- **Bodies are cut at their seams.** A body whose paragraphs are whole texts is shown as a text
that is cut into the same paragraphs: as many of them, in the same order, with all repetitions. -/
theorem partition_display {b : Body} (h : ∀ p ∈ b.paragraphs, Whole p.text.toList)
    (origin : Origin) :
    (partition b.display origin).map (·.text) = b.paragraphs.map (·.text) := by
  have htexts : ∀ text ∈ b.paragraphs.map (·.text.toList), Whole text := by
    intro text htext
    obtain ⟨p, hp, rfl⟩ := List.mem_map.mp htext
    exact h p hp
  have hdisplay : b.display.toList =
      ['\n', '\n'].intercalate (b.paragraphs.map (·.text.toList)) := by
    rw [Body.display, String.toList_intercalate, List.map_map]
    rfl
  rw [texts_partition, paragraphs_eq, linesOf, hdisplay, paragraphsOf_spread htexts, List.map_map]
  simp [Function.comp_def]

/-- A paragraph twice, after one with a line of a no-break space and with carriage returns. -/
def memo : Body :=
  ⟨["a\n\u00A0\n\r b\rc", "x", "x"].map (unplaced .narrativeText .unknown)⟩

theorem partition_display_memo :
    (∀ p ∈ memo.paragraphs, Whole p.text.toList) ∧
      (partition memo.display .unknown).map (·.text) = ["a\n\u00A0\n\r b\rc", "x", "x"] := by
  have hwhole : ∀ p ∈ memo.paragraphs, Whole p.text.toList := by decide +kernel
  exact ⟨hwhole, partition_display hwhole .unknown⟩

end Intake.Partition
