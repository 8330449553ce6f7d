import Intake.Partition
import Intake.Proofs.Element.Narration
import Intake.Proofs.Text.Ends
import Intake.Proofs.Text.Split
import Mathlib.Tactic.SplitIfs

/-!
# Paragraphs are blocks of lines

The scan for paragraphs goes through a text character by character and cuts it where it finds an
empty line behind a line feed; the line feeds before and after that line are gone with it. The same
paragraphs are found line by line: lines that follow each other without an empty one between them
make a block, and a paragraph is what is left of a block without its outer blanks. Empty lines that
the scan does not cut at are at the ends of pieces, where they are blanks.
-/

namespace Intake.Partition

open Element Text

/-! ## Blocks of lines -/

/-- An empty line has nothing but spaces and tabs. -/
def isEmptyLine (line : List Char) : Bool := line.all isLineBlank

/-- The longest stretches of lines without an empty one. -/
def blocks (lines : List (List Char)) : List (List (List Char)) :=
  (lines.splitOnP isEmptyLine).filter fun block => !block.isEmpty

/-- The text of some lines. -/
def joined (lines : List (List Char)) : List Char := ['\n'].intercalate lines

/-- Some texts without outer blanks, those of which anything is left. -/
def kept (texts : List (List Char)) : List (List Char) :=
  (texts.map trimChars).filter fun p => !p.isEmpty

/-- The paragraphs of some lines: their blocks without outer blanks. -/
def paragraphsOf (lines : List (List Char)) : List (List Char) := kept ((blocks lines).map joined)

theorem kept_append (front back : List (List Char)) :
    kept (front ++ back) = kept front ++ kept back := by
  rw [kept, List.map_append, List.filter_append, kept, kept]

theorem kept_cons (text : List Char) (rest : List (List Char)) :
    kept (text :: rest) = kept [text] ++ kept rest := kept_append [text] rest

theorem kept_of_trimChars_eq {cs cs' : List Char} (h : trimChars cs = trimChars cs') :
    kept [cs] = kept [cs'] := by
  rw [kept, List.map_singleton, h, kept, List.map_singleton]

theorem isBlank_of_isLineBlank {c : Char} (h : isLineBlank c = true) : isBlank c = true := by
  simp only [isLineBlank, Bool.or_eq_true, beq_iff_eq] at h
  rcases h with rfl | rfl <;> decide

theorem isBlank_of_isEmptyLine {line : List Char} (h : isEmptyLine line = true) :
    ∀ c ∈ line, isBlank c = true :=
  fun c hc => isBlank_of_isLineBlank (List.all_eq_true.mp h c hc)

theorem kept_emptyLine {line : List Char} (h : isEmptyLine line = true) : kept [line] = [] := by
  rw [kept, List.map_singleton, trimChars_eq_nil.mpr (isBlank_of_isEmptyLine h)]
  rfl

section

variable {line : List Char} {block lines : List (List Char)}

/-- Empty blocks have no text. -/
theorem paragraphsOf_eq (lines : List (List Char)) :
    paragraphsOf lines = kept ((lines.splitOnP isEmptyLine).map joined) := by
  rw [paragraphsOf, blocks]
  induction lines.splitOnP isEmptyLine with
  | nil => rfl
  | cons block rest ih =>
      rw [List.map_cons, kept_cons, ← ih]
      cases block with
      | nil => rfl
      | cons line block => exact kept_cons _ _

/-- An empty line in front of all others. -/
theorem paragraphsOf_cons (h : isEmptyLine line = true) :
    paragraphsOf (line :: lines) = paragraphsOf lines := by
  rw [paragraphsOf_eq, List.splitOnP_cons_eq_if_modifyHead, if_pos h, List.map_cons, kept_cons,
    ← paragraphsOf_eq]
  rfl

/-- A block with an empty line behind it. -/
theorem paragraphsOf_block (hblock : ∀ l ∈ block, isEmptyLine l = false)
    (h : isEmptyLine line = true) :
    paragraphsOf (block ++ line :: lines) = kept [joined block] ++ paragraphsOf lines := by
  rw [paragraphsOf_eq, List.splitOnP_append_cons_of_forall_mem hblock _ h, List.map_cons, kept_cons,
    ← paragraphsOf_eq]

/-- A block with nothing behind it. -/
theorem paragraphsOf_last (hblock : ∀ l ∈ block, isEmptyLine l = false) :
    paragraphsOf block = kept [joined block] := by
  rw [paragraphsOf_eq, List.splitOnP_eq_singleton hblock, List.map_singleton]

end

/-! ## The scan over lines -/

/-- What the scan has passed of a piece when it begins a line: blanks that do not matter, and the
lines of a block, each with its line feed. -/
def passed (lead : List Char) (block : List (List Char)) : List Char :=
  lead ++ block.flatMap (· ++ ['\n'])

theorem passed_concat (lead : List Char) (block : List (List Char)) (line : List Char) :
    passed lead block ++ (line ++ ['\n']) = passed lead (block ++ [line]) := by
  rw [passed, passed, List.flatMap_append, List.flatMap_singleton, List.append_assoc]

theorem joined_cons_cons (line line' : List Char) (rest : List (List Char)) :
    joined (line :: line' :: rest) = line ++ '\n' :: joined (line' :: rest) := by
  simp [joined, List.intercalate]

theorem joined_concat (block : List (List Char)) (line : List Char) :
    joined (block ++ [line]) = block.flatMap (· ++ ['\n']) ++ line := by
  induction block with
  | nil => simp [joined, List.intercalate]
  | cons first rest ih =>
      rw [List.flatMap_cons, List.append_assoc, ← ih]
      cases rest with
      | nil => simp [joined, List.intercalate]
      | cons second rest => simp [joined_cons_cons]

/-- Outer blanks do not matter: neither those before the block nor the line feed behind it. -/
theorem trimChars_passed {lead : List Char} (hlead : ∀ c ∈ lead, isBlank c = true)
    (block : List (List Char)) : trimChars (passed lead block) = trimChars (joined block) := by
  rw [passed, trimChars_append_right hlead]
  cases block using List.reverseRecOn with
  | nil => rfl
  | append_singleton block line =>
      rw [joined_concat, List.flatMap_append, List.flatMap_singleton, ← List.append_assoc]
      exact trimChars_concat (by decide) _

theorem pieces_cons_of_ne {c : Char} (hc : c ≠ '\n') (piece rest : List Char) :
    pieces piece (c :: rest) = pieces (c :: piece) rest := by
  rw [pieces, if_neg hc]

/-- Within a line nothing is cut. -/
theorem pieces_line {line : List Char} (hline : '\n' ∉ line) (before rest : List Char) :
    pieces before.reverse (line ++ rest) = pieces (before ++ line).reverse rest := by
  induction line generalizing before with
  | nil => rw [List.nil_append, List.append_nil]
  | cons c line ih =>
      rw [List.mem_cons, not_or] at hline
      rw [List.cons_append, pieces_cons_of_ne (Ne.symm hline.1), List.append_cons before c line,
        ← ih hline.2, List.reverse_concat]

theorem pieces_of_some {rest rest' : List Char} (h : afterEmptyLine rest = some rest')
    (before : List Char) :
    pieces before.reverse ('\n' :: rest) = before :: pieces [] rest' := by
  rw [pieces, if_pos rfl]
  split
  · next found hfound =>
      rw [h] at hfound
      cases hfound
      rw [List.reverse_reverse]
  · next hnone =>
      rw [h] at hnone
      cases hnone

theorem pieces_of_none {rest : List Char} (h : afterEmptyLine rest = none) (before : List Char) :
    pieces before.reverse ('\n' :: rest) = pieces (before ++ ['\n']).reverse rest := by
  rw [pieces, if_pos rfl]
  split
  · next found hfound =>
      rw [h] at hfound
      cases hfound
  · rw [List.reverse_concat]

/-- A line is passed over exactly if it is empty and another one follows. -/
theorem afterEmptyLine_line {line : List Char} (hline : '\n' ∉ line) (rest : List Char) :
    afterEmptyLine (line ++ '\n' :: rest) =
      if isEmptyLine line = true then some rest else none := by
  rw [afterEmptyLine]
  split_ifs with hempty
  · rw [List.dropWhile_append_of_pos (List.all_eq_true.mp hempty),
      List.dropWhile_cons_of_neg (by decide)]
    rfl
  · have hne : line.dropWhile isLineBlank ≠ [] := by
      intro hnil
      exact hempty (List.all_eq_true.mpr (List.dropWhile_eq_nil_iff.mp hnil))
    obtain ⟨c, tail, htail⟩ := List.exists_cons_of_ne_nil hne
    have hc : c ≠ '\n' := by
      rintro rfl
      exact hline ((List.dropWhile_suffix _).subset (htail ▸ List.mem_cons_self))
    rw [List.dropWhile_append, if_neg (by simp [htail]), htail, List.cons_append]
    split
    · next heq => exact absurd (List.cons.inj heq).1 hc
    · rfl

theorem afterEmptyLine_last {line : List Char} (hline : '\n' ∉ line) :
    afterEmptyLine line = none := by
  rw [afterEmptyLine]
  split
  · next rest heq =>
      exact absurd ((List.dropWhile_suffix _).subset (heq ▸ List.mem_cons_self)) hline
  · rfl

section

variable {line next : List Char} (hline : '\n' ∉ line) (before : List Char)

theorem joined_singleton (line : List Char) : joined [line] = line := by
  simp [joined, List.intercalate]

include hline

/-- The scan comes to the end with the last line. -/
theorem pieces_last : pieces before.reverse (joined [line]) = [before ++ line] := by
  have hend := pieces_line hline before []
  rw [List.append_nil] at hend
  rw [joined_singleton, hend, pieces, List.reverse_reverse]

variable (hnext : '\n' ∉ next)

include hnext

/-- The next line is cut out, and the scan begins anew behind it. -/
theorem pieces_cut (hempty : isEmptyLine next = true) (third : List Char)
    (rest : List (List Char)) :
    pieces before.reverse (joined (line :: next :: third :: rest)) =
      (before ++ line) :: pieces [] (joined (third :: rest)) := by
  have hafter : afterEmptyLine (joined (next :: third :: rest)) =
      some (joined (third :: rest)) := by
    rw [joined_cons_cons, afterEmptyLine_line hnext, if_pos hempty]
  rw [joined_cons_cons, pieces_line hline, pieces_of_some hafter]

/-- The line feed belongs to the piece, and the scan goes on with the next line. -/
theorem pieces_on {rest : List (List Char)} (h : isEmptyLine next = false ∨ rest = []) :
    pieces before.reverse (joined (line :: next :: rest)) =
      pieces (before ++ (line ++ ['\n'])).reverse (joined (next :: rest)) := by
  have hafter : afterEmptyLine (joined (next :: rest)) = none := by
    cases rest with
    | nil => rw [joined_singleton, afterEmptyLine_last hnext]
    | cons third rest =>
        have hfull : isEmptyLine next = false := h.resolve_right (by simp)
        rw [joined_cons_cons, afterEmptyLine_line hnext, hfull]
        rfl
  rw [joined_cons_cons, pieces_line hline, pieces_of_none hafter, List.append_assoc]

end

theorem kept_passed {lead : List Char} (hlead : ∀ c ∈ lead, isBlank c = true)
    (block : List (List Char)) (line : List Char) :
    kept [passed lead block ++ line] = kept [joined (block ++ [line])] := by
  apply kept_of_trimChars_eq
  rw [passed, List.append_assoc, trimChars_append_right hlead, joined_concat]

/-- Nothing was passed only if no block was begun. -/
theorem block_eq_nil {lead : List Char} {block : List (List Char)} (h : passed lead block = []) :
    block = [] := by
  cases block with
  | nil => rfl
  | cons line block => simp [passed] at h

/-- The scan at the beginning of a line finds the paragraphs of the block that it has begun, of this
line and of those that follow. If anything was passed of a piece, it is no empty line that it is at,
unless this is the last one: it would have been cut at otherwise. -/
theorem kept_pieces (lead : List Char) (hlead : ∀ c ∈ lead, isBlank c = true)
    (block : List (List Char)) (hblock : ∀ l ∈ block, isEmptyLine l = false) {line : List Char}
    {rest : List (List Char)} (hlines : ∀ l ∈ line :: rest, '\n' ∉ l)
    (hat : passed lead block = [] ∨ isEmptyLine line = false ∨ rest = []) :
    kept (pieces (passed lead block).reverse (joined (line :: rest))) =
      paragraphsOf (block ++ line :: rest) := by
  have hline : '\n' ∉ line := hlines line List.mem_cons_self
  have hextended (hfull : isEmptyLine line = false) :
      ∀ l ∈ block ++ [line], isEmptyLine l = false :=
    List.forall_mem_append.mpr ⟨hblock, List.forall_mem_singleton.mpr hfull⟩
  match rest with
  | [] =>
      rw [pieces_last hline]
      cases hempty : isEmptyLine line with
      | true =>
          have htrim : trimChars (passed lead block ++ line) = trimChars (joined block) := by
            rw [trimChars_append_left (isBlank_of_isEmptyLine hempty), trimChars_passed hlead]
          rw [paragraphsOf_block hblock hempty, kept_of_trimChars_eq htrim]
          exact (List.append_nil _).symm
      | false => rw [kept_passed hlead, paragraphsOf_last (hextended hempty)]
  | next :: rest =>
      have hnext : '\n' ∉ next := hlines next (List.mem_cons_of_mem line List.mem_cons_self)
      have hlater : ∀ l ∈ next :: rest, '\n' ∉ l :=
        fun l hl => hlines l (List.mem_cons_of_mem line hl)
      have hnothing (hempty : isEmptyLine line = true) : passed lead block = [] := by
        rcases hat with h | h | h
        · exact h
        · rw [hempty] at h
          cases h
        · cases h
      by_cases hcut : isEmptyLine next = true ∧ rest ≠ []
      · obtain ⟨hempty, hrest⟩ := hcut
        obtain ⟨third, rest, rfl⟩ := List.exists_cons_of_ne_nil hrest
        have hanew : kept (pieces [] (joined (third :: rest))) = paragraphsOf (third :: rest) :=
          kept_pieces [] (by simp) [] (by simp)
            (fun l hl => hlater l (List.mem_cons_of_mem next hl)) (Or.inl rfl)
        rw [pieces_cut hline _ hnext hempty, kept_cons, hanew]
        cases hfull : isEmptyLine line with
        | true =>
            rw [hnothing hfull, block_eq_nil (hnothing hfull), List.nil_append, List.nil_append,
              kept_emptyLine hfull, paragraphsOf_cons hfull, paragraphsOf_cons hempty,
              List.nil_append]
        | false =>
            rw [kept_passed hlead, ← paragraphsOf_block (hextended hfull) hempty]
            simp
      · have hat' : isEmptyLine next = false ∨ rest = [] := by
          rcases Bool.eq_false_or_eq_true (isEmptyLine next) with hempty | hfull
          · exact Or.inr (not_not.mp fun hrest => hcut ⟨hempty, hrest⟩)
          · exact Or.inl hfull
        rw [pieces_on hline _ hnext hat']
        cases hfull : isEmptyLine line with
        | true =>
            -- the empty line and its line feed are blanks before the block that is to come
            have hlead' : ∀ c ∈ line ++ ['\n'], isBlank c = true :=
              List.forall_mem_append.mpr
                ⟨isBlank_of_isEmptyLine hfull, List.forall_mem_singleton.mpr rfl⟩
            have hgo := kept_pieces _ hlead' [] (by simp) hlater (Or.inr hat')
            rw [passed, List.flatMap_nil, List.append_nil, List.nil_append] at hgo
            rw [hnothing hfull, block_eq_nil (hnothing hfull), List.nil_append, List.nil_append,
              paragraphsOf_cons hfull, hgo]
        | false =>
            have hgo := kept_pieces lead hlead _ (hextended hfull) hlater (Or.inr hat')
            rw [passed_concat, hgo]
            simp
termination_by rest.length

/-! ## Paragraphs and elements -/

/-- The lines of a text, whatever the line ends are. -/
def linesOf (text : String) : List (List Char) := splitAt '\n' (lineFeeds text.toList)

/-- The paragraphs are those of the lines. -/
theorem paragraphs_eq (text : String) : paragraphs text = paragraphsOf (linesOf text) := by
  obtain ⟨line, rest, hlines⟩ := List.exists_cons_of_ne_nil (splitAt_ne_nil '\n'
    (lineFeeds text.toList))
  have hjoined : joined (line :: rest) = lineFeeds text.toList := by
    rw [← hlines]
    exact intercalate_splitAt '\n' _
  have hscan := kept_pieces [] (by simp) [] (by simp)
    (fun l hl => notMem_of_mem_splitAt (hlines ▸ hl)) (Or.inl rfl)
  rw [linesOf, hlines, ← List.nil_append (line :: rest), ← hscan, hjoined]
  rfl

/-- A title is a single line of at most eighty characters without a mark at its end. -/
theorem kindOf_eq (p : List Char) :
    kindOf p = if '\n' ∉ p ∧ p.length ≤ 80 ∧
      ['.', '!', '?', ',', ';', ':'].all (p.getLast? ≠ some ·) then .title
      else .narrativeText := by
  have hend : p.getLast?.any isSentenceEnd = false ↔
      ['.', '!', '?', ',', ';', ':'].all (p.getLast? ≠ some ·) = true := by
    cases p.getLast? with
    | none => simp
    | some c => simp [isSentenceEnd]
  have hlimit : (p.length ≤ 80) = (p.length ≤ titleLimit) := rfl
  rw [kindOf]
  refine if_congr ?_ rfl rfl
  rw [← hend, hlimit]
  simp [and_assoc]

/-- Each element has the kind and the identifier of its paragraph. -/
theorem partition_eq (text : String) (origin : Origin) :
    partition text origin = (paragraphs text).zipIdx.map fun (p, i) =>
      ⟨kindOf p, ⟨.fingerprint (String.ofList p) origin.page i, origin⟩, String.ofList p⟩ := by
  rw [partition, number, numberFrom_eq, List.zipIdx_map, List.map_map]
  rfl

/-- The texts of the elements are the paragraphs. -/
theorem texts_partition (text : String) (origin : Origin) :
    (partition text origin).map (·.text) = (paragraphs text).map String.ofList := by
  have hfirst : ((paragraphs text).zipIdx.map Prod.fst).map String.ofList =
      (paragraphs text).map String.ofList := by
    rw [List.zipIdx_map_fst]
  rw [partition_eq, List.map_map, ← hfirst, List.map_map]
  rfl

/-- The text with a carriage return before each line feed. -/
def withReturns (text : String) : String :=
  String.ofList (text.toList.flatMap fun c => if c = '\n' then ['\r', '\n'] else [c])

theorem lineFeeds_cons_of_ne {c : Char} (hc : c ≠ '\r') (rest : List Char) :
    lineFeeds (c :: rest) = c :: lineFeeds rest := by
  rw [lineFeeds]
  exact fun rest' heq _ => hc heq

/-- The texts that stay as they are have no line ends of two characters. -/
theorem lineFeeds_eq_self {cs : List Char} : lineFeeds cs = cs ↔ ¬ ['\r', '\n'] <:+: cs := by
  fun_induction lineFeeds cs with
  | case1 => simp
  | case2 rest =>
      have hfront : ['\r', '\n'] <:+: '\r' :: '\n' :: rest :=
        (List.prefix_append ['\r', '\n'] rest).isInfix
      exact ⟨fun heq => (nomatch heq), fun hnone => absurd hfront hnone⟩
  | case3 c rest hpair ih =>
      have hfront : ¬ ['\r', '\n'] <+: c :: rest := by
        rintro ⟨rest', heq⟩
        cases heq
        exact hpair rest' rfl rfl
      rw [List.cons_eq_cons, List.infix_cons_iff, ih]
      simp [hfront]

theorem lineFeeds_of_notMem {cs : List Char} (h : '\r' ∉ cs) : lineFeeds cs = cs :=
  lineFeeds_eq_self.mpr fun hwithin => h (hwithin.subset List.mem_cons_self)

theorem lineFeeds_withReturns {cs : List Char} (h : '\r' ∉ cs) :
    lineFeeds (cs.flatMap fun c => if c = '\n' then ['\r', '\n'] else [c]) = cs := by
  induction cs with
  | nil => rfl
  | cons c rest ih =>
      rw [List.mem_cons, not_or] at h
      rw [List.flatMap_cons]
      split_ifs with hc
      · rw [List.cons_append, List.cons_append, List.nil_append, lineFeeds, ih h.2, hc]
      · rw [List.cons_append, List.nil_append, lineFeeds_cons_of_ne (Ne.symm h.1), ih h.2]

/-- **Paragraphs line by line.** The elements of a text are the paragraphs of its lines, in their
order: what is left without outer blanks of the lines between two empty ones, if anything is left.
Each has the origin that is given, and the identifier of its text and its position; it is a title
if it is one line of at most eighty characters with no mark at its end. Carriage returns before all
line feeds make no difference. -/
theorem partition_by_lines :
    (∀ (text : String) (origin : Origin), partition text origin =
      (paragraphsOf (linesOf text)).zipIdx.map fun (p, i) =>
        ⟨if '\n' ∉ p ∧ p.length ≤ 80 ∧
              ['.', '!', '?', ',', ';', ':'].all (p.getLast? ≠ some ·)
            then .title else .narrativeText,
          ⟨.fingerprint (String.ofList p) origin.page i, origin⟩, String.ofList p⟩) ∧
    ∀ (text : String) (origin : Origin), '\r' ∉ text.toList →
      partition (withReturns text) origin = partition text origin := by
  refine ⟨?_, ?_⟩
  · intro text origin
    rw [partition_eq, paragraphs_eq]
    simp only [kindOf_eq]
  · intro text origin hreturn
    have hsame : paragraphs (withReturns text) = paragraphs text := by
      rw [paragraphs, withReturns, String.toList_ofList, lineFeeds_withReturns hreturn, paragraphs,
        lineFeeds_of_notMem hreturn]
    rw [partition, hsame, partition]

/-- Three empty lines in a row, one of them with blanks, and another one at the end. -/
theorem partition_by_lines_notes :
    '\r' ∉ "Notes\n\n \t\n\none.\n two\n\n".toList ∧
      (partition (withReturns "Notes\n\n \t\n\none.\n two\n\n") .unknown).map
          (fun q => (q.kind, q.text, q.core.origin)) =
        [(.title, "Notes", .unknown), (.narrativeText, "one.\n two", .unknown)] := by
  refine ⟨by decide, ?_⟩
  rw [partition_by_lines.2 _ _ (by decide), partition_by_lines.1]
  decide +kernel

end Intake.Partition
