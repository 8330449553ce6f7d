import Intake.Json.Times
import Intake.Proofs.Json.Outlines
import Intake.Proofs.Json.Tokens
import Intake.Proofs.Text.Bytes

/-!
# Written values are read back

A value whose numbers are integers of 64 bits is read back from its indented text. Each level
of the value is read with the fuel that twice the length of its own text gives, whatever
follows, as long as that does not go on with a number.
-/

namespace Intake.Json

/-- Whether all numbers in a value are integers of 64 bits. -/
inductive Whole : Json → Prop
  | null : Whole .null
  | bool (b : Bool) : Whole (.bool b)
  | integer {n : Int} (h : Number.fits n = true) : Whole (.number (.integer n))
  | string (s : String) : Whole (.string s)
  | array {items : List Json} (h : ∀ v ∈ items, Whole v) : Whole (.array items)
  | object {entries : List (String × Json)} (h : ∀ e ∈ entries, Whole e.2) :
      Whole (.object entries)

theorem whole_ofOption {α : Type} {encode : α → Json} {o : Option α}
    (h : ∀ a ∈ o, Whole (encode a)) : Whole (.ofOption encode o) := by
  cases o with
  | none => exact .null
  | some a => exact h a rfl

/-! ## Blanks between tokens -/

/-- Whether a text begins with a token that closes no list. -/
def Opens (cs : List Char) : Prop :=
  ∃ c rest, cs = c :: rest ∧ isSpace c = false ∧ c ≠ ']' ∧ c ≠ '\x7d'

theorem Opens.append {cs : List Char} (h : Opens cs) (more : List Char) : Opens (cs ++ more) := by
  obtain ⟨c, rest, rfl, hc⟩ := h
  exact ⟨c, rest ++ more, rfl, hc⟩

theorem opens_stringText (s : String) : Opens (stringText s) :=
  ⟨'"', _, rfl, rfl, by decide, by decide⟩

theorem skipSpace_of_opens {cs : List Char} (h : Opens cs) : skipSpace cs = cs := by
  obtain ⟨c, rest, rfl, hc, _⟩ := h
  rw [skipSpace, List.dropWhile_cons_of_neg (by simp [hc])]

theorem isSpace_of_mem_newLine {level : Nat} {c : Char} (h : c ∈ newLine level) :
    isSpace c = true := by
  rw [newLine, List.mem_cons] at h
  rcases h with rfl | h
  · rfl
  · rw [List.eq_of_mem_replicate h]
    rfl

theorem skipSpace_newLine (level : Nat) (cs : List Char) :
    skipSpace (newLine level ++ cs) = skipSpace cs := by
  rw [skipSpace, List.dropWhile_append_of_pos fun c hc => isSpace_of_mem_newLine hc]
  rfl

theorem skipSpace_colon (cs : List Char) : skipSpace (':' :: cs) = ':' :: cs := rfl

theorem skipSpace_comma (cs : List Char) : skipSpace (',' :: cs) = ',' :: cs := rfl

theorem skipSpace_blank (cs : List Char) : skipSpace (' ' :: cs) = skipSpace cs := rfl

/-- What is written after an item ends a number. -/
theorem endsNumber_mark {c : Char} (hc : c = ',' ∨ c = '\n') (cs : List Char) :
    EndsNumber (c :: cs) := by
  rcases hc with rfl | rfl
  · exact ⟨Text.Decimal.endsDigits_cons rfl, by simp⟩
  · exact ⟨Text.Decimal.endsDigits_cons rfl, by simp⟩

theorem endsNumber_indentedItems (level : Nat) (items : List Json) (cs : List Char) :
    EndsNumber (indentedItems level items ++ cs) := by
  cases items with
  | nil => exact endsNumber_mark (Or.inr rfl) _
  | cons v rest => exact endsNumber_mark (Or.inl rfl) _

theorem endsNumber_indentedEntries (level : Nat) (entries : List (String × Json))
    (cs : List Char) : EndsNumber (indentedEntries level entries ++ cs) := by
  cases entries with
  | nil => exact endsNumber_mark (Or.inr rfl) _
  | cons e rest => exact endsNumber_mark (Or.inl rfl) _

/-! ## Reading back -/

/-- Whether a value is read back from its text, with any text after it that ends a number. -/
structure ReadsBack (v : Json) : Prop where
  opens : ∀ level, Opens (v.indented level)
  reads : ∀ level fuel rest, 2 * (v.indented level).length ≤ fuel → EndsNumber rest →
    value fuel .whole (v.indented level ++ rest) = some (v, rest)

theorem Opens.length_pos {cs : List Char} (h : Opens cs) : 0 < cs.length := by
  obtain ⟨c, rest, rfl, _⟩ := h
  exact Nat.succ_pos _

/-- The items of an array and its closing bracket. -/
theorem items_indented {level : Nat} {v : Json} {vs : List Json}
    (h : ∀ w ∈ v :: vs, ReadsBack w) {fuel : Nat} (rest : List Char)
    (hfuel : 2 * (v.indented (level + 1) ++ indentedItems level vs).length ≤ fuel) :
    items fuel .whole (v.indented (level + 1) ++ (indentedItems level vs ++ rest)) =
      some (v :: vs, rest) := by
  induction vs generalizing v fuel with
  | nil =>
      have hv := h v List.mem_cons_self
      rw [List.length_append] at hfuel
      obtain ⟨fuel, rfl⟩ : ∃ k, fuel = k + 1 :=
        Nat.exists_eq_add_one.mpr (by have := (hv.opens (level + 1)).length_pos; omega)
      rw [items, Outline.first_whole, hv.reads _ fuel _ (by simp [indentedItems] at hfuel; omega)
        (endsNumber_indentedItems level [] rest)]
      simp only [indentedItems, List.append_assoc, skipSpace_newLine]
      rfl
  | cons w ws ih =>
      have hv := h v List.mem_cons_self
      have hw := h w (List.mem_cons_of_mem _ List.mem_cons_self)
      rw [List.length_append, indentedItems, List.length_cons, List.length_append] at hfuel
      obtain ⟨fuel, rfl⟩ : ∃ k, fuel = k + 1 :=
        Nat.exists_eq_add_one.mpr (by omega)
      have hrest : items fuel .whole (w.indented (level + 1) ++ (indentedItems level ws ++ rest)) =
          some (w :: ws, rest) :=
        ih (fun x hx => h x (List.mem_cons_of_mem _ hx)) (by omega)
      rw [items, Outline.first_whole,
        hv.reads _ fuel _ (by omega) (endsNumber_indentedItems level (w :: ws) rest), indentedItems]
      simp only [List.cons_append, List.append_assoc, skipSpace_comma, skipSpace_newLine,
        skipSpace_of_opens ((hw.opens (level + 1)).append _), Outline.later_whole, hrest,
        Option.map_some]

/-- An entry of an object at a level: its key, a colon and its value. -/
def indentedEntry (level : Nat) (k : String) (v : Json) : List Char :=
  stringText k ++ ':' :: ' ' :: v.indented (level + 1)

/-- The entries of an object and its closing brace. -/
theorem members_indented {level : Nat} {k : String} {v : Json} {es : List (String × Json)}
    (h : ∀ e ∈ (k, v) :: es, ReadsBack e.2) {fuel : Nat} (rest : List Char)
    (hfuel : 2 * (indentedEntry level k v ++ indentedEntries level es).length ≤ fuel) :
    members fuel .whole (indentedEntry level k v ++ (indentedEntries level es ++ rest)) =
      some ((k, v) :: es, rest) := by
  induction es generalizing k v fuel with
  | nil =>
      have hv : ReadsBack v := h (k, v) List.mem_cons_self
      rw [List.length_append, indentedEntry, List.length_append, List.length_cons,
        List.length_cons] at hfuel
      obtain ⟨fuel, rfl⟩ : ∃ n, fuel = n + 1 := Nat.exists_eq_add_one.mpr (by omega)
      rw [indentedEntry, List.append_assoc, members, Outline.keys_whole, stringToken_stringText]
      simp only [List.cons_append, Outline.entry_whole, skipSpace_colon, skipSpace_blank,
        skipSpace_of_opens ((hv.opens (level + 1)).append _)]
      rw [hv.reads _ fuel _ (by omega) (endsNumber_indentedEntries level [] rest)]
      simp only [indentedEntries, List.append_assoc, skipSpace_newLine]
      rfl
  | cons e es ih =>
      obtain ⟨k', v'⟩ := e
      have hv : ReadsBack v := h (k, v) List.mem_cons_self
      have hnext : indentedEntries level ((k', v') :: es) = ',' :: (newLine (level + 1) ++
          (indentedEntry level k' v' ++ indentedEntries level es)) := by
        rw [indentedEntries, indentedEntry, List.append_assoc]
        rfl
      rw [hnext, List.length_append, indentedEntry, List.length_append, List.length_cons,
        List.length_cons, List.length_cons, List.length_append] at hfuel
      obtain ⟨fuel, rfl⟩ : ∃ n, fuel = n + 1 := Nat.exists_eq_add_one.mpr (by omega)
      have hrest : members fuel .whole (indentedEntry level k' v' ++
          (indentedEntries level es ++ rest)) = some ((k', v') :: es, rest) :=
        ih (fun x hx => h x (List.mem_cons_of_mem _ hx)) (by omega)
      have hopens : Opens (indentedEntry level k' v' ++ (indentedEntries level es ++ rest)) :=
        ((opens_stringText k').append _).append _
      rw [indentedEntry, List.append_assoc, members, Outline.keys_whole, stringToken_stringText]
      simp only [List.cons_append, Outline.entry_whole, skipSpace_colon, skipSpace_blank,
        skipSpace_of_opens ((hv.opens (level + 1)).append _)]
      rw [hv.reads _ fuel _ (by omega) (endsNumber_indentedEntries level _ rest), hnext]
      simp only [List.cons_append, List.append_assoc, skipSpace_comma, skipSpace_newLine,
        skipSpace_of_opens hopens, hrest, Option.map_some]

/-! ## The kinds of values -/

/-- A text that begins with a token leaves fuel for the first step. -/
theorem ReadsBack.of_step {v : Json} (hopens : ∀ level, Opens (v.indented level))
    (hstep : ∀ level fuel rest, 2 * (v.indented level).length ≤ fuel + 1 → EndsNumber rest →
      value (fuel + 1) .whole (v.indented level ++ rest) = some (v, rest)) : ReadsBack v where
  opens := hopens
  reads level fuel rest hfuel hends := by
    obtain ⟨fuel, rfl⟩ : ∃ n, fuel = n + 1 :=
      Nat.exists_eq_add_one.mpr (by have := (hopens level).length_pos; omega)
    exact hstep level fuel rest hfuel hends

theorem readsBack_null : ReadsBack .null := by
  apply ReadsBack.of_step
  · exact fun _ => ⟨'n', _, rfl, rfl, by decide, by decide⟩
  · exact fun _ _ _ _ _ => rfl

theorem readsBack_bool (b : Bool) : ReadsBack (.bool b) := by
  apply ReadsBack.of_step
  · intro level
    cases b
    · exact ⟨'f', _, rfl, rfl, by decide, by decide⟩
    · exact ⟨'t', _, rfl, rfl, by decide, by decide⟩
  · intro level fuel rest _ _
    cases b <;> rfl

theorem readsBack_string (s : String) : ReadsBack (.string s) := by
  apply ReadsBack.of_step
  · exact fun _ => opens_stringText s
  · intro level fuel rest _ _
    have hread := stringToken_stringText s rest
    rw [stringText, List.cons_append] at hread
    rw [indented, stringText, List.cons_append, value, Outline.text_whole, hread, Option.map_some]

/-- What an integer begins with. -/
theorem intText_begins (n : Int) :
    ∃ c rest, Number.intText n = c :: rest ∧ (c = '-' ∨ c.isDigit = true) := by
  cases n with
  | ofNat n =>
      rw [Number.intText]
      cases hds : Text.Decimal.digits n with
      | nil => exact absurd hds (Text.Decimal.digits_ne_nil n)
      | cons c ds =>
          refine ⟨c, ds, rfl, Or.inr (Text.Decimal.isDigit_of_mem_digits (n := n) ?_)⟩
          rw [hds]
          exact List.mem_cons_self
  | negSucc n => exact ⟨'-', _, rfl, Or.inl rfl⟩

/-- What begins an integer begins nothing else. -/
theorem opens_of_begins {c : Char} (hc : c = '-' ∨ c.isDigit = true) (rest : List Char) :
    Opens (c :: rest) := by
  have hne : ∀ d : Char, d ≠ '-' → d.isDigit = false → c ≠ d := by
    rintro d hminus hdigit rfl
    rcases hc with hc | hc
    · exact hminus hc
    · exact Bool.noConfusion (hdigit.symm.trans hc)
  refine ⟨c, rest, rfl, ?_, hne ']' (by decide) rfl, hne '\x7d' (by decide) rfl⟩
  simp [isSpace, hne ' ', hne '\n', hne '\t', hne '\r']

/-- A text that begins like an integer is read as a number. -/
theorem value_number {c : Char} (hc : c = '-' ∨ c.isDigit = true) (fuel : Nat)
    (cs : List Char) :
    value (fuel + 1) .whole (c :: cs) =
      (numberToken (c :: cs)).map fun (n, r) => (.number n, r) := by
  rw [value]
  all_goals
    rintro rest ⟨rfl, -⟩
    simp_all

theorem readsBack_integer {n : Int} (h : Number.fits n = true) :
    ReadsBack (.number (.integer n)) := by
  obtain ⟨c, cs, htext, hc⟩ := intText_begins n
  apply ReadsBack.of_step
  · intro level
    rw [indented, Number.text, htext]
    exact opens_of_begins hc cs
  · intro level fuel rest _ hends
    have htoken := numberToken_intText h hends
    rw [htext, List.cons_append] at htoken
    rw [indented, Number.text, htext, List.cons_append, value_number hc, htoken,
      Option.map_some]

/-- An array with an item is read as its items. -/
theorem value_array {cs : List Char} (h : Opens (skipSpace cs)) (fuel : Nat) :
    value (fuel + 1) .whole ('[' :: cs) =
      (items fuel .whole (skipSpace cs)).map fun (vs, r) => (.array vs, r) := by
  obtain ⟨c, rest, hcs, _, hc, _⟩ := h
  rw [value, hcs]
  split
  · next heq => exact absurd (List.cons.inj heq).1 hc
  · rfl

/-- An object with an entry is read as its entries. -/
theorem value_object {cs : List Char} (h : Opens (skipSpace cs)) (fuel : Nat) :
    value (fuel + 1) .whole ('\x7b' :: cs) =
      (members fuel .whole (skipSpace cs)).map fun (es, r) => (.object es, r) := by
  obtain ⟨c, rest, hcs, _, _, hc⟩ := h
  rw [value, hcs]
  split
  · next heq => exact absurd (List.cons.inj heq).1 hc
  · rfl

theorem readsBack_array {vs : List Json} (h : ∀ v ∈ vs, ReadsBack v) :
    ReadsBack (.array vs) := by
  apply ReadsBack.of_step
  · intro level
    cases vs <;> exact ⟨'[', _, rfl, rfl, by decide, by decide⟩
  · intro level fuel rest hfuel _
    cases vs with
    | nil => rfl
    | cons v vs =>
        have hopens := ((h v List.mem_cons_self).opens (level + 1)).append
          (indentedItems level vs ++ rest)
        rw [indented, List.length_cons, List.length_append] at hfuel
        rw [indented, List.cons_append, List.append_assoc, List.append_assoc,
          value_array (by rw [skipSpace_newLine, skipSpace_of_opens hopens]; exact hopens),
          skipSpace_newLine, skipSpace_of_opens hopens,
          items_indented h rest (by omega), Option.map_some]

theorem readsBack_object {es : List (String × Json)} (h : ∀ e ∈ es, ReadsBack e.2) :
    ReadsBack (.object es) := by
  apply ReadsBack.of_step
  · intro level
    cases es <;> exact ⟨'\x7b', _, rfl, rfl, by decide, by decide⟩
  · intro level fuel rest hfuel _
    cases es with
    | nil => rfl
    | cons e es =>
        obtain ⟨k, v⟩ := e
        have htext : indented level (.object ((k, v) :: es)) = '\x7b' :: (newLine (level + 1) ++
            (indentedEntry level k v ++ indentedEntries level es)) := by
          rw [indented, indentedEntry, List.append_assoc]
          rfl
        have hopens : Opens (indentedEntry level k v ++ (indentedEntries level es ++ rest)) :=
          ((opens_stringText k).append _).append _
        rw [htext, List.length_cons, List.length_append] at hfuel
        rw [htext, List.cons_append, List.append_assoc, List.append_assoc,
          value_object (by rw [skipSpace_newLine, skipSpace_of_opens hopens]; exact hopens),
          skipSpace_newLine, skipSpace_of_opens hopens,
          members_indented h rest (by omega), Option.map_some]

theorem Whole.readsBack {v : Json} (h : Whole v) : ReadsBack v := by
  induction h with
  | null => exact readsBack_null
  | bool b => exact readsBack_bool b
  | integer hfits => exact readsBack_integer hfits
  | string s => exact readsBack_string s
  | array _ ih => exact readsBack_array ih
  | object _ ih => exact readsBack_object ih

/-- **Values are read back.** The indented text of a value without fractions denotes the value. -/
theorem read_pretty {v : Json} (h : Whole v) : read v.pretty = some v := by
  have hback := h.readsBack
  have hvalue := hback.reads 0 (2 * (v.indented 0).length + 2) [] (by omega) endsNumber_nil
  rw [List.append_nil] at hvalue
  rw [read, pretty, String.toList_ofList, readChars, skipSpace_of_opens (hback.opens 0), hvalue]
  rfl

/-! ## Bytes -/

theorem spell_bytesOf (c : Char) (bytes : List UInt8) :
    spell (Text.bytesOf c ++ bytes) = c :: spell bytes := by
  have hlength : (Text.bytesOf c).length = c.utf8Size := by
    rw [Text.bytesOf_eq, String.length_utf8EncodeChar]
  have hfour := c.utf8Size_le_four
  cases hbytes : Text.bytesOf c with
  | nil =>
      rw [hbytes] at hlength
      exact absurd hlength (Nat.ne_of_lt c.utf8Size_pos)
  | cons byte more =>
      rw [hbytes, List.length_cons] at hlength
      have hread := Text.utf8DecodeChar?_bytesOf c (bytes.take (3 - more.length))
      rw [hbytes, List.cons_append] at hread
      rw [List.cons_append, spell, List.take_append, List.take_of_length_le (by omega), hread]
      simp only
      rw [List.drop_left' (by omega)]

theorem spell_toUTF8 (s : String) : spell s.toUTF8.toList = s.toList := by
  rw [Text.toUTF8_eq, Text.toList_eq_data]
  induction s.toList with
  | nil => rw [List.flatMap_nil, spell]
  | cons c cs ih => rw [List.flatMap_cons, spell_bytesOf, ih]

/-- What a text denotes is read from its bytes, as far as it is looked at. -/
theorem readBytes_toUTF8 {text : String} {v : Json} (h : read text = some v) (o : Outline) :
    readBytes o text.toUTF8 = some (v.prune o) := by
  rw [readBytes, spell_toUTF8]
  exact readChars_prune h o

end Intake.Json
