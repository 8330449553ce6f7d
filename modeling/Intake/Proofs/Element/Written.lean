import Intake.Element.Name
import Intake.Element.Paragraph
import Intake.Proofs.Json.Records
import Intake.Proofs.Json.RoundTrip

/-!
# Elements are read back

An element is decoded from the value that it is encoded as, and from the same entries in any
other order, such as that of the canonical form. Its identifier, its origin and its kind are read
back with the rest. The one condition is that its page has a number of 32 bits.
-/

namespace Intake.Element

open Json (Whole)
open Json.Decode

/-! ## Origins -/

/-- Whether the page, if one is known, has a number of 32 bits. -/
def Origin.Fits (o : Origin) : Prop := ∀ n ∈ o.page, n < 4294967296

namespace Origin

/-- A page in JSON. -/
def pageJson (n : Nat) : Json := .number (.integer n)

/-- The entries of what is known. -/
def known (o : Origin) : List (String × Json) :=
  entry "page_number" pageJson o.page ++ entry "filename" .string o.filename ++
    entry "source_locator" .string o.locator

theorem toJson_eq (o : Origin) : o.toJson = .object o.known := rfl

theorem passes_entry {α : Type} {fields : List Field} {name : String} {encode : α → Json}
    {decode : Json.Decoder α} {o : Option α}
    (hfind : fields.find? (·.name == name) = some (.defaulted name (Json.Decode.optional decode)))
    (hnull : ∀ a ∈ o, encode a ≠ .null) (h : ∀ a ∈ o, decode (encode a) = .ok a) :
    Passes fields (entry name encode o) := by
  cases o with
  | none => exact passes_nil
  | some a =>
      exact passes_nil.cons hfind
        (check_defaulted name (optional_of_ne_null (hnull a rfl) (h a rfl)))

variable {o : Origin}

theorem record_known (hfits : o.Fits) : Record fields o.known where
  nodup := by rcases o with ⟨_ | page, _ | filename, _ | locator⟩ <;> simp [known, entry]
  passes := by
    refine ((passes_entry rfl ?_ ?_).append (passes_entry rfl ?_ ?_)).append
      (passes_entry rfl ?_ ?_)
    · exact fun _ _ => Json.noConfusion
    · exact fun n hn => nat32_integer (hfits n hn)
    · exact fun _ _ => Json.noConfusion
    · exact fun s _ => string_string s
    · exact fun _ _ => Json.noConfusion
    · exact fun s _ => string_string s
  complete f hf hin := by
    simp only [fields, List.mem_cons, List.not_mem_nil, or_false] at hf
    rcases hf with rfl | rfl | rfl <;> cases hin

theorem lookup_known (o : Origin) :
    o.known.lookup "page_number" = o.page.map pageJson ∧
      o.known.lookup "filename" = o.filename.map .string ∧
      o.known.lookup "source_locator" = o.locator.map .string := by
  rcases o with ⟨_ | page, _ | filename, _ | locator⟩ <;> exact ⟨rfl, rfl, rfl⟩

/-- An origin is decoded from its entries in any order. -/
theorem decodeAs_of_perm {s : Shape} (hshape : s.fields = fields) (hfits : o.Fits)
    {es : List (String × Json)} (hperm : es.Perm o.known) : decodeAs s (.object es) = .ok o := by
  have hrecord := (record_known hfits).perm hperm
  have hentries : entriesOf s (.object es) = .ok es := by
    rw [entriesOf, hshape, hrecord.check]
    rfl
  obtain ⟨hpage, hfilename, hlocator⟩ := o.lookup_known
  have hlookup := Json.lookup_perm hperm hrecord.nodup
  have hpage' := fieldD_optional ((hlookup _).trans hpage) (fun _ _ => Json.noConfusion)
    fun n hn => nat32_integer (hfits n hn)
  have hfilename' := fieldD_optional ((hlookup _).trans hfilename)
    (fun _ _ => Json.noConfusion) fun s _ => string_string s
  have hlocator' := fieldD_optional ((hlookup _).trans hlocator)
    (fun _ _ => Json.noConfusion) fun s _ => string_string s
  rw [decodeAs, hentries]
  simp only [bind, Except.bind, hpage', hfilename', hlocator']

theorem decodeAs_toJson {s : Shape} (hshape : s.fields = fields) (hfits : o.Fits) :
    decodeAs s o.toJson = .ok o :=
  decodeAs_of_perm hshape hfits (.refl _)

theorem decodeAs_canonical {s : Shape} (hshape : s.fields = fields) (hfits : o.Fits) :
    decodeAs s o.toJson.canonical = .ok o := by
  have hvalues : (o.known.map fun e => (e.1, e.2.canonical)) = o.known := by
    rcases o with ⟨_ | page, _ | filename, _ | locator⟩ <;> rfl
  have hperm := Json.canonicalEntries_perm (record_known hfits).nodup
  rw [hvalues] at hperm
  exact decodeAs_of_perm hshape hfits hperm

theorem mem_entry {α : Type} {name : String} {encode : α → Json} {o : Option α}
    {e : String × Json} (h : e ∈ entry name encode o) : ∃ a ∈ o, e.2 = encode a := by
  cases o with
  | none => cases h
  | some a =>
      obtain rfl := List.mem_singleton.mp h
      exact ⟨a, rfl, rfl⟩

theorem whole_toJson (hfits : o.Fits) : Whole o.toJson := by
  refine .object fun e he => ?_
  rcases List.mem_append.mp he with he | he
  · rcases List.mem_append.mp he with he | he
    · obtain ⟨n, hn, heq⟩ := mem_entry he
      have hn' := hfits n hn
      rw [heq]
      refine .integer ?_
      rw [Number.fits, Bool.and_eq_true, decide_eq_true_eq, decide_eq_true_eq]
      omega
    · obtain ⟨s, _, heq⟩ := mem_entry he
      rw [heq]
      exact .string s
  · obtain ⟨s, _, heq⟩ := mem_entry he
    rw [heq]
    exact .string s

end Origin

/-! ## Identifiers with origins -/

namespace Core

variable {c : Core} {es : List (String × Json)}

theorem entriesBeside_of_record {name : String} {own : List Field} (hown : Record own es)
    (hcore : Record fields es) : entriesBeside name own (.object es) = .ok es := by
  rw [entriesBeside, hown.check]
  simp only [bind, Except.bind, hcore.check]

theorem ofEntries_of_lookup {m : Json} (hid : es.lookup "element_id" = some (.string c.id.text))
    (hmetadata : es.lookup "metadata" = some m)
    (horigin : Origin.decodeAs Origin.innerShape m = .ok c.origin) : ofEntries es = .ok c := by
  have hid' : field es "element_id" string = .ok c.id.text := field_of_lookup hid (string_string _)
  have horigin' : fieldD es "metadata" (Origin.decodeAs Origin.innerShape) .unknown =
      .ok c.origin := fieldD_of_lookup _ hmetadata horigin
  rw [ofEntries, hid']
  simp only [bind, Except.bind, horigin']

/-- An identifier that is there stays as it is. -/
theorem withId_of_lookup {s : String} (fresh : Id) (hid : es.lookup "element_id" = some (.string s))
    (hs : s ≠ "") : withId fresh (.object es) = .ok (.object es) := by
  have hfound : Id.ofJson (some (.string s)) = .ok (some ⟨s⟩) := by
    rw [Id.ofJson, Id.ofText, if_neg (by simpa using hs)]
    rfl
  rw [withId, hid, hfound]
  show Except.ok (Json.object (Json.setEntry "element_id" (.string s) es)) = _
  rw [Json.setEntry_of_lookup hid]

end Core

/-! ## Paragraphs -/

namespace Paragraph

/-- The kind of a paragraph is decoded from the name of its category. -/
theorem oneOf_category (kind : TextKind) :
    oneOf TextKind.table (.string kind.category.name) = .ok kind := by
  cases kind <;> rfl

variable {p : Paragraph} {m : Json}

/-- The entries of a paragraph whose origin is encoded so. -/
def entries (p : Paragraph) (m : Json) : List (String × Json) :=
  [("type", .string p.kind.category.name), ("element_id", .string p.core.id.text),
    ("metadata", m), ("text", .string p.text)]

theorem toJson_eq (p : Paragraph) : p.toJson = .object (p.entries p.core.origin.toJson) := rfl

theorem nodup_entries (p : Paragraph) (m : Json) : ((p.entries m).map (·.1)).Nodup :=
  show ["type", "element_id", "metadata", "text"].Nodup by decide

theorem record_own (p : Paragraph) (m : Json) : Record fields (p.entries m) where
  nodup := p.nodup_entries m
  passes :=
    (((passes_nil.cons rfl (check_required _ (string_string _))).skip rfl).skip rfl).cons rfl
      (check_defaulted _ (oneOf_category p.kind))
  complete f hf _ := by
    simp only [fields, List.mem_cons, List.not_mem_nil, or_false] at hf
    rcases hf with rfl | rfl <;> rfl

theorem record_core (horigin : Origin.decodeAs Origin.innerShape m = .ok p.core.origin) :
    Record Core.fields (p.entries m) where
  nodup := p.nodup_entries m
  passes :=
    (((passes_nil.skip rfl).cons rfl (check_defaulted _ horigin)).cons rfl
      (check_required _ (string_string _))).skip rfl
  complete f hf _ := by
    simp only [Core.fields, List.mem_cons, List.not_mem_nil, or_false] at hf
    rcases hf with rfl | rfl <;> rfl

section

variable {es : List (String × Json)} (hperm : es.Perm (p.entries m))
  (horigin : Origin.decodeAs Origin.innerShape m = .ok p.core.origin)

include hperm horigin

/-- A paragraph is decoded from its entries in any order. -/
theorem decode_of_perm : decode (.object es) = .ok p := by
  have hown := (p.record_own m).perm hperm
  have hlookup := Json.lookup_perm hperm hown.nodup
  have hkind : fieldD es "type" (oneOf TextKind.table) .text = .ok p.kind :=
    fieldD_of_lookup _ (hlookup _) (oneOf_category p.kind)
  have hcore : Core.ofEntries es = .ok p.core :=
    Core.ofEntries_of_lookup (hlookup _) (hlookup _) horigin
  have htext : field es "text" string = .ok p.text :=
    field_of_lookup (hlookup _) (string_string _)
  rw [decode, Core.entriesBeside_of_record hown ((record_core horigin).perm hperm)]
  simp only [bind, Except.bind, hkind, hcore, htext]

theorem ofJson_of_perm (fresh : Id) (hid : p.core.id.text ≠ "") :
    ofJson fresh (.object es) = .ok p := by
  have hlookup := Json.lookup_perm hperm ((p.record_own m).perm hperm).nodup
  rw [ofJson, Core.withId_of_lookup fresh (hlookup _) hid]
  show (decode (.object es)).mapError _ = _
  rw [decode_of_perm hperm horigin]
  rfl

end

theorem decode_toJson (hfits : p.core.origin.Fits) : decode p.toJson = .ok p :=
  decode_of_perm (.refl _) (Origin.decodeAs_toJson rfl hfits)

/-- The canonical form has the same entries, with the origin in canonical form. -/
theorem canonical_perm (p : Paragraph) :
    (Json.canonicalEntries (p.entries p.core.origin.toJson)).Perm
      (p.entries p.core.origin.toJson.canonical) :=
  Json.canonicalEntries_perm (p.nodup_entries _)

theorem whole_toJson (hfits : p.core.origin.Fits) : Whole p.toJson := by
  refine .object fun e he => ?_
  change e ∈ p.entries p.core.origin.toJson at he
  simp only [entries, List.mem_cons, List.not_mem_nil, or_false] at he
  rcases he with rfl | rfl | rfl | rfl
  · exact .string _
  · exact .string _
  · exact Origin.whole_toJson hfits
  · exact .string _

end Paragraph

/-! ## Names -/

namespace Name

theorem oneOf_category (kind : NameKind) :
    oneOf NameKind.table (.string kind.category.name) = .ok kind := by
  cases kind <;> rfl

variable {n : Name} {m : Json}

/-- The entries of a name whose origin is encoded so. -/
def entries (n : Name) (m : Json) : List (String × Json) :=
  [("type", .string n.kind.category.name), ("element_id", .string n.core.id.text),
    ("metadata", m), ("name", .string n.name), ("text", .string n.text)] ++
    Origin.entry "datestamp" Time.Instant.toJson n.date

theorem toJson_eq (n : Name) : n.toJson = .object (n.entries n.core.origin.toJson) := rfl

theorem nodup_entries (n : Name) (m : Json) : ((n.entries m).map (·.1)).Nodup := by
  rcases n with ⟨kind, core, name, text, _ | date⟩
  · show ["type", "element_id", "metadata", "name", "text"].Nodup
    decide
  · show ["type", "element_id", "metadata", "name", "text", "datestamp"].Nodup
    decide

theorem record_own (n : Name) (m : Json) : Record fields (n.entries m) where
  nodup := n.nodup_entries m
  passes := by
    have hdate : Passes fields (Origin.entry "datestamp" Time.Instant.toJson n.date) :=
      Origin.passes_entry rfl (fun _ _ => Json.noConfusion) fun t _ => instant_toJson t
    exact ((((hdate.cons rfl (check_required _ (string_string _))).cons rfl
      (check_required _ (string_string _))).skip rfl).skip rfl).cons rfl
        (check_defaulted _ (oneOf_category n.kind))
  complete f hf hin := by
    simp only [fields, List.mem_cons, List.not_mem_nil, or_false] at hf
    rcases hf with rfl | rfl | rfl | rfl
    · rfl
    · rfl
    · rfl
    · cases hin

theorem record_core (horigin : Origin.decodeAs Origin.innerShape m = .ok n.core.origin) :
    Record Core.fields (n.entries m) where
  nodup := n.nodup_entries m
  passes := by
    have hdate : Passes Core.fields (Origin.entry "datestamp" Time.Instant.toJson n.date) := by
      cases n.date with
      | none => exact passes_nil
      | some t => exact passes_nil.skip rfl
    exact ((((hdate.skip rfl).skip rfl).cons rfl (check_defaulted _ horigin)).cons rfl
      (check_required _ (string_string _))).skip rfl
  complete f hf _ := by
    simp only [Core.fields, List.mem_cons, List.not_mem_nil, or_false] at hf
    rcases hf with rfl | rfl <;> rfl

theorem lookup_date (n : Name) (m : Json) :
    (n.entries m).lookup "datestamp" = n.date.map Time.Instant.toJson := by
  rcases n with ⟨kind, core, name, text, _ | date⟩ <;> rfl

section

variable {es : List (String × Json)} (hperm : es.Perm (n.entries m))
  (horigin : Origin.decodeAs Origin.innerShape m = .ok n.core.origin)

include hperm horigin

/-- A name is decoded from its entries in any order. -/
theorem decode_of_perm : decode (.object es) = .ok n := by
  have hown := (n.record_own m).perm hperm
  have hlookup := Json.lookup_perm hperm hown.nodup
  have hkind : fieldD es "type" (oneOf NameKind.table) .uncategorized = .ok n.kind :=
    fieldD_of_lookup _ (hlookup _) (oneOf_category n.kind)
  have hcore : Core.ofEntries es = .ok n.core :=
    Core.ofEntries_of_lookup (hlookup _) (hlookup _) horigin
  have hname : field es "name" string = .ok n.name :=
    field_of_lookup (hlookup _) (string_string _)
  have htext : field es "text" string = .ok n.text :=
    field_of_lookup (hlookup _) (string_string _)
  have hdate : fieldD es "datestamp" (Json.Decode.optional instant) none = .ok n.date :=
    fieldD_optional ((hlookup _).trans (n.lookup_date m)) (fun _ _ => Json.noConfusion)
      fun t _ => instant_toJson t
  rw [decode, Core.entriesBeside_of_record hown ((record_core horigin).perm hperm)]
  simp only [bind, Except.bind, hkind, hcore, hname, htext, hdate]

theorem ofJson_of_perm (fresh : Id) (hid : n.core.id.text ≠ "") :
    ofJson fresh (.object es) = .ok n := by
  have hlookup := Json.lookup_perm hperm ((n.record_own m).perm hperm).nodup
  rw [ofJson, Core.withId_of_lookup fresh (hlookup _) hid]
  show (decode (.object es)).mapError _ = _
  rw [decode_of_perm hperm horigin]
  rfl

end

/-- The canonical form has the same entries, with the origin in canonical form. -/
theorem canonical_perm (n : Name) :
    (Json.canonicalEntries (n.entries n.core.origin.toJson)).Perm
      (n.entries n.core.origin.toJson.canonical) := by
  have hperm := Json.canonicalEntries_perm (n.nodup_entries n.core.origin.toJson)
  have hvalues : ((n.entries n.core.origin.toJson).map fun e => (e.1, e.2.canonical)) =
      n.entries n.core.origin.toJson.canonical := by
    rcases n with ⟨kind, core, name, text, _ | date⟩ <;> rfl
  rwa [hvalues] at hperm

theorem whole_toJson (hfits : n.core.origin.Fits) : Whole n.toJson := by
  refine .object fun e he => ?_
  change e ∈ n.entries n.core.origin.toJson at he
  rcases List.mem_append.mp he with he | he
  · simp only [List.mem_cons, List.not_mem_nil, or_false] at he
    rcases he with rfl | rfl | rfl | rfl | rfl
    · exact .string _
    · exact .string _
    · exact Origin.whole_toJson hfits
    · exact .string _
    · exact .string _
  · obtain ⟨t, _, heq⟩ := Origin.mem_entry he
    rw [heq]
    exact .string _

end Name

end Intake.Element
