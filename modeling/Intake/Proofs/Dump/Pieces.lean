import Intake.Dump.Reader
import Intake.Proofs.Attempts
import Mathlib.Data.List.Forall2

/-!
# What the reader makes of a document

A document is taken as a tree of pieces, elements and texts. The reader goes through the
items of the tree; seen from a place, what it accepts is a sequence of pieces up to the end
of the element that the place is in. For each kind of place this is one equivalence, and
together they say which documents are read, and as which texts.
-/

namespace Intake.Dump

/-! ## Pieces -/

/-- A piece of a document: an element with what is inside, a text, none if it has a bad reference,
or a document type. -/
inductive Piece where
  | element (name attributes : List Char) (inside : List Piece)
  | text (content : Option (List Char))
  | doctype

mutual
/-- The items of a piece. -/
def Piece.items : Piece → List Item
  | .element name attributes inside => .start name attributes :: (allItems inside ++ [.stop])
  | .text content => [.text content]
  | .doctype => [.doctype]
/-- The items of pieces, one after the other. -/
def allItems : List Piece → List Item
  | [] => []
  | p :: rest => p.items ++ allItems rest
end

theorem allItems_append (ps qs : List Piece) :
    allItems (ps ++ qs) = allItems ps ++ allItems qs := by
  induction ps with
  | nil => rfl
  | cons p rest ih => rw [List.cons_append, allItems, ih, allItems, List.append_assoc]

theorem allItems_element (name attributes : List Char) (inside ps : List Piece) (rest : List Item) :
    allItems (.element name attributes inside :: ps) ++ rest =
      .start name attributes :: (allItems inside ++ .stop :: (allItems ps ++ rest)) := by
  simp [allItems, Piece.items]

mutual
/-- Items begin with those of one piece only. -/
theorem items_append_inj : ∀ {p q : Piece} {rest rest' : List Item},
    p.items ++ rest = q.items ++ rest' → p = q ∧ rest = rest'
  | .element name attributes inside, .element name' attributes' inside', rest, rest', h => by
      simp only [Piece.items, List.cons_append, List.append_assoc, List.nil_append,
        List.cons.injEq, Item.start.injEq] at h
      obtain ⟨⟨rfl, rfl⟩, h⟩ := h
      obtain ⟨rfl, rfl⟩ := allItems_append_inj h
      exact ⟨rfl, rfl⟩
  | .text content, .text content', rest, rest', h => by
      cases h
      exact ⟨rfl, rfl⟩
  | .doctype, .doctype, rest, rest', h => ⟨rfl, (List.cons.inj h).2⟩
  | .element .., .text _, _, _, h => nomatch h
  | .element .., .doctype, _, _, h => nomatch h
  | .text _, .element .., _, _, h => nomatch h
  | .text _, .doctype, _, _, h => nomatch h
  | .doctype, .element .., _, _, h => nomatch h
  | .doctype, .text _, _, _, h => nomatch h
theorem allItems_append_inj : ∀ {ps qs : List Piece} {rest rest' : List Item},
    allItems ps ++ .stop :: rest = allItems qs ++ .stop :: rest' → ps = qs ∧ rest = rest'
  | [], [], rest, rest', h => ⟨rfl, (List.cons.inj h).2⟩
  | [], .element .. :: _, _, _, h => nomatch h
  | [], .text _ :: _, _, _, h => nomatch h
  | [], .doctype :: _, _, _, h => nomatch h
  | .element .. :: _, [], _, _, h => nomatch h
  | .text _ :: _, [], _, _, h => nomatch h
  | .doctype :: _, [], _, _, h => nomatch h
  | p :: ps, q :: qs, rest, rest', h => by
      rw [allItems, allItems, List.append_assoc, List.append_assoc] at h
      obtain ⟨rfl, hmore⟩ := items_append_inj h
      obtain ⟨rfl, rfl⟩ := allItems_append_inj hmore
      exact ⟨rfl, rfl⟩
end

/-- Whether a piece binds no prefix otherwise than it may, as far as its own tag goes. -/
def Piece.fits : Piece → Bool
  | .element _ attributes _ => bindingsFit attributes
  | _ => true

/-- Whether the first of some pieces fits, if there is one. -/
def firstFits (ps : List Piece) : Bool := ps.head?.all Piece.fits

/-- Whether what is inside an element can be passed over. Behind document types its first child or
text must fit, and so must the first piece in this child and the piece that follows. -/
def passable : List Piece → Bool
  | [] => true
  | .doctype :: rest => passable rest
  | .text content :: rest => content.isSome && firstFits rest
  | .element _ attributes inside :: rest =>
    bindingsFit attributes && firstFits inside && firstFits rest

namespace Piece

def isMessage : Piece → Bool
  | .element name _ _ => localName name = "message".toList
  | _ => false

/-- Whether it is a text of blanks or a document type. -/
def isBlank : Piece → Bool
  | .element .. => false
  | .text content => content.any (·.all Text.isBlank)
  | .doctype => true

def isDoctype : Piece → Bool
  | .doctype => true
  | _ => false

def name? : Piece → Option (List Char)
  | .element name _ _ => some name
  | _ => none

/-- Whether it is no message and can be passed over. -/
def isAside : Piece → Bool
  | .element name attributes inside =>
    localName name ≠ "message".toList && bindingsFit attributes && passable inside
  | .text content => content.isSome
  | .doctype => true

variable {name attributes : List Char} {inside : List Piece}

theorem isMessage_element : (element name attributes inside).isMessage = true ↔
    localName name = "message".toList := decide_eq_true_iff

theorem isAside_element : (element name attributes inside).isAside = true ↔
    localName name ≠ "message".toList ∧ bindingsFit attributes = true ∧
      passable inside = true := by
  rw [isAside, Bool.and_eq_true, Bool.and_eq_true, decide_eq_true_iff, and_assoc]

theorem isMessage_eq_false {p : Piece} (h : p.isAside = true) : p.isMessage = false := by
  cases p with
  | element name attributes inside => exact decide_eq_false (isAside_element.mp h).1
  | text content => rfl
  | doctype => rfl

end Piece

/-- Whether these pieces are one text or none, and document types around it. -/
def HasText (ps : List Piece) (content? : Option (List Char)) : Prop :=
  ps.filter (!·.isDoctype) = content?.toList.map fun content => .text (some content)

/-- The text of a message: after the text `known` that was found already, if any, and with these
pieces still to come. There is one element `text` at most, and nothing but one text is in it; all
else is passed over, texts beside it as well. -/
inductive Told : Option (List Char) → List Piece → List Char → Prop where
  | done (known : Option (List Char)) : Told known [] (known.getD [])
  | beside {p : Piece} {known : Option (List Char)} {rest : List Piece} {content : List Char} :
      p.name? = none → p.isAside = true → Told known rest content → Told known (p :: rest) content
  | passed {name attributes : List Char} {inside : List Piece} {known : Option (List Char)}
      {rest : List Piece} {content : List Char} :
      localName name ≠ "text".toList → bindingsFit attributes = true → passable inside = true →
      Told known rest content → Told known (.element name attributes inside :: rest) content
  | found {name attributes : List Char} {inside : List Piece} {content? : Option (List Char)}
      {rest : List Piece} {content : List Char} :
      localName name = "text".toList → bindingsFit attributes = true → HasText inside content? →
      Told (some (content?.getD [])) rest content →
      Told none (.element name attributes inside :: rest) content

/-- Whether a piece is an element with well-formed attributes and with this text as a message. -/
def Piece.Tells : Piece → String → Prop
  | .element _ attributes inside, words =>
    wellFormed attributes = true ∧ Told none inside words.toList
  | _, _ => False

/-! ## Elements that are passed over -/

variable {is : List Item} {texts : List String} {name : List Char}

/-- A tag of which the attributes are not looked at is accepted if it binds prefixes as it may. -/
theorem textsFrom_skim {place inner : Place} {attributes : List Char} {rest : List Item}
    (h : move place (.start name attributes) = skim attributes (.go inner)) :
    textsFrom place (.start name attributes :: rest) = .ok texts ↔
      bindingsFit attributes = true ∧ textsFrom inner rest = .ok texts := by
  rw [textsFrom, h, skim]
  by_cases hbindings : bindingsFit attributes = true <;> simp [hbindings]

theorem move_skim {stage : Stage} {back : Place} {attributes : List Char} (next : Option Stage)
    (h : stage.next (.start name attributes) = skim attributes next) :
    move (.passed stage back) (.start name attributes) = skim attributes (.go (back.at next)) := by
  rw [move, h, skim, skim]
  split <;> rfl

mutual
theorem textsFrom_items (inChild : Bool) (depth : Nat) (back : Place) (rest : List Item) :
    ∀ p : Piece, textsFrom (.passed (.skip inChild depth) back) (p.items ++ rest) =
      textsFrom (.passed (.skip inChild depth) back) rest
  | .element name attributes inside => by
      rw [Piece.items, List.cons_append, List.append_assoc]
      change textsFrom (.passed (.skip inChild (depth + 1)) back) _ = _
      rw [textsFrom_allItems]
      rfl
  | .text content => by cases depth <;> cases content <;> rfl
  | .doctype => by cases depth <;> rfl
theorem textsFrom_allItems (inChild : Bool) (depth : Nat) (back : Place) (rest : List Item) :
    ∀ ps : List Piece, textsFrom (.passed (.skip inChild depth) back) (allItems ps ++ rest) =
      textsFrom (.passed (.skip inChild depth) back) rest
  | [] => rfl
  | p :: ps => by
      rw [allItems, List.append_assoc, textsFrom_items, textsFrom_allItems]
end

/-- The place behind the element that is skipped, or in the one around it. -/
def outOf (inChild : Bool) (back : Place) : Nat → Place
  | 0 => back.at (Stage.behind inChild)
  | depth + 1 => .passed (.skip inChild depth) back

theorem textsFrom_stop (inChild : Bool) (depth : Nat) (back : Place) (rest : List Item) :
    textsFrom (.passed (.skip inChild depth) back) (.stop :: rest) =
      textsFrom (outOf inChild back depth) rest := by
  cases depth <;> rfl

/-- What is skipped ends, whatever is inside. -/
theorem exists_inside {inChild : Bool} {depth : Nat} {back : Place} : ∀ {is : List Item},
    textsFrom (.passed (.skip inChild depth) back) is = .ok texts →
      ∃ inside rest, is = allItems inside ++ .stop :: rest ∧
        textsFrom (outOf inChild back depth) rest = .ok texts
  | [], h => nomatch h
  | .broken _ :: _, h => by cases depth <;> cases h
  | .stop :: rest, h => ⟨[], rest, rfl, by rwa [textsFrom_stop] at h⟩
  | .text content :: more, h => by
      have h : textsFrom (.passed (.skip inChild depth) back) more = .ok texts := by
        cases depth <;> cases content <;> exact h
      obtain ⟨inside, rest, rfl, hrest⟩ := exists_inside h
      exact ⟨.text content :: inside, rest, rfl, hrest⟩
  | .doctype :: more, h => by
      have h : textsFrom (.passed (.skip inChild depth) back) more = .ok texts := by
        cases depth <;> exact h
      obtain ⟨inside, rest, rfl, hrest⟩ := exists_inside h
      exact ⟨.doctype :: inside, rest, rfl, hrest⟩
  | .start name attributes :: more, h => by
      have h : textsFrom (.passed (.skip inChild (depth + 1)) back) more = .ok texts := by
        cases depth <;> exact h
      obtain ⟨inside, rest, hmore, hrest⟩ := exists_inside h
      -- what is behind the end of this element is no tail that the recursion could follow
      have hshort : rest.length < more.length := by simp [hmore]; omega
      obtain ⟨beside, rest', rfl, hout⟩ := exists_inside hrest
      exact ⟨.element name attributes inside :: beside, rest',
        by rw [hmore, allItems_element], hout⟩
termination_by is => is.length

theorem move_look (inChild : Bool) (back : Place) (name attributes : List Char) :
    move (.passed (.look inChild) back) (.start name attributes) =
      skim attributes (.go (.passed (.skip inChild 1) back)) :=
  move_skim (some (.skip inChild 1)) rfl

theorem move_fresh (back : Place) (name attributes : List Char) :
    move (.passed .fresh back) (.start name attributes) =
      skim attributes (.go (.passed (.look true) back)) :=
  move_skim (some (.look true)) rfl

theorem exists_firstFits {inChild : Bool} {back : Place}
    (h : textsFrom (.passed (.look inChild) back) is = .ok texts) :
    ∃ inside rest, is = allItems inside ++ .stop :: rest ∧ firstFits inside = true ∧
      textsFrom (back.at (Stage.behind inChild)) rest = .ok texts := by
  cases is with
  | nil => cases h
  | cons item more =>
      cases item with
      | broken flaw => cases h
      | stop => exact ⟨[], more, rfl, rfl, h⟩
      | text content =>
          have hmore : textsFrom (.passed (.skip inChild 0) back) more = .ok texts := by
            cases content <;> exact h
          obtain ⟨inside, rest, rfl, hrest⟩ := exists_inside hmore
          exact ⟨.text content :: inside, rest, rfl, rfl, hrest⟩
      | doctype =>
          have hmore : textsFrom (.passed (.skip inChild 0) back) more = .ok texts := h
          obtain ⟨inside, rest, rfl, hrest⟩ := exists_inside hmore
          exact ⟨.doctype :: inside, rest, rfl, rfl, hrest⟩
      | start name attributes =>
          obtain ⟨hbindings, hmore⟩ := (textsFrom_skim (move_look ..)).mp h
          obtain ⟨inside, more', rfl, hmore'⟩ := exists_inside hmore
          obtain ⟨beside, rest, rfl, hrest⟩ := exists_inside hmore'
          exact ⟨.element name attributes inside :: beside, rest, (allItems_element ..).symm,
            hbindings, hrest⟩

theorem textsFrom_firstFits {inChild : Bool} {back : Place} {inside : List Piece}
    (hfits : firstFits inside = true) {rest : List Item}
    (h : textsFrom (back.at (Stage.behind inChild)) rest = .ok texts) :
    textsFrom (.passed (.look inChild) back) (allItems inside ++ .stop :: rest) = .ok texts := by
  have hskip (ps : List Piece) :
      textsFrom (.passed (.skip inChild 0) back) (allItems ps ++ .stop :: rest) = .ok texts := by
    rw [textsFrom_allItems]
    exact h
  cases inside with
  | nil => exact h
  | cons p more =>
      cases p with
      | text content => cases content <;> exact hskip more
      | doctype => exact hskip more
      | element name attributes inside =>
          rw [allItems_element, textsFrom_skim (move_look ..), textsFrom_allItems]
          exact ⟨hfits, hskip more⟩

/-- Where one more thing is looked at, this has to fit. -/
theorem textsFrom_look {inChild : Bool} {back : Place} :
    textsFrom (.passed (.look inChild) back) is = .ok texts ↔
      ∃ inside rest, is = allItems inside ++ .stop :: rest ∧ firstFits inside = true ∧
        textsFrom (back.at (Stage.behind inChild)) rest = .ok texts := by
  constructor
  · exact exists_firstFits
  · rintro ⟨inside, rest, rfl, hfits, h⟩
    exact textsFrom_firstFits hfits h

theorem exists_passable {back : Place} (h : textsFrom (.passed .fresh back) is = .ok texts) :
    ∃ inside rest, is = allItems inside ++ .stop :: rest ∧ passable inside = true ∧
      textsFrom back rest = .ok texts := by
  induction is with
  | nil => cases h
  | cons item more ih =>
      cases item with
      | broken flaw => cases h
      | stop => exact ⟨[], more, rfl, rfl, h⟩
      | doctype =>
          obtain ⟨inside, rest, rfl, hinside, hrest⟩ := ih h
          exact ⟨.doctype :: inside, rest, rfl, hinside, hrest⟩
      | text content =>
          cases content with
          | none => cases h
          | some content =>
              obtain ⟨inside, rest, rfl, hfits, hrest⟩ := textsFrom_look.mp h
              exact ⟨.text (some content) :: inside, rest, rfl, hfits, hrest⟩
      | start name attributes =>
          obtain ⟨hbindings, hmore⟩ := (textsFrom_skim (move_fresh ..)).mp h
          obtain ⟨inside, more', rfl, hinside, hmore'⟩ := textsFrom_look.mp hmore
          obtain ⟨beside, rest, rfl, hbeside, hrest⟩ := textsFrom_look.mp hmore'
          refine ⟨.element name attributes inside :: beside, rest, (allItems_element ..).symm, ?_,
            hrest⟩
          rw [passable, hbindings, hinside, hbeside]
          rfl

theorem textsFrom_passable {back : Place} {inside : List Piece} (hinside : passable inside = true)
    {rest : List Item} (h : textsFrom back rest = .ok texts) :
    textsFrom (.passed .fresh back) (allItems inside ++ .stop :: rest) = .ok texts := by
  induction inside with
  | nil => exact h
  | cons p more ih =>
      cases p with
      | doctype => exact ih hinside
      | text content =>
          rw [passable, Bool.and_eq_true] at hinside
          obtain ⟨content, rfl⟩ := Option.isSome_iff_exists.mp hinside.1
          exact textsFrom_look.mpr ⟨more, rest, rfl, hinside.2, h⟩
      | element name attributes inside =>
          rw [passable, Bool.and_eq_true, Bool.and_eq_true] at hinside
          obtain ⟨⟨hbindings, hin⟩, hmore⟩ := hinside
          rw [allItems_element, textsFrom_skim (move_fresh ..)]
          exact ⟨hbindings, textsFrom_look.mpr ⟨inside, _, rfl, hin,
            textsFrom_look.mpr ⟨more, rest, rfl, hmore, h⟩⟩⟩

/-- An element is passed over if what is inside can be. -/
theorem textsFrom_passed {back : Place} : textsFrom (.passed .fresh back) is = .ok texts ↔
    ∃ inside rest, is = allItems inside ++ .stop :: rest ∧ passable inside = true ∧
      textsFrom back rest = .ok texts := by
  constructor
  · exact exists_passable
  · rintro ⟨inside, rest, rfl, hinside, h⟩
    exact textsFrom_passable hinside h

/-! ## Messages -/

theorem textsFrom_text_doctype (known : Option (List Char)) (rest : List Item) :
    textsFrom (.text name known) (.doctype :: rest) = textsFrom (.text name known) rest := by
  cases known <;> rfl

theorem textsFrom_text_stop (known : Option (List Char)) (rest : List Item) :
    textsFrom (.text name known) (.stop :: rest) =
      textsFrom (.message name (some (known.getD []))) rest := by
  cases known <;> rfl

/-- What is inside the text of a message that is read is one text at most. -/
theorem exists_hasText {known : Option (List Char)}
    (h : textsFrom (.text name known) is = .ok texts) :
    ∃ inside content? rest, is = allItems inside ++ .stop :: rest ∧ HasText inside content? ∧
      (known = none ∨ content? = none) ∧
      textsFrom (.message name (some ((known <|> content?).getD []))) rest = .ok texts := by
  induction is generalizing known with
  | nil => cases h
  | cons item more ih =>
      cases item with
      | start name' attributes => cases known <;> cases h
      | broken flaw => cases known <;> cases h
      | stop =>
          rw [textsFrom_text_stop] at h
          refine ⟨[], none, more, rfl, rfl, .inr rfl, ?_⟩
          rwa [Option.orElse_eq_orElse, Option.orElse_eq_or, Option.or_none]
      | doctype =>
          rw [textsFrom_text_doctype] at h
          obtain ⟨inside, content?, rest, rfl, hrest⟩ := ih h
          exact ⟨.doctype :: inside, content?, rest, rfl, hrest⟩
      | text content =>
          cases content with
          | none => cases known <;> cases h
          | some content =>
              cases known with
              | some known => cases h
              | none =>
                  have hmore : textsFrom (.text name (some content)) more = .ok texts := h
                  obtain ⟨inside, content?, rest, rfl, htext, hnone, hrest⟩ := ih hmore
                  obtain rfl := hnone.resolve_left (Option.some_ne_none content)
                  refine ⟨.text (some content) :: inside, some content, rest, rfl, ?_, .inl rfl,
                    hrest⟩
                  exact congrArg (.text (some content) :: ·) htext

theorem textsFrom_hasText {known content? : Option (List Char)} {inside : List Piece}
    (htext : HasText inside content?) (hnone : known = none ∨ content? = none) {rest : List Item}
    (h : textsFrom (.message name (some ((known <|> content?).getD []))) rest = .ok texts) :
    textsFrom (.text name known) (allItems inside ++ .stop :: rest) = .ok texts := by
  induction inside generalizing known content? with
  | nil =>
      cases content? with
      | some content => cases htext
      | none =>
          rw [Option.orElse_eq_orElse, Option.orElse_eq_or, Option.or_none] at h
          exact (textsFrom_text_stop known rest).trans h
  | cons p more ih =>
      cases p with
      | doctype => exact (textsFrom_text_doctype known _).trans (ih htext hnone h)
      | element name attributes inside => cases content? <;> cases htext
      | text content =>
          cases content? with
          | none => cases htext
          | some content' =>
              obtain rfl := hnone.resolve_right (Option.some_ne_none content')
              obtain ⟨hhead, htail⟩ := List.cons.inj htext
              obtain rfl : content = some content' := by injection hhead
              have hmore : HasText more none := htail
              exact ih hmore (.inr rfl) h

/-- Inside the text of a message there is one text at most. -/
theorem textsFrom_text {known : Option (List Char)} :
    textsFrom (.text name known) is = .ok texts ↔
      ∃ inside content? rest, is = allItems inside ++ .stop :: rest ∧ HasText inside content? ∧
        (known = none ∨ content? = none) ∧
        textsFrom (.message name (some ((known <|> content?).getD []))) rest = .ok texts := by
  constructor
  · exact exists_hasText
  · rintro ⟨inside, content?, rest, rfl, htext, hnone, h⟩
    exact textsFrom_hasText htext hnone h

theorem textsFrom_message_text {name' : List Char} (h : localName name' = "text".toList)
    {attributes : List Char} {rest : List Item} :
    textsFrom (.message name none) (.start name' attributes :: rest) = .ok texts ↔
      bindingsFit attributes = true ∧ textsFrom (.text name none) rest = .ok texts :=
  textsFrom_skim (by rw [move, if_pos h]; rfl)

theorem textsFrom_message_other {name' : List Char} (h : localName name' ≠ "text".toList)
    {known : Option (List Char)} {attributes : List Char} {rest : List Item} :
    textsFrom (.message name known) (.start name' attributes :: rest) = .ok texts ↔
      bindingsFit attributes = true ∧
        textsFrom (.passed .fresh (.message name known)) rest = .ok texts :=
  textsFrom_skim (by rw [move, if_neg h])

/-- A message with a text is read as that text. -/
theorem textsFrom_told {known : Option (List Char)} {inside : List Piece} {content : List Char}
    (h : Told known inside content) {rest : List Item}
    (hrest : textsFrom (.list name) rest = .ok texts) :
    textsFrom (.message name known) (allItems inside ++ .stop :: rest) =
      .ok (String.ofList content :: texts) := by
  induction h with
  | done known =>
      change (textsFrom (.list name) rest).map _ = _
      rw [hrest]
      rfl
  | @beside p _ _ _ hname haside _ ih =>
      cases p with
      | element name attributes inside => cases hname
      | doctype => exact ih
      | text content =>
          obtain ⟨content, rfl⟩ := Option.isSome_iff_exists.mp haside
          exact ih
  | passed hname hbindings hinside _ ih =>
      rw [allItems_element, textsFrom_message_other hname]
      exact ⟨hbindings, textsFrom_passed.mpr ⟨_, _, rfl, hinside, ih⟩⟩
  | found hname hbindings htext _ ih =>
      rw [allItems_element, textsFrom_message_text hname]
      exact ⟨hbindings, textsFrom_text.mpr ⟨_, _, _, rfl, htext, .inl rfl, ih⟩⟩

/-- A message that is read has a text, and the list goes on after it. -/
theorem exists_told {known : Option (List Char)} : ∀ {is : List Item} {texts : List String},
    textsFrom (.message name known) is = .ok texts →
      ∃ inside rest content texts', is = allItems inside ++ .stop :: rest ∧
        Told known inside content ∧ texts = String.ofList content :: texts' ∧
        textsFrom (.list name) rest = .ok texts'
  | [], _, h => nomatch h
  | .broken _ :: _, _, h => nomatch h
  | .text none :: _, _, h => nomatch h
  | .stop :: rest, _, h => by
      obtain ⟨texts', hrest, rfl⟩ := map_eq_ok.mp h
      exact ⟨[], rest, known.getD [], texts', rfl, .done known, rfl, hrest⟩
  | .text (some words) :: more, texts, h => by
      have hmore : textsFrom (.message name known) more = .ok texts := h
      obtain ⟨inside, rest, content, texts', rfl, htold, rfl, hrest⟩ := exists_told hmore
      exact ⟨.text (some words) :: inside, rest, content, texts', rfl, .beside rfl rfl htold, rfl,
        hrest⟩
  | .doctype :: more, texts, h => by
      have hmore : textsFrom (.message name known) more = .ok texts := h
      obtain ⟨inside, rest, content, texts', rfl, htold, rfl, hrest⟩ := exists_told hmore
      exact ⟨.doctype :: inside, rest, content, texts', rfl, .beside rfl rfl htold, rfl, hrest⟩
  | .start name' attributes :: more, _, h => by
      by_cases hname : localName name' = "text".toList
      · cases known with
        | some known =>
            rw [textsFrom, move, if_pos hname] at h
            cases h
        | none =>
            obtain ⟨hbindings, htext⟩ := (textsFrom_message_text hname).mp h
            obtain ⟨inner, content?, more', rfl, hinner, _, hmore⟩ := textsFrom_text.mp htext
            obtain ⟨inside, rest, content, texts', rfl, htold, rfl, hrest⟩ := exists_told hmore
            exact ⟨.element name' attributes inner :: inside, rest, content, texts',
              (allItems_element ..).symm, .found hname hbindings hinner htold, rfl, hrest⟩
      · obtain ⟨hbindings, hpassed⟩ := (textsFrom_message_other hname).mp h
        obtain ⟨passed, more', rfl, hinner, hmore⟩ := textsFrom_passed.mp hpassed
        obtain ⟨inside, rest, content, texts', rfl, htold, rfl, hrest⟩ := exists_told hmore
        exact ⟨.element name' attributes passed :: inside, rest, content, texts',
          (allItems_element ..).symm, .passed hname hbindings hinner htold, rfl, hrest⟩
termination_by is => is.length

/-- Inside a message stands what has a text, and the list goes on after it. -/
theorem textsFrom_message : textsFrom (.message name none) is = .ok texts ↔
    ∃ inside rest content texts', is = allItems inside ++ .stop :: rest ∧
      Told none inside content ∧ texts = String.ofList content :: texts' ∧
      textsFrom (.list name) rest = .ok texts' := by
  constructor
  · exact exists_told
  · rintro ⟨inside, rest, content, texts', rfl, htold, rfl, hrest⟩
    exact textsFrom_told htold hrest

/-! ## Children of the root -/

/-- An element is entered if its attributes are well formed. -/
theorem textsFrom_enter {place inner : Place} {attributes : List Char} {rest : List Item}
    (h : move place (.start name attributes) = enter attributes inner) :
    textsFrom place (.start name attributes :: rest) = .ok texts ↔
      wellFormed attributes = true ∧ textsFrom inner rest = .ok texts := by
  rw [textsFrom, h, enter]
  by_cases hattributes : wellFormed attributes = true <;> simp [hattributes]

/-- Where only blanks may stand a text is passed over if it is blank. -/
theorem textsFrom_blankOnly {place : Place} {content : List Char} {rest : List Item}
    (h : move place (.text (some content)) = blankOnly place content) :
    textsFrom place (.text (some content) :: rest) = .ok texts ↔
      content.all Text.isBlank = true ∧ textsFrom place rest = .ok texts := by
  rw [textsFrom, h, blankOnly]
  by_cases hcontent : content.all Text.isBlank = true <;> simp [hcontent]

/-- Whether a message with this name may stand at a place: it is the first one, or it goes on
with the list. -/
def Awaits (name : List Char) (place : Place) : Prop := place = .root false ∨ place = .list name

theorem Awaits.move {place : Place} (h : Awaits name place)
    (hname : localName name = "message".toList) (attributes : List Char) :
    move place (.start name attributes) = enter attributes (.message name none) := by
  rcases h with rfl | rfl
  · rw [Dump.move, rootChild, if_pos hname]
    rfl
  · exact if_pos rfl

theorem textsFrom_root_other {listed : Bool} (h : localName name ≠ "message".toList)
    {attributes : List Char} {rest : List Item} :
    textsFrom (.root listed) (.start name attributes :: rest) = .ok texts ↔
      bindingsFit attributes = true ∧
        textsFrom (.passed .fresh (.root listed)) rest = .ok texts :=
  textsFrom_skim (by rw [move, rootChild, if_neg h])

theorem textsFrom_aside {listed : Bool} {ps : List Piece} (h : ∀ p ∈ ps, p.isAside = true)
    {rest : List Item} (hrest : textsFrom (.root listed) rest = .ok texts) :
    textsFrom (.root listed) (allItems ps ++ rest) = .ok texts := by
  induction ps with
  | nil => exact hrest
  | cons p ps ih =>
      obtain ⟨hp, hps⟩ := List.forall_mem_cons.mp h
      cases p with
      | element name attributes inside =>
          obtain ⟨hname, hbindings, hinside⟩ := Piece.isAside_element.mp hp
          rw [allItems_element, textsFrom_root_other hname]
          exact ⟨hbindings, textsFrom_passed.mpr ⟨inside, _, rfl, hinside, ih hps⟩⟩
      | text content =>
          obtain ⟨content, rfl⟩ := Option.isSome_iff_exists.mp hp
          exact ih hps
      | doctype => exact ih hps

/-- What follows the pieces that are passed over: the end of the root or its first message. -/
inductive Ahead : Bool → List Item → List String → Prop where
  | done (listed : Bool) (rest : List Item) : Ahead listed (.stop :: rest) []
  | message {name attributes : List Char} {rest : List Item} {texts : List String} :
      localName name = "message".toList → wellFormed attributes = true →
      textsFrom (.message name none) rest = .ok texts →
      Ahead false (.start name attributes :: rest) texts

theorem exists_ahead {listed : Bool} : ∀ {is : List Item},
    textsFrom (.root listed) is = .ok texts →
      ∃ front rest, is = allItems front ++ rest ∧ (∀ p ∈ front, p.isAside = true) ∧
        Ahead listed rest texts
  | [], h => nomatch h
  | .broken _ :: _, h => nomatch h
  | .text none :: _, h => nomatch h
  | .stop :: rest, h => by
      cases h
      exact ⟨[], _, rfl, List.forall_mem_nil _, .done listed rest⟩
  | .text (some content) :: more, h => by
      have hmore : textsFrom (.root listed) more = .ok texts := h
      obtain ⟨front, rest, rfl, hfront, hrest⟩ := exists_ahead hmore
      exact ⟨.text (some content) :: front, rest, rfl, List.forall_mem_cons.mpr ⟨rfl, hfront⟩,
        hrest⟩
  | .doctype :: more, h => by
      have hmore : textsFrom (.root listed) more = .ok texts := h
      obtain ⟨front, rest, rfl, hfront, hrest⟩ := exists_ahead hmore
      exact ⟨.doctype :: front, rest, rfl, List.forall_mem_cons.mpr ⟨rfl, hfront⟩, hrest⟩
  | .start name attributes :: more, h => by
      by_cases hname : localName name = "message".toList
      · cases listed with
        | true =>
            rw [textsFrom, move, rootChild, if_pos hname] at h
            cases h
        | false =>
            obtain ⟨hattributes, hmore⟩ := (textsFrom_enter (Awaits.move (.inl rfl) hname _)).mp h
            exact ⟨[], _, rfl, List.forall_mem_nil _, .message hname hattributes hmore⟩
      · obtain ⟨hbindings, hpassed⟩ := (textsFrom_root_other hname).mp h
        obtain ⟨passed, more', rfl, hinside, hmore⟩ := textsFrom_passed.mp hpassed
        obtain ⟨front, rest, rfl, hfront, hrest⟩ := exists_ahead hmore
        exact ⟨.element name attributes passed :: front, rest, (allItems_element ..).symm,
          List.forall_mem_cons.mpr
            ⟨Piece.isAside_element.mpr ⟨hname, hbindings, hinside⟩, hfront⟩, hrest⟩
termination_by is => is.length

/-- Whether a piece may stand in a list of messages with this name. -/
def InList (name : List Char) (p : Piece) : Prop := p.isBlank = true ∨ p.name? = some name

/-- Whether the pieces that are passed over begin with an element, if there are any. -/
def AfterList (ps : List Piece) : Prop := ∀ p ∈ ps.head?, p.name?.isSome = true

/-- What begins with the start of an element begins with one. -/
theorem afterList_of_start {attributes : List Char} {back : List Piece} {more rest : List Item}
    (h : .start name attributes :: more = allItems back ++ rest) : AfterList back := by
  intro p hp
  cases back with
  | nil => cases hp
  | cons q ps =>
      obtain rfl := Option.some.inj hp
      cases q with
      | element name attributes inside => rfl
      | text content => cases h
      | doctype => cases h

theorem textsFrom_list_other {name' : List Char} (hname : name' ≠ name) (attributes : List Char)
    (rest : List Item) :
    textsFrom (.list name) (.start name' attributes :: rest) =
      textsFrom (.root true) (.start name' attributes :: rest) := by
  rw [textsFrom, move, if_neg hname, textsFrom, move]

/-- A list is left at the end of the root, or by an element that is passed over. -/
theorem textsFrom_back {place : Place} (hplace : Awaits name place)
    (hname : localName name = "message".toList) {back : List Piece}
    (hback : ∀ p ∈ back, p.isAside = true) (hafter : AfterList back) (rest : List Item) :
    textsFrom place (allItems back ++ .stop :: rest) = .ok [] := by
  rcases hplace with rfl | rfl
  · exact textsFrom_aside hback rfl
  · cases back with
    | nil => rfl
    | cons p more =>
        cases p with
        | text content => cases hafter _ rfl
        | doctype => cases hafter _ rfl
        | element name' attributes inside =>
            -- a message has this name, and what is passed over is none
            have hother : name' ≠ name := by
              rintro rfl
              exact (Piece.isAside_element.mp (hback _ List.mem_cons_self)).1 hname
            have hseen : textsFrom (.root true)
                (allItems (.element name' attributes inside :: more) ++ .stop :: rest) = .ok [] :=
              textsFrom_aside hback rfl
            rw [allItems_element] at hseen ⊢
            rwa [textsFrom_list_other hother]

theorem textsFrom_run {place : Place} (hplace : Awaits name place)
    (hname : localName name = "message".toList) {run back : List Piece}
    (hrun : ∀ p ∈ run, InList name p) (hback : ∀ p ∈ back, p.isAside = true)
    (hafter : AfterList back) (htexts : List.Forall₂ Piece.Tells (run.filter Piece.isMessage) texts)
    (rest : List Item) :
    textsFrom place (allItems (run ++ back) ++ .stop :: rest) = .ok texts := by
  induction run generalizing place texts with
  | nil =>
      cases htexts
      exact textsFrom_back hplace hname hback hafter rest
  | cons p run ih =>
      obtain ⟨hp, hmore⟩ := List.forall_mem_cons.mp hrun
      cases p with
      | doctype => rcases hplace with rfl | rfl <;> exact ih (by simp [Awaits]) hmore htexts
      | text content =>
          rcases hp with hblank | hp
          · cases content with
            | none => cases hblank
            | some content =>
                have hrest := ih hplace hmore htexts
                rcases hplace with rfl | rfl
                · exact hrest
                · exact (textsFrom_blankOnly rfl).mpr ⟨hblank, hrest⟩
          · cases hp
      | element name' attributes inside =>
          rcases hp with hblank | hp
          · cases hblank
          · obtain rfl : name' = name := Option.some.inj hp
            rw [List.filter_cons_of_pos (Piece.isMessage_element.mpr hname)] at htexts
            obtain ⟨text, texts', ⟨hattributes, htold⟩, htexts', rfl⟩ :=
              List.forall₂_cons_left_iff.mp htexts
            rw [List.cons_append, allItems_element]
            refine (textsFrom_enter (hplace.move hname _)).mpr ⟨hattributes, ?_⟩
            rw [textsFrom_told htold (ih (.inr rfl) hmore htexts'), String.ofList_toList]

theorem exists_run (hname : localName name = "message".toList) : ∀ {is : List Item}
    {texts : List String}, textsFrom (.list name) is = .ok texts →
      ∃ run back rest, is = allItems (run ++ back) ++ .stop :: rest ∧
        (∀ p ∈ run, InList name p) ∧ (∀ p ∈ back, p.isAside = true) ∧ AfterList back ∧
        List.Forall₂ Piece.Tells (run.filter Piece.isMessage) texts
  | [], _, h => nomatch h
  | .broken _ :: _, _, h => nomatch h
  | .text none :: _, _, h => nomatch h
  | .stop :: rest, _, h => by
      cases h
      exact ⟨[], [], rest, rfl, List.forall_mem_nil _, List.forall_mem_nil _, nofun, .nil⟩
  | .text (some content) :: more, _, h => by
      obtain ⟨hcontent, hmore⟩ := (textsFrom_blankOnly rfl).mp h
      obtain ⟨run, back, rest, rfl, hrun, hback⟩ := exists_run hname hmore
      exact ⟨.text (some content) :: run, back, rest, rfl,
        List.forall_mem_cons.mpr ⟨.inl hcontent, hrun⟩, hback⟩
  | .doctype :: more, _, h => by
      have hmore : textsFrom (.list name) more = .ok _ := h
      obtain ⟨run, back, rest, rfl, hrun, hback⟩ := exists_run hname hmore
      exact ⟨.doctype :: run, back, rest, rfl, List.forall_mem_cons.mpr ⟨.inl rfl, hrun⟩, hback⟩
  | .start name' attributes :: more, _, h => by
      by_cases hsame : name' = name
      · subst name'
        obtain ⟨hattributes, hmore⟩ := (textsFrom_enter (Awaits.move (.inr rfl) hname _)).mp h
        obtain ⟨inside, more', content, texts', rfl, htold, rfl, hlist⟩ :=
          textsFrom_message.mp hmore
        obtain ⟨run, back, rest, rfl, hrun, hback, hafter, htexts⟩ := exists_run hname hlist
        refine ⟨.element name attributes inside :: run, back, rest,
          (allItems_element ..).symm, List.forall_mem_cons.mpr ⟨.inr rfl, hrun⟩, hback, hafter, ?_⟩
        rw [List.filter_cons_of_pos (Piece.isMessage_element.mpr hname)]
        exact .cons ⟨hattributes, by rwa [String.toList_ofList]⟩ htexts
      · -- from here on no message is read any more
        rw [textsFrom_list_other hsame] at h
        obtain ⟨back, rest, heq, hback, hahead⟩ := exists_ahead h
        cases hahead with
        | done _ rest =>
            exact ⟨[], back, rest, heq, List.forall_mem_nil _, hback, afterList_of_start heq, .nil⟩
termination_by is => is.length

/-! ## Documents -/

/-- Whether a root with these children is read as these texts. -/
structure Dumped (children : List Piece) (texts : List String) : Prop where
  /-- There is one text for each message, in their order. -/
  told : List.Forall₂ Piece.Tells (children.filter Piece.isMessage) texts
  /-- The messages have one name and stand together, with nothing but blanks between them. Behind
  them stands nothing or an element. All else among the children is passed over. -/
  together : ∃ name front run back, children = front ++ (run ++ back) ∧
    localName name = "message".toList ∧ (∀ p ∈ front, p.isAside = true) ∧
    (∀ p ∈ run, InList name p) ∧ (∀ p ∈ back, p.isAside = true) ∧ AfterList back

theorem filter_isMessage {ps : List Piece} (h : ∀ p ∈ ps, p.isAside = true) :
    ps.filter Piece.isMessage = [] := by
  rw [List.filter_eq_nil_iff]
  intro p hp
  rw [Piece.isMessage_eq_false (h p hp)]
  exact Bool.false_ne_true

theorem filter_together {front run back : List Piece} (hfront : ∀ p ∈ front, p.isAside = true)
    (hback : ∀ p ∈ back, p.isAside = true) :
    (front ++ (run ++ back)).filter Piece.isMessage = run.filter Piece.isMessage := by
  rw [List.filter_append, List.filter_append, filter_isMessage hfront, filter_isMessage hback,
    List.nil_append, List.append_nil]

/-- Children that are all passed over have no text. -/
theorem dumped_aside {children : List Piece} (h : ∀ p ∈ children, p.isAside = true) :
    Dumped children [] where
  told := by
    rw [filter_isMessage h]
    exact .nil
  together := ⟨"message".toList, children, [], [], by simp, rfl, h, List.forall_mem_nil _,
    List.forall_mem_nil _, nofun⟩

theorem textsFrom_root : textsFrom (.root false) is = .ok texts ↔
    ∃ children rest, is = allItems children ++ .stop :: rest ∧ Dumped children texts := by
  constructor
  · intro h
    obtain ⟨front, more, rfl, hfront, hahead⟩ := exists_ahead h
    cases hahead with
    | done _ rest => exact ⟨front, rest, rfl, dumped_aside hfront⟩
    | @message name attributes more _ hname hattributes hmore =>
        -- the first message, and what the list after it makes of the rest
        obtain ⟨inside, more', content, texts', rfl, htold, rfl, hlist⟩ :=
          textsFrom_message.mp hmore
        obtain ⟨run, back, rest, rfl, hrun, hback, hafter, htexts⟩ := exists_run hname hlist
        refine ⟨front ++ (.element name attributes inside :: run ++ back), rest, ?_, ?_, name,
          front, .element name attributes inside :: run, back, rfl, hname, hfront,
          List.forall_mem_cons.mpr ⟨.inr rfl, hrun⟩, hback, hafter⟩
        · rw [allItems_append front, List.append_assoc, List.cons_append, allItems_element]
        · rw [filter_together hfront hback,
            List.filter_cons_of_pos (Piece.isMessage_element.mpr hname)]
          exact .cons ⟨hattributes, by rwa [String.toList_ofList]⟩ htexts
  · rintro ⟨children, rest, rfl, htold, name, front, run, back, rfl, hname, hfront, hrun, hback,
      hafter⟩
    rw [filter_together hfront hback] at htold
    rw [allItems_append front, List.append_assoc]
    exact textsFrom_aside hfront (textsFrom_run (.inl rfl) hname hrun hback hafter htold rest)

/-- Whether a piece is an element that is read as these texts, if it is the root. -/
def Piece.IsDump : Piece → List String → Prop
  | .element _ attributes children, texts => wellFormed attributes = true ∧ Dumped children texts
  | _, _ => False

def Item.isBlank : Item → Bool
  | .text (some content) => content.all Text.isBlank
  | .doctype => true
  | _ => false

/-- Whether items begin with those of this piece, but for blanks and document types in front. -/
def StartsWith (root : Piece) (is : List Item) : Prop :=
  ∃ rest, is.dropWhile Item.isBlank = root.items ++ rest

theorem textsFrom_outside : textsFrom .outside is = .ok texts ↔
    ∃ root, StartsWith root is ∧ root.IsDump texts := by
  induction is with
  | nil =>
      constructor
      · nofun
      · rintro ⟨root, ⟨rest, h⟩, hroot⟩
        cases root <;> cases h
  | cons item more ih =>
      by_cases hblank : item.isBlank = true
      · have hstarts (root : Piece) : StartsWith root (item :: more) ↔ StartsWith root more := by
          rw [StartsWith, List.dropWhile_cons_of_pos hblank, StartsWith]
        simp only [hstarts, ← ih]
        cases item with
        | text content =>
            cases content with
            | some content => exact (textsFrom_blankOnly rfl).trans (and_iff_right hblank)
            | none => cases hblank
        | doctype => exact Iff.rfl
        | _ => cases hblank
      · have hstarts (root : Piece) :
            StartsWith root (item :: more) ↔ ∃ rest, item :: more = root.items ++ rest := by
          rw [StartsWith, List.dropWhile_cons_of_neg hblank]
        simp only [hstarts]
        constructor
        · intro h
          cases item with
          | broken flaw => cases h
          | stop => cases h
          | doctype => exact absurd rfl hblank
          | start name attributes =>
              obtain ⟨hattributes, hmore⟩ := (textsFrom_enter rfl).mp h
              obtain ⟨children, rest, rfl, hchildren⟩ := textsFrom_root.mp hmore
              refine ⟨.element name attributes children, ⟨rest, ?_⟩, hattributes, hchildren⟩
              simp [Piece.items]
          | text content =>
              cases content with
              | none => cases h
              | some content => exact absurd ((textsFrom_blankOnly rfl).mp h).1 hblank
        · rintro ⟨root, ⟨rest, heq⟩, hroot⟩
          cases root with
          | text content => cases hroot
          | doctype => cases hroot
          | element name attributes children =>
              cases heq
              exact (textsFrom_enter rfl).mpr
                ⟨hroot.1, textsFrom_root.mpr ⟨children, rest, List.append_assoc .., hroot.2⟩⟩

/-- Whether a document has this root. What follows the root is not looked at. -/
def HasRoot (s : String) (root : Piece) : Prop := StartsWith root (items s.toList)

theorem HasRoot.unique {s : String} {root root' : Piece} (h : HasRoot s root)
    (h' : HasRoot s root') : root = root' := by
  obtain ⟨rest, h⟩ := h
  obtain ⟨rest', h'⟩ := h'
  exact (items_append_inj (h.symm.trans h')).1

/-- A document is read as some texts if its root, of whatever name, is a dump of them. -/
theorem read_eq_ok {s : String} :
    read s = .ok texts ↔ ∃ root, HasRoot s root ∧ root.IsDump texts := textsFrom_outside

/-- A document of another kind, with no message among the children of its root, is read as a dump
without texts. -/
theorem read_of_no_message {s : String} {name attributes : List Char} {children : List Piece}
    (hroot : HasRoot s (.element name attributes children))
    (hattributes : wellFormed attributes = true)
    (hchildren : ∀ p ∈ children, p.isAside = true) : read s = .ok [] :=
  read_eq_ok.mpr ⟨_, hroot, hattributes, dumped_aside hchildren⟩

end Intake.Dump
