import Intake.Files.System
import Intake.Proofs.Text.Split

/-!
# Names within directories

The path of an ordinary name within a directory has the names of the directory and that
name after them; it names the place of that name below the location of the directory.
Taking the last component away, or the components that lead nowhere, changes no location.
-/

namespace Intake

namespace Files.Path

/-- The name of something within a directory: a single component that leads on. -/
structure OrdinaryName (name : String) : Prop where
  nonempty : name ≠ ""
  single : '/' ∉ name.toList
  leadsOn : FileSystem.isDots name = false

instance (name : String) : Decidable (OrdinaryName name) :=
  decidable_of_iff (name ≠ "" ∧ '/' ∉ name.toList ∧ FileSystem.isDots name = false)
    ⟨fun h => ⟨h.1, h.2.1, h.2.2⟩, fun h => ⟨h.nonempty, h.single, h.leadsOn⟩⟩

theorem OrdinaryName.ne_dot {name : String} (h : OrdinaryName name) : name ≠ "." := by
  rintro rfl
  exact Bool.noConfusion h.leadsOn

theorem OrdinaryName.ne_dots {name : String} (h : OrdinaryName name) : name ≠ ".." := by
  rintro rfl
  exact Bool.noConfusion h.leadsOn

theorem OrdinaryName.head? {name : String} (h : OrdinaryName name) :
    name.toList.head? ≠ some '/' :=
  fun heq => h.single (List.mem_of_head? heq)

/-! ## Names of a text -/

def namesIn (cs : List Char) : List String :=
  ((Text.splitAt '/' cs).filter (!·.isEmpty)).map String.ofList

theorem names_eq (p : Path) : p.names = namesIn p.text.toList := rfl

theorem namesIn_nil : namesIn [] = [] := rfl

theorem namesIn_slash (front back : List Char) :
    namesIn (front ++ '/' :: back) = namesIn front ++ namesIn back := by
  rw [namesIn, Text.splitAt_append, List.filter_append, List.map_append]
  rfl

theorem namesIn_name {name : String} (hne : name ≠ "") (h : '/' ∉ name.toList) :
    namesIn name.toList = [name] := by
  have hcs : name.toList ≠ [] := fun heq => hne (String.toList_eq_nil_iff.mp heq)
  rw [namesIn, Text.splitAt_of_notMem h, List.filter_cons_of_pos (by simpa using hcs)]
  simp

theorem mem_names {p : Path} {name : String} (h : name ∈ p.names) :
    name ≠ "" ∧ '/' ∉ name.toList := by
  obtain ⟨piece, hpiece, rfl⟩ := List.mem_map.mp h
  obtain ⟨hsplit, hne⟩ := List.mem_filter.mp hpiece
  rw [String.toList_ofList]
  refine ⟨?_, Text.notMem_of_mem_splitAt hsplit⟩
  intro heq
  have hnil : piece = [] := by simpa using congrArg String.toList heq
  simp [hnil] at hne

/-- A path that has no names is empty or consists of slashes. -/
theorem slash_of_names_nil {p : Path} (h : p.names = []) {c : Char} (hc : c ∈ p.text.toList) :
    c = '/' := by
  refine Decidable.byContradiction fun hne => ?_
  rw [names_eq, namesIn, List.map_eq_nil_iff, List.filter_eq_nil_iff] at h
  obtain ⟨piece, hpiece, hmem⟩ := Text.mem_splitAt_of_mem hne hc
  have hempty := h piece hpiece
  rw [Bool.not_eq_true, Bool.not_eq_false', List.isEmpty_iff] at hempty
  rw [hempty] at hmem
  cases hmem

theorem endsInSlash_of_names_nil {p : Path} (h : p.names = []) (hne : p.text ≠ "") :
    p.endsInSlash = true := by
  have htext : p.text.toList ≠ [] := fun heq => hne (String.toList_eq_nil_iff.mp heq)
  rw [endsInSlash, List.getLast?_eq_some_getLast htext,
    slash_of_names_nil h (List.getLast_mem htext)]
  rfl

/-! ## A name within a directory -/

/-- What the text of a name within a directory can look like. -/
theorem toList_join (p : Path) {name : String} (h : name.toList.head? ≠ some '/') :
    p.text = "" ∧ (p.join name).text.toList = name.toList ∨
      (∃ front, p.text.toList = front ++ ['/'] ∧
        (p.join name).text.toList = front ++ '/' :: name.toList) ∨
      p.text ≠ "" ∧ (p.join name).text.toList = p.text.toList ++ '/' :: name.toList := by
  rw [join, if_neg h]
  by_cases hempty : p.text = ""
  · left
    simp [hempty]
  · right
    by_cases hslash : p.text.toList.getLast? = some '/'
    · left
      obtain ⟨front, hfront⟩ := List.getLast?_eq_some_iff.mp hslash
      refine ⟨front, hfront, ?_⟩
      simp [hfront]
    · right
      refine ⟨hempty, ?_⟩
      simp [hempty, hslash]

/-- Different names within a directory are different paths, unless they begin at the root. -/
theorem join_inj {p : Path} {a b : String} (ha : a.toList.head? ≠ some '/')
    (hb : b.toList.head? ≠ some '/') : p.join a = p.join b ↔ a = b := by
  rw [join, join, if_neg ha, if_neg hb]
  split
  · rw [Path.mk.injEq, String.append_right_inj]
  · rw [Path.mk.injEq, String.append_right_inj]

theorem names_join_piece (p : Path) {name : String} (hne : name ≠ "") (hslash : '/' ∉ name.toList) :
    (p.join name).names = p.names ++ [name] := by
  have hname := namesIn_name hne hslash
  have hhead : name.toList.head? ≠ some '/' := fun heq => hslash (List.mem_of_head? heq)
  rw [names_eq, names_eq p]
  rcases toList_join p hhead with ⟨hempty, htext⟩ | ⟨front, hfront, htext⟩ | ⟨_, htext⟩
  · rw [htext, hname, hempty]
    rfl
  · rw [htext, hfront, namesIn_slash, namesIn_slash, hname, namesIn_nil, List.append_nil]
  · rw [htext, namesIn_slash, hname]

theorem names_join (p : Path) {name : String} (h : OrdinaryName name) :
    (p.join name).names = p.names ++ [name] :=
  names_join_piece p h.nonempty h.single

theorem isAbsolute_join (p : Path) {name : String} (h : OrdinaryName name) :
    (p.join name).isAbsolute = p.isAbsolute := by
  have hname : name.toList ≠ [] := fun heq => h.nonempty (String.toList_eq_nil_iff.mp heq)
  rw [isAbsolute, isAbsolute]
  rcases toList_join p h.head? with ⟨hempty, htext⟩ | ⟨front, hfront, htext⟩ | ⟨hne, htext⟩
  · rw [htext, hempty]
    simpa using h.head?
  · rw [htext, hfront]
    cases front <;> rfl
  · rw [htext]
    cases hp : p.text.toList with
    | nil => exact absurd (String.toList_eq_nil_iff.mp hp) hne
    | cons c rest => rfl

theorem endsInSlash_join (p : Path) {name : String} (h : OrdinaryName name) :
    (p.join name).endsInSlash = false := by
  have hname : name.toList ≠ [] := fun heq => h.nonempty (String.toList_eq_nil_iff.mp heq)
  have hlast : (p.join name).text.toList.getLast? = name.toList.getLast? := by
    have hback (front : List Char) :
        (front ++ '/' :: name.toList).getLast? = name.toList.getLast? := by
      obtain ⟨c, hc⟩ := Option.isSome_iff_exists.mp (List.getLast?_isSome.mpr hname)
      rw [List.getLast?_append, List.getLast?_cons_of_ne_nil hname, hc, Option.some_or]
    rcases toList_join p h.head? with ⟨_, htext⟩ | ⟨front, _, htext⟩ | ⟨_, htext⟩
    · rw [htext]
    · rw [htext, hback]
    · rw [htext, hback]
  rw [endsInSlash, hlast, beq_eq_false_iff_ne]
  exact fun heq => h.single (List.mem_of_getLast? heq)

theorem text_join_ne_empty (p : Path) {name : String} (h : OrdinaryName name) :
    (p.join name).text ≠ "" := by
  intro heq
  have hnil : (p.join name).names = [] := by rw [names_eq, heq]; rfl
  rw [names_join p h] at hnil
  simp at hnil

theorem origin_join (p : Path) (cwd : Location) {name : String} (h : OrdinaryName name) :
    (p.join name).origin cwd = p.origin cwd := by
  rw [origin, origin, isAbsolute_join p h]

theorem enter_of_ordinary (loc : Location) {name : String} (h : OrdinaryName name) :
    loc.enter name = loc ++ [name] := by
  rw [Location.enter, if_neg h.ne_dot, if_neg h.ne_dots]

theorem location_join (p : Path) (cwd : Location) {name : String} (h : OrdinaryName name) :
    (p.join name).location cwd = p.location cwd ++ [name] := by
  rw [location, location, names_join p h, origin_join p cwd h, List.foldl_append,
    List.foldl_cons, List.foldl_nil, enter_of_ordinary _ h]

/-! ## Components -/

theorem filter_enter (names : List String) (loc : Location) :
    (names.filter (· ≠ ".")).foldl Location.enter loc = names.foldl Location.enter loc := by
  induction names generalizing loc with
  | nil => rfl
  | cons name rest ih =>
      by_cases hdot : name = "."
      · rw [List.filter_cons_of_neg (by simpa using hdot), ih, List.foldl_cons, Location.enter,
          if_pos hdot]
      · rw [List.filter_cons_of_pos (by simpa using hdot), List.foldl_cons, List.foldl_cons, ih]

/-- Whether some names are left when `.` is taken out of others, but for one at the
beginning. -/
def LeftOf (names kept : List String) : Prop :=
  names.filter (· ≠ ".") = kept ∨
    ∃ rest, names = "." :: rest ∧ kept = "." :: rest.filter (· ≠ ".")

theorem LeftOf.enter {names kept : List String} (h : LeftOf names kept) (loc : Location) :
    kept.foldl Location.enter loc = names.foldl Location.enter loc := by
  rcases h with rfl | ⟨rest, rfl, rfl⟩
  · exact filter_enter names loc
  · exact filter_enter rest loc

theorem LeftOf.mem {names kept : List String} (h : LeftOf names kept) {name : String}
    (hname : name ∈ kept) : name ∈ names := by
  rcases h with rfl | ⟨rest, rfl, rfl⟩
  · exact (List.mem_filter.mp hname).1
  · rcases List.mem_cons.mp hname with rfl | hname
    · exact List.mem_cons_self
    · exact List.mem_cons_of_mem _ (List.mem_filter.mp hname).1

/-- A beginning of what is left is left of a beginning. -/
theorem LeftOf.append {names front back : List String} (h : LeftOf names (front ++ back)) :
    ∃ front' back', names = front' ++ back' ∧ LeftOf front' front ∧
      back'.filter (· ≠ ".") = back.filter (· ≠ ".") := by
  rcases h with h | ⟨rest, rfl, h⟩
  · obtain ⟨front', back', rfl, hfront, hback⟩ := List.filter_eq_append_iff.mp h
    refine ⟨front', back', rfl, Or.inl hfront, ?_⟩
    rw [← hback, List.filter_filter]
    simp
  · -- the `.` at the beginning falls to the front, unless that is empty
    cases front with
    | nil =>
        refine ⟨[], "." :: rest, rfl, Or.inl rfl, ?_⟩
        rw [List.nil_append] at h
        rw [h]
        simp
    | cons first front =>
        obtain ⟨rfl, hrest⟩ := List.cons.inj h
        obtain ⟨front', back', rfl, hfront, hback⟩ :=
          List.filter_eq_append_iff.mp hrest.symm
        refine ⟨"." :: front', back', rfl, Or.inr ⟨front', rfl, by rw [hfront]⟩, ?_⟩
        rw [← hback, List.filter_filter]
        simp

theorem components_of_nil {p : Path} (h : p.names = []) : p.components = [] := by
  rw [components, h]

theorem components_of_cons {p : Path} {first : String} {rest : List String}
    (h : p.names = first :: rest) :
    p.components =
      if first = "." ∧ ¬p.isAbsolute then first :: rest.filter (· ≠ ".")
      else (first :: rest).filter (· ≠ ".") := by
  rw [components, h]

theorem components_leftOf (p : Path) : LeftOf p.names p.components := by
  cases hnames : p.names with
  | nil => exact Or.inl (components_of_nil hnames).symm
  | cons first rest =>
      rw [components_of_cons hnames]
      by_cases hdot : first = "." ∧ ¬p.isAbsolute
      · rw [if_pos hdot, hdot.1]
        exact Or.inr ⟨rest, rfl, rfl⟩
      · rw [if_neg hdot]
        exact Or.inl rfl

/-- Pieces that can stand between slashes. -/
def Pieces (cs : List String) : Prop := ∀ c ∈ cs, c ≠ "" ∧ '/' ∉ c.toList

theorem pieces_components (p : Path) : Pieces p.components :=
  fun _ h => mem_names (p.components_leftOf.mem h)

theorem namesIn_intercalate {cs : List String} (h : Pieces cs) :
    namesIn ("/".intercalate cs).toList = cs := by
  induction cs with
  | nil => rfl
  | cons c rest ih =>
      obtain ⟨hne, hsingle⟩ := h c List.mem_cons_self
      have hrest : Pieces rest := fun c' hc' => h c' (List.mem_cons_of_mem _ hc')
      cases rest with
      | nil => rw [String.intercalate_singleton, namesIn_name hne hsingle]
      | cons next rest =>
          rw [String.intercalate_cons_cons, String.toList_append, String.toList_append,
            show "/".toList = ['/'] from rfl, List.append_assoc, List.singleton_append,
            namesIn_slash, namesIn_name hne hsingle, ih hrest]
          rfl

theorem names_ofComponents {cs : List String} (absolute : Bool) (h : Pieces cs) :
    (ofComponents absolute cs).names = cs := by
  rw [names_eq, ofComponents, String.toList_append]
  cases absolute with
  | false => exact namesIn_intercalate h
  | true => exact (namesIn_slash [] _).trans (namesIn_intercalate h)

theorem isAbsolute_ofComponents {cs : List String} (absolute : Bool) (h : Pieces cs) :
    (ofComponents absolute cs).isAbsolute = absolute := by
  rw [isAbsolute, ofComponents, String.toList_append]
  cases absolute with
  | true => rfl
  | false =>
      cases cs with
      | nil => rfl
      | cons c rest =>
          obtain ⟨hne, hsingle⟩ := h c List.mem_cons_self
          have hc : c.toList ≠ [] := fun heq => hne (String.toList_eq_nil_iff.mp heq)
          have hhead : c.toList.head? ≠ some '/' := fun heq =>
            hsingle (List.mem_of_head? heq)
          cases rest with
          | nil => simpa [String.intercalate_singleton] using hhead
          | cons next rest =>
              rw [String.intercalate_cons_cons]
              cases htext : c.toList with
              | nil => exact absurd htext hc
              | cons first chars => simpa [htext] using hhead

/-- The characters of a path of components are slashes or stand in a component. -/
theorem mem_text_ofComponents {absolute : Bool} {cs : List String} {c : Char}
    (h : c ∈ (ofComponents absolute cs).text.toList) :
    c = '/' ∨ ∃ piece ∈ cs, c ∈ piece.toList := by
  have hpieces : c ∈ ("/".intercalate cs).toList → c = '/' ∨ ∃ piece ∈ cs, c ∈ piece.toList := by
    induction cs with
    | nil => intro hmem; cases hmem
    | cons piece rest ih =>
        intro hmem
        cases rest with
        | nil =>
            rw [String.intercalate_singleton] at hmem
            exact Or.inr ⟨piece, List.mem_cons_self, hmem⟩
        | cons next rest =>
            rw [String.intercalate_cons_cons, String.toList_append, String.toList_append,
              List.mem_append, List.mem_append] at hmem
            rcases hmem with (hmem | hmem) | hmem
            · exact Or.inr ⟨piece, List.mem_cons_self, hmem⟩
            · exact Or.inl (by simpa using hmem)
            · have hrest : c ∈ (ofComponents absolute (next :: rest)).text.toList := by
                rw [ofComponents, String.toList_append]
                exact List.mem_append_right _ hmem
              refine (ih hrest hmem).imp_right ?_
              rintro ⟨piece', hpiece', hc⟩
              exact ⟨piece', List.mem_cons_of_mem _ hpiece', hc⟩
  rw [ofComponents, String.toList_append, List.mem_append] at h
  rcases h with h | h
  · cases absolute with
    | false => cases h
    | true => exact Or.inl (by simpa using h)
  · exact hpieces h

theorem mem_text_of_name {p : Path} {name : String} {c : Char} (hname : name ∈ p.names)
    (hc : c ∈ name.toList) : c ∈ p.text.toList := by
  obtain ⟨piece, hpiece, rfl⟩ := List.mem_map.mp hname
  rw [String.toList_ofList] at hc
  exact Text.mem_of_mem_splitAt (List.mem_filter.mp hpiece).1 hc

/-! ## Parents -/

theorem parent?_eq_some {p q : Path} :
    p.parent? = some q ↔
      p.components ≠ [] ∧ q = ofComponents p.isAbsolute p.components.dropLast := by
  rw [parent?]
  cases p.components with
  | nil => simp
  | cons c rest => simp [eq_comm]

theorem pieces_dropLast {cs : List String} (h : Pieces cs) : Pieces cs.dropLast :=
  fun c hc => h c ((List.dropLast_sublist cs).subset hc)

theorem names_parent {p q : Path} (h : p.parent? = some q) :
    q.names = p.components.dropLast := by
  rw [(parent?_eq_some.mp h).2]
  exact names_ofComponents _ (pieces_dropLast p.pieces_components)

theorem origin_parent {p q : Path} (h : p.parent? = some q) (cwd : Location) :
    q.origin cwd = p.origin cwd := by
  rw [origin, origin, (parent?_eq_some.mp h).2,
    isAbsolute_ofComponents _ (pieces_dropLast p.pieces_components)]

theorem components_join (p : Path) {name : String} (h : OrdinaryName name) :
    (p.join name).components = p.components ++ [name] := by
  have hjoin := names_join p h
  cases hnames : p.names with
  | nil =>
      rw [hnames, List.nil_append] at hjoin
      rw [components_of_cons hjoin, components_of_nil hnames, if_neg fun hd => h.ne_dot hd.1]
      simp [h.ne_dot]
  | cons first rest =>
      rw [hnames, List.cons_append] at hjoin
      rw [components_of_cons hjoin, components_of_cons hnames, isAbsolute_join p h]
      by_cases hdot : first = "." ∧ ¬p.isAbsolute
      · rw [if_pos hdot, if_pos hdot, List.filter_append]
        simp [h.ne_dot]
      · rw [if_neg hdot, if_neg hdot, ← List.cons_append, List.filter_append]
        simp [h.ne_dot]

theorem fileName?_join (p : Path) {name : String} (h : OrdinaryName name) :
    (p.join name).fileName? = some name := by
  rw [fileName?, components_join p h, List.getLast?_concat]
  simp only [h.ne_dot, h.ne_dots, or_self, if_false]

/-- The extension is what follows the last dot, with something before it. -/
theorem extension?_of_fileName? {p : Path} {front ext : List Char} (hfront : front ≠ [])
    (hext : '.' ∉ ext) (h : p.fileName? = some (String.ofList (front ++ '.' :: ext))) :
    p.extension? = some (String.ofList ext) := by
  have hall : ∀ c ∈ ext.reverse, decide (c ≠ '.') = true := by
    intro c hc
    rw [decide_eq_true_iff]
    rintro rfl
    exact hext (List.mem_reverse.mp hc)
  have htake : (front ++ '.' :: ext).reverse.takeWhile (· ≠ '.') = ext.reverse := by
    rw [List.reverse_append, List.reverse_cons, List.append_assoc, List.takeWhile_append_of_pos hall]
    simp
  have hdrop : (front ++ '.' :: ext).reverse.drop ext.reverse.length = '.' :: front.reverse := by
    rw [List.reverse_append, List.reverse_cons, List.append_assoc, List.drop_left]
    rfl
  obtain ⟨c, rest, hc⟩ := List.exists_cons_of_ne_nil (mt List.reverse_eq_nil_iff.mp hfront)
  rw [extension?, h]
  simp only [Option.bind_eq_bind, Option.bind_some, String.toList_ofList, htake, hdrop, hc,
    List.reverse_reverse]

/-- The directory in which a result is written, with its components alone. -/
theorem parent?_join (p : Path) {name : String} (h : OrdinaryName name) :
    (p.join name).parent? = some (ofComponents p.isAbsolute p.components) := by
  rw [parent?_eq_some, components_join p h, isAbsolute_join p h, List.dropLast_concat]
  exact ⟨by simp, rfl⟩

/-- Whether components are as few as they can be: `.` stands at most at the beginning, and
there only of a relative path. -/
structure Spare (absolute : Bool) (cs : List String) : Prop where
  tail : "." ∉ cs.tail
  absolute : absolute = true → "." ∉ cs

theorem spare_components (p : Path) : Spare p.isAbsolute p.components := by
  cases hnames : p.names with
  | nil =>
      rw [components_of_nil hnames]
      exact ⟨by simp, by simp⟩
  | cons first rest =>
      rw [components_of_cons hnames]
      by_cases hdot : first = "." ∧ ¬p.isAbsolute
      · rw [if_pos hdot]
        exact ⟨by simp, fun habs => absurd habs hdot.2⟩
      · rw [if_neg hdot]
        refine ⟨fun hmem => ?_, by simp⟩
        have := (List.tail_sublist _).subset hmem
        simp at this

theorem Spare.dropLast {absolute : Bool} {cs : List String} (h : Spare absolute cs) :
    Spare absolute cs.dropLast where
  tail hmem := by
    rw [List.tail_dropLast] at hmem
    exact h.tail ((List.dropLast_sublist _).subset hmem)
  absolute habs hmem := h.absolute habs ((List.dropLast_sublist _).subset hmem)

theorem components_ofComponents {absolute : Bool} {cs : List String} (hpieces : Pieces cs)
    (hspare : Spare absolute cs) : (ofComponents absolute cs).components = cs := by
  have hnames := names_ofComponents absolute hpieces
  cases cs with
  | nil => exact components_of_nil hnames
  | cons first rest =>
      -- only a `.` at the beginning of a relative path is left by taking components
      have hrest : rest.filter (· ≠ ".") = rest := by
        rw [List.filter_eq_self]
        intro c hc
        rw [decide_eq_true_iff]
        rintro rfl
        exact hspare.tail hc
      rw [components_of_cons hnames, isAbsolute_ofComponents absolute hpieces]
      by_cases hdot : first = "." ∧ ¬absolute
      · rw [if_pos hdot, hrest]
      · rw [if_neg hdot, List.filter_cons_of_pos, hrest]
        rw [decide_eq_true_iff]
        intro heq
        refine hspare.absolute ?_ (heq ▸ List.mem_cons_self)
        simpa [heq] using hdot

theorem components_parent {p q : Path} (h : p.parent? = some q) :
    q.components = p.components.dropLast := by
  rw [(parent?_eq_some.mp h).2]
  exact components_ofComponents (pieces_dropLast p.pieces_components) p.spare_components.dropLast

theorem parent?_eq_none {p : Path} : p.parent? = none ↔ p.components = [] := by
  rw [parent?]
  cases p.components <;> simp

/-- Only the empty path has no components and is not absolute. -/
theorem text_eq_empty_iff {p : Path} :
    p.text = "" ↔ p.components = [] ∧ p.isAbsolute = false := by
  constructor
  · intro h
    rw [isAbsolute, h]
    exact ⟨components_of_nil (by rw [names_eq, h]; rfl), rfl⟩
  · rintro ⟨hcomponents, habs⟩
    have hnames : p.names = [] := by
      cases hnames : p.names with
      | nil => rfl
      | cons first rest =>
          rw [components_of_cons hnames, habs] at hcomponents
          by_cases hdot : first = "."
          · simp [hdot] at hcomponents
          · simp [hdot] at hcomponents
    -- without names only slashes are left, and then the path is absolute
    refine Decidable.byContradiction fun hne => ?_
    cases htext : p.text.toList with
    | nil => exact hne (String.toList_eq_nil_iff.mp htext)
    | cons c rest =>
        have hc := slash_of_names_nil hnames (c := c) (by rw [htext]; exact List.mem_cons_self)
        rw [isAbsolute, htext, hc] at habs
        cases habs

/-! ## Passing places -/

/-- Whether a location is passed, or reached, on the way along a path. -/
def Passes (p : Path) (cwd loc : Location) : Prop :=
  ∃ front back, p.names = front ++ back ∧ loc = front.foldl Location.enter (p.origin cwd)

theorem passes_location (p : Path) (cwd : Location) : p.Passes cwd (p.location cwd) :=
  ⟨p.names, [], (List.append_nil _).symm, rfl⟩

theorem Passes.of_leftOf {p q : Path} {cwd loc : Location} (back : List String)
    (horigin : q.origin cwd = p.origin cwd) (hnames : LeftOf p.names (q.names ++ back))
    (h : q.Passes cwd loc) : p.Passes cwd loc := by
  obtain ⟨front, rest, hsplit, rfl⟩ := h
  rw [hsplit, List.append_assoc] at hnames
  obtain ⟨front', back', hsplit', hleft, _⟩ := hnames.append
  exact ⟨front', back', hsplit', by rw [horigin, hleft.enter]⟩

/-- What is passed on the way to the directory above is passed. -/
theorem Passes.of_parent {p q : Path} {cwd loc : Location} (hq : p.parent? = some q)
    (h : q.Passes cwd loc) : p.Passes cwd loc := by
  obtain ⟨hne, _⟩ := parent?_eq_some.mp hq
  refine h.of_leftOf [p.components.getLast hne] (origin_parent hq cwd) ?_
  rw [names_parent hq, List.dropLast_concat_getLast]
  exact p.components_leftOf

end Files.Path

end Intake
