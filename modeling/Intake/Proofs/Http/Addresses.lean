import Intake.Http.Client
import Intake.Proofs.Http.Forms
import Mathlib.Data.List.Basic
import Mathlib.Data.List.TakeDrop
import Mathlib.Data.List.TakeWhile

/-!
# Plain addresses are read as they are written

Letters and digits stand for themselves in every part of an address. So an address whose host and
segments are made of them is read as these, and whoever gets a request for it reads from the request
the segments of the path and what was asked with.
-/

namespace Intake.Http

/-! ## Letters and digits -/

/-- Whether a text is made of letters and digits without accents. -/
def IsWord (cs : List Char) : Prop := ∀ c ∈ cs, c.isAlphanum = true

variable {c : Char} {cs : List Char}

theorem ne_of_isAlphanum (h : c.isAlphanum = true) {mark : Char} (hmark : mark.isAlphanum = false) :
    c ≠ mark := by
  rintro rfl
  rw [h] at hmark
  cases hmark

theorem contains_eq_false (h : c.isAlphanum = true) {marks : List Char}
    (hmarks : marks.all (!·.isAlphanum) = true) : marks.contains c = false := by
  rw [Bool.eq_false_iff]
  intro hc
  have hmark := List.all_eq_true.mp hmarks c (List.contains_iff_mem.mp hc)
  rw [h] at hmark
  cases hmark

theorem toNat_bounds (h : c.isAlphanum = true) : 0x20 < c.toNat ∧ c.toNat < 0x7F := by
  change (decide (c.val ≥ 'A'.val ∧ c.val ≤ 'Z'.val) ||
    (decide (c.val ≥ 'a'.val) && decide (c.val ≤ 'z'.val)) ||
      (decide (c.val ≥ '0'.val) && decide (c.val ≤ '9'.val))) = true at h
  simp only [Bool.or_eq_true, Bool.and_eq_true, decide_eq_true_eq, ge_iff_le,
    UInt32.le_iff_toNat_le] at h
  change (65 ≤ c.toNat ∧ c.toNat ≤ 90 ∨ 97 ≤ c.toNat ∧ c.toNat ≤ 122) ∨
    48 ≤ c.toNat ∧ c.toNat ≤ 57 at h
  omega

theorem IsWord.notMem (h : IsWord cs) {mark : Char} (hmark : mark.isAlphanum = false) :
    mark ∉ cs := fun hmem => ne_of_isAlphanum (h mark hmem) hmark rfl

theorem IsWord.encode {plain : Char → Bool} (h : IsWord cs) (hplain : ∀ c ∈ cs, plain c = true) :
    Percent.encode plain cs = cs := by
  have hchar : ∀ c ∈ cs, Percent.encodeChar plain c = [c] := by
    intro c hc
    obtain ⟨hlow, hhigh⟩ := toNat_bounds (h c hc)
    have hbytes : (String.ofList [c]).toUTF8.toList = [UInt8.ofNat c.toNat] := by
      have hbytes := Percent.bytesOf_ofNat (Nat.lt_succ_of_lt hhigh)
      rwa [Char.ofNat_toNat] at hbytes
    have hbyte : (UInt8.ofNat c.toNat).toNat = c.toNat := by
      rw [UInt8.toNat_ofNat']
      exact Nat.mod_eq_of_lt (by omega)
    rw [Percent.encodeChar, hbytes, List.flatMap_singleton, Percent.encodeByte]
    simp only [hbyte, Char.ofNat_toNat, hplain c hc, hlow, hhigh, decide_true, Bool.and_self,
      if_true]
  rw [Percent.encode, List.flatMap_congr hchar, List.flatMap_singleton']

namespace Url

/-! ## Cutting -/

theorem cut_append {p : Char → Bool} {front : List Char} (hfront : ∀ x ∈ front, p x = false)
    (hc : p c = true) (rest : List Char) : cut p (front ++ c :: rest) = (front, c :: rest) := by
  have hnot : ∀ x ∈ front, (!p x) = true := fun x hx => by rw [hfront x hx]; rfl
  rw [cut, List.span_eq_takeWhile_dropWhile, List.takeWhile_append_of_pos hnot,
    List.dropWhile_append_of_pos hnot, List.takeWhile_cons_of_neg (by simp [hc]),
    List.dropWhile_cons_of_neg (by simp [hc]), List.append_nil]

theorem cut_of_none {p : Char → Bool} (h : ∀ x ∈ cs, p x = false) : cut p cs = (cs, []) := by
  have hnot : ∀ x ∈ cs, (!p x) = true := fun x hx => by rw [h x hx]; rfl
  rw [cut, List.span_eq_takeWhile_dropWhile, List.takeWhile_eq_self_iff.mpr hnot,
    List.dropWhile_eq_nil_iff.mpr hnot]

theorem dropWhile_of_none {p : Char → Bool} (h : ∀ x ∈ cs, p x = false) : cs.dropWhile p = cs := by
  cases cs with
  | nil => rfl
  | cons c rest => exact List.dropWhile_cons_of_neg (by simp [h c List.mem_cons_self])

/-- Nothing is taken off a text without blanks. -/
theorem clean_eq_self (h : ∀ c ∈ cs, 0x20 < c.toNat) : clean cs = cs := by
  have houter : ∀ c ∈ cs, isOuter c = false := fun c hc => by
    rw [isOuter, decide_eq_false_iff_not, Nat.not_le]
    exact h c hc
  have hinner : ∀ c ∈ cs, decide (c ≠ '\t' ∧ c ≠ '\n' ∧ c ≠ '\r') = true := by
    intro c hc
    rw [decide_eq_true_eq]
    refine ⟨?_, ?_, ?_⟩
    all_goals
      rintro rfl
      exact absurd (h _ hc) (by decide)
  rw [clean, dropWhile_of_none houter,
    dropWhile_of_none fun c hc => houter c (List.mem_reverse.mp hc), List.reverse_reverse,
    List.filter_eq_self.mpr hinner]

/-! ## Parts of an address -/

theorem plainDots_word (h : IsWord cs) : plainDots cs = cs := by
  induction cs with
  | nil => rfl
  | cons c rest ih =>
      obtain ⟨hc, hrest⟩ := List.forall_mem_cons.mp h
      have hne := ne_of_isAlphanum hc (show '%'.isAlphanum = false by decide)
      rw [plainDots, ih hrest]
      · intro rest' heq
        exact absurd heq hne
      · intro rest' heq
        exact absurd heq hne

theorem descend_word (h : IsWord cs) (path : List String) (last : Bool) :
    descend path cs last = path ++ [String.ofList cs] := by
  have hplain : ∀ c ∈ cs, Percent.inPath c = true := fun c hc => by
    rw [Percent.inPath, contains_eq_false (h c hc) (by decide)]
    rfl
  have hdots (rest : List Char) : cs ≠ '.' :: rest := by
    rintro rfl
    exact h.notMem (by decide) List.mem_cons_self
  rw [descend, plainDots_word h]
  simp only [hdots, if_false]
  rw [h.encode hplain]

variable {host : List Char} {segments : List (List Char)}

theorem resolve_words (h : ∀ s ∈ segments, IsWord s)
    (path : List String) : resolve path segments = path ++ segments.map String.ofList := by
  induction segments generalizing path with
  | nil => rw [resolve, List.map_nil, List.append_nil]
  | cons segment rest ih =>
      obtain ⟨hsegment, hrest⟩ := List.forall_mem_cons.mp h
      cases rest with
      | nil => rw [resolve, descend_word hsegment, List.map_singleton]
      | cons next rest =>
          rw [resolve, descend_word hsegment, ih hrest, List.append_assoc, List.singleton_append,
            ← List.map_cons]
          exact List.cons_ne_nil next rest

theorem isSlash_eq_false (h : c.isAlphanum = true) : isSlash c = false := by
  rw [isSlash, Bool.or_eq_false_iff, beq_eq_false_iff_ne, beq_eq_false_iff_ne]
  exact ⟨ne_of_isAlphanum h (by decide), ne_of_isAlphanum h (by decide)⟩

/-- Between the words of a path there are only slashes. -/
theorem mem_path (hne : segments ≠ []) (h : ∀ s ∈ segments, IsWord s) :
    ∀ c ∈ ['/'].intercalate segments, c = '/' ∨ c.isAlphanum = true := by
  intro c hc
  by_cases heq : c = '/'
  · exact Or.inl heq
  · obtain ⟨segment, hsegment, hmem⟩ := Text.mem_splitAt_of_mem heq hc
    rw [Text.splitAt_intercalate hne fun s hs => (h s hs).notMem (by decide)] at hsegment
    exact Or.inr (h segment hsegment c hmem)

theorem isEnd_eq_false (h : c.isAlphanum = true) :
    (decide (c = '?') || decide (c = '#')) = false := by
  rw [Bool.or_eq_false_iff, decide_eq_false_iff_not, decide_eq_false_iff_not]
  exact ⟨ne_of_isAlphanum h (by decide), ne_of_isAlphanum h (by decide)⟩

theorem readPath_words (hne : segments ≠ []) (h : ∀ s ∈ segments, IsWord s) :
    readPath ('/' :: ['/'].intercalate segments) = segments.map String.ofList := by
  have hsame : (['/'].intercalate segments).map (fun c => if isSlash c then '/' else c) =
      ['/'].intercalate segments := by
    refine (List.map_congr_left fun c hc => ?_).trans (List.map_id _)
    rcases mem_path hne h c hc with rfl | hc
    · rfl
    · rw [isSlash_eq_false hc]
      rfl
  rw [readPath, List.drop_one, List.tail_cons, hsame,
    Text.splitAt_intercalate hne fun s hs => (h s hs).notMem (by decide), resolve_words h,
    List.nil_append]

/-- A host in small letters is read as it is. -/
theorem readAuthority_word (usual : Nat) (hne : cs ≠ []) (h : IsWord cs)
    (hlower : ∀ c ∈ cs, c.toLower = c) : readAuthority usual cs = some cs := by
  have hcolon : ∀ c ∈ cs, decide (c = ':') = false := fun c hc =>
    decide_eq_false (ne_of_isAlphanum (h c hc) (by decide))
  have hallowed : cs.any isForbiddenInHost = false := by
    rw [List.any_eq_false]
    intro c hc
    obtain ⟨hlow, hhigh⟩ := toNat_bounds (h c hc)
    rw [isForbiddenInHost, contains_eq_false (h c hc) (by decide), Bool.or_false, Bool.or_eq_true,
      decide_eq_true_eq, beq_iff_eq]
    omega
  have hsame : cs.map Char.toLower = cs := (List.map_congr_left hlower).trans (List.map_id _)
  rw [readAuthority, cut_of_none hcolon]
  simp [readPort, hallowed, hne, hsame]

/-- Whether a host and the segments of a path are words, the host in small letters. -/
structure Plain (host : List Char) (segments : List (List Char)) : Prop where
  host_ne_nil : host ≠ []
  host_word : IsWord host
  host_lower : ∀ c ∈ host, c.toLower = c
  segments_ne_nil : segments ≠ []
  segments_words : ∀ s ∈ segments, IsWord s

theorem Plain.mem_path (h : Plain host segments) :
    ∀ c ∈ ['/'].intercalate segments, c = '/' ∨ c.isAlphanum = true :=
  Url.mem_path h.segments_ne_nil h.segments_words

/-- What follows the scheme is read as host and path. -/
theorem Plain.readRest (h : Plain host segments) (scheme : String) (usual : Nat) :
    readRest scheme usual ('/' :: '/' :: (host ++ '/' :: ['/'].intercalate segments)) =
      some ⟨scheme ++ "://" ++ String.ofList host, segments.map String.ofList, none, none⟩ := by
  have hdrop : ('/' :: '/' :: (host ++ '/' :: ['/'].intercalate segments)).dropWhile isSlash =
      host ++ '/' :: ['/'].intercalate segments := by
    obtain ⟨c, rest, rfl⟩ := List.exists_cons_of_ne_nil h.host_ne_nil
    have hc := isSlash_eq_false (h.host_word c List.mem_cons_self)
    rw [List.dropWhile_cons_of_pos rfl, List.dropWhile_cons_of_pos rfl, List.cons_append,
      List.dropWhile_cons_of_neg (by simp [hc])]
  have hhostEnd : ∀ c ∈ host, (isSlash c || decide (c = '?') || decide (c = '#')) = false := by
    intro c hc
    have hword := h.host_word c hc
    rw [Bool.or_assoc, isSlash_eq_false hword, isEnd_eq_false hword, Bool.or_self]
  have hpathEnd : ∀ c ∈ '/' :: ['/'].intercalate segments,
      (decide (c = '?') || decide (c = '#')) = false := by
    refine List.forall_mem_cons.mpr ⟨rfl, fun c hc => ?_⟩
    rcases h.mem_path c hc with rfl | hword
    · rfl
    · exact isEnd_eq_false hword
  rw [Url.readRest, hdrop, cut_append hhostEnd rfl]
  simp only [readAuthority_word usual h.host_ne_nil h.host_word h.host_lower, bind, Option.bind]
  rw [cut_of_none hpathEnd]
  simp only [readPath_words h.segments_ne_nil h.segments_words]
  rfl

/-- **Plain addresses are read as they are written.** -/
theorem Plain.ofText? (h : Plain host segments) {s : String}
    (hs : s.toList = ['h', 't', 't', 'p'] ++
      ':' :: '/' :: '/' :: (host ++ '/' :: ['/'].intercalate segments)) :
    ofText? s =
      some ⟨"http" ++ "://" ++ String.ofList host, segments.map String.ofList, none, none⟩ := by
  have hclean : clean s.toList = s.toList := by
    refine clean_eq_self ?_
    rw [hs]
    simp only [List.forall_mem_append, List.forall_mem_cons]
    refine ⟨⟨by decide, by decide, by decide, by decide, List.forall_mem_nil _⟩, by decide,
      by decide, by decide, fun c hc => (toNat_bounds (h.host_word c hc)).1, by decide, ?_⟩
    intro c hc
    rcases h.mem_path c hc with rfl | hword
    · decide
    · exact (toNat_bounds hword).1
  have hscheme : ∀ c ∈ ['h', 't', 't', 'p'], decide (c = ':') = false := by simp
  have hhttp : String.ofList (['h', 't', 't', 'p'].map Char.toLower) = "http" := rfl
  rw [Url.ofText?, hclean, hs, cut_append hscheme rfl]
  simp only [hhttp, List.drop_one, List.tail_cons]
  exact h.readRest "http" 80

/-! ## Requests -/

/-- The query of an address that had none is what was added. -/
theorem pairs_withQuery {u : Url} (h : u.query = none) (pairs : List (String × String)) :
    (u.withQuery pairs).pairs = pairs := by
  rw [Url.pairs, withQuery, h]
  cases hwritten : Form.write pairs with
  | nil =>
      rw [Form.eq_nil_of_write hwritten]
      rfl
  | cons c cs =>
      show Form.read (String.ofList (c :: cs)).toList = pairs
      rw [String.toList_ofList, ← hwritten, Form.read_write]

end Url

theorem Client.fitsHeader_eq (s : String) :
    fitsHeader s = (s.toList.flatMap String.utf8EncodeChar).all fun b =>
      b = 9 || (32 ≤ b && b ≠ 127) := by
  rw [fitsHeader, Text.toUTF8_eq, Text.toList_eq_data, funext Text.bytesOf_eq]

/-- What is sent has nothing to do with the network. -/
theorem Client.request?_congr {σ : Type} {client client' : Client σ}
    (hbase : client.baseUrl = client'.baseUrl) (htoken : client.token = client'.token)
    (path : String) (query : List (String × String)) :
    client.request? path query = client'.request? path query := by
  have hauthorization : client.authorization = client'.authorization := by
    rw [authorization, authorization, htoken]
  rw [request?, request?, hauthorization, hbase]

/-- **Requests say what was asked.** Who gets a request for a plain address reads from it the
segments of the path and what was asked with. -/
theorem Client.exists_request {σ : Type} {client : Client σ} {path : String} {host : List Char}
    {segments : List (List Char)} (hheader : fitsHeader client.authorization = true)
    (hplain : Url.Plain host segments)
    (hbase : client.baseUrl.toList = ['h', 't', 't', 'p'] ++ ':' :: '/' :: '/' :: host)
    (hpath : path.toList = '/' :: ['/'].intercalate segments) (query : List (String × String)) :
    ∃ request, client.request? path query = some request ∧
      request.url.segments = segments.map String.ofList ∧ request.url.pairs = query := by
  have hu := hplain.ofText? (show (client.baseUrl ++ path).toList = _ by
    rw [String.toList_append, hbase, hpath, List.append_assoc]
    rfl)
  rw [request?, if_pos hheader, hu, Option.map_some]
  exact ⟨_, rfl, rfl, Url.pairs_withQuery rfl query⟩

end Intake.Http
