import Intake.Proofs.Attempts
import Intake.Proofs.Time.Accepted
import Intake.Proofs.Time.Texts

/-!
# Readers that agree

The notations of a bound are tried one after the other, and some of what they read looks alike. How
far the scan of a date gets, and what stands after it, tells them apart: nothing after a plain date,
nothing after a time without an offset, an offset after the others; epoch seconds have no hyphen.
Only RFC 3339 and the notation with an offset have texts in common, and these mean one instant. So
the order of the notations makes no difference, and a bound is read wherever a stamp is.
-/

namespace Intake.Time

open Text Text.Decimal Scan

namespace Scan

variable {cs rest : List Char} {least low high n : Nat} {limit : Option Nat}

/-! ## Strict and loose scanners -/

theorem number_eq_ok {r : Nat × List Char} : number least limit cs = .ok r ↔
    least ≤ (leadingDigits limit cs).length ∧
      (value (leadingDigits limit cs), cs.drop (leadingDigits limit cs).length) = r := by
  have hdigits : (leadingDigits limit cs).length ≤ cs.length := by
    have hrun : (cs.takeWhile Char.isDigit).length ≤ cs.length :=
      (List.takeWhile_prefix _).length_le
    cases limit with
    | none => exact hrun
    | some k => exact (List.length_take_le' k _).trans hrun
  have hbytes := length_le_byteLength cs
  unfold number
  by_cases hleast : least ≤ (leadingDigits limit cs).length
  · rw [if_neg (by omega), if_neg (by omega), and_iff_right hleast, Except.ok.injEq]
  · split
    · simp [hleast]
    · simp [hleast, Nat.lt_of_not_le hleast]

/-- A number of at least some digits begins with one. -/
theorem exists_digit_of_number {r : Nat × List Char} (h : number least limit cs = .ok r)
    (hleast : 1 ≤ least) : ∃ c rest, cs = c :: rest ∧ c.isDigit = true := by
  have hlength := (number_eq_ok.mp h).1
  have hempty {ds : List Char} (hds : ds.takeWhile Char.isDigit = []) :
      leadingDigits limit ds = [] := by
    unfold leadingDigits
    rw [hds]
    cases limit <;> simp
  cases cs with
  | nil =>
      rw [hempty rfl] at hlength
      exact absurd hlength (by simp; omega)
  | cons c rest =>
      refine ⟨c, rest, rfl, ?_⟩
      by_contra hc
      rw [hempty (List.takeWhile_cons_of_neg hc)] at hlength
      exact absurd hlength (by simp; omega)

theorem skipBlanks_of_number {r : Nat × List Char} (h : number least limit cs = .ok r)
    (hleast : 1 ≤ least) : skipBlanks cs = cs := by
  obtain ⟨c, rest, rfl, hc⟩ := exists_digit_of_number h hleast
  exact skipBlanks_cons (isBlank_of_isDigit hc) rest

/-- Whoever asks for fewer digits reads the same number, with or without blanks in front. -/
theorem number_loose {r : Nat × List Char} (h : number least limit cs = .ok r)
    (hleast : 1 ≤ least) : number 1 limit (skipBlanks cs) = .ok r := by
  rw [skipBlanks_of_number h hleast]
  obtain ⟨hlength, hr⟩ := number_eq_ok.mp h
  exact number_eq_ok.mpr ⟨hleast.trans hlength, hr⟩

theorem bounded_loose {r : Nat × List Char} (h : bounded low high least limit cs = .ok r)
    (hleast : 1 ≤ least) : bounded low high 1 limit (skipBlanks cs) = .ok r := by
  unfold bounded at h ⊢
  obtain ⟨r', hnumber, hbounds⟩ := bind_eq_ok.mp h
  exact bind_eq_ok.mpr ⟨r', number_loose hnumber hleast, hbounds⟩

/-- Four digits are a year in either notation. -/
theorem signedYear_loose (h : number 4 (some 4) cs = .ok (n, rest)) :
    signedYear (skipBlanks cs) = .ok ((n : Int), rest) := by
  have hnumber := number_loose h (by decide)
  obtain ⟨c, more, rfl, hc⟩ := exists_digit_of_number h (by decide)
  rw [skipBlanks_cons (isBlank_of_isDigit hc)] at hnumber ⊢
  rw [← List.singleton_append] at hnumber ⊢
  rw [signedYear_digits (List.forall_mem_singleton.mpr hc) (List.cons_ne_nil c []), hnumber]
  rfl

theorem literal_eq_ok {c : Char} : literal c cs = .ok rest ↔ cs = c :: rest := by
  cases cs with
  | nil => simp [literal]
  | cons d more =>
      rw [literal, List.cons.injEq]
      by_cases hd : d = c <;> simp [hd]

theorem exists_of_dateMark (h : dateMark cs = .ok rest) :
    ∃ mark, cs = mark :: rest := by
  cases cs with
  | nil => cases h
  | cons c more =>
      rw [dateMark] at h
      split at h
      · cases h
        exact ⟨c, rfl⟩
      · cases h

/-! ## Dates -/

/-- A date has a hyphen. -/
theorem hyphen_mem_of_scanDate {d : Int × Nat × Nat} (h : scanDate cs = .ok (d, rest)) :
    '-' ∈ cs := by
  have hnumber {least : Nat} {limit : Option Nat} {ds : List Char} {r : Nat × List Char}
      (h : number least limit ds = .ok r) : r.2 <:+ ds := by
    rw [← (number_eq_ok.mp h).2]
    exact List.drop_suffix _ _
  have hyear {ds : List Char} {r : Int × List Char} (h : signedYear ds = .ok r) : r.2 <:+ ds := by
    unfold signedYear at h
    split at h
    all_goals
      obtain ⟨r', hr', rfl⟩ := map_eq_ok.mp h
    · exact (hnumber hr').trans (List.suffix_cons _ _)
    · exact (hnumber hr').trans (List.suffix_cons _ _)
    · exact hnumber hr'
  unfold scanDate at h
  obtain ⟨⟨year, cs₁⟩, hscan, h⟩ := bind_eq_ok.mp h
  obtain ⟨cs₂, hmark, -⟩ := bind_eq_ok.mp h
  have hmem : '-' ∈ cs₁ := by
    rw [literal_eq_ok.mp hmark]
    exact List.mem_cons_self
  exact ((hyear hscan).trans (List.dropWhile_suffix _)).subset hmem

/-! ## Offsets -/

theorem offset_ne_nil {style : OffsetStyle} {r : Int × List Char} (h : offset style cs = .ok r) :
    cs ≠ [] := by
  rintro rfl
  cases h

/-- Minutes begin with a digit, so nothing in front of them is skipped. -/
theorem dropWhile_of_offsetMinutes {r : Nat × List Char} (h : offsetMinutes cs = .ok r) :
    cs.dropWhile (fun c => c == ':' || isBlank c) = cs := by
  unfold offsetMinutes at h
  obtain ⟨minutes, hdigits, -⟩ := bind_eq_ok.mp h
  unfold twoDigits at hdigits
  split at hdigits
  · cases hdigits
  · split at hdigits
    · next a b more _ =>
        split at hdigits
        · next hboth =>
            have ha : a.isDigit = true := (Bool.and_eq_true_iff.mp hboth).1
            have hcolon : a ≠ ':' := by
              rintro rfl
              cases ha
            exact List.dropWhile_cons_of_neg (by simp [hcolon, isBlank_of_isDigit ha])
        · cases hdigits
    · cases hdigits

/-- An offset with a colon is `Z`, or it is read with the same value where the colon is optional. -/
theorem offset_loose {r : Int × List Char} (h : offset ⟨.colon, true⟩ cs = .ok r) :
    (cs.head? = some 'Z' ∨ cs.head? = some 'z') ∨
      skipBlanks cs = cs ∧ offset ⟨.loose, false⟩ cs = .ok r := by
  cases cs with
  | nil => cases h
  | cons c more =>
      unfold offset at h ⊢
      simp only [Bool.true_and, Bool.false_and, Bool.false_eq_true, if_false] at h ⊢
      split at h
      · next hzulu =>
          left
          simpa [or_comm] using hzulu
      · right
        split at h
        · next hsign =>
            have hblank : isBlank c = false := by
              simp only [Bool.or_eq_true, beq_iff_eq] at hsign
              rcases hsign with (rfl | rfl) | rfl <;> decide
            refine ⟨skipBlanks_cons hblank more, ?_⟩
            rw [if_pos hsign]
            obtain ⟨hours, hhours, h⟩ := bind_eq_ok.mp h
            obtain ⟨more', hcolon, h⟩ := bind_eq_ok.mp h
            obtain ⟨m, hminutes, h⟩ := bind_eq_ok.mp h
            have hloose : offsetMark .loose (more.drop 2) = .ok more' := by
              have hmark : more.drop 2 = ':' :: more' := literal_eq_ok.mp hcolon
              show Except.ok ((more.drop 2).dropWhile _) = _
              rw [hmark, List.dropWhile_cons_of_pos (by decide),
                dropWhile_of_offsetMinutes hminutes]
            exact bind_eq_ok.mpr ⟨hours, hhours, bind_eq_ok.mpr ⟨more', hloose,
              bind_eq_ok.mpr ⟨m, hminutes, h⟩⟩⟩
        · cases h

end Scan

/-! ## Notations -/

/-- The notations that a bound may have. -/
inductive Form where
  | date
  | dateTime
  | offsetDateTime
  | rfc3339
  | epoch
  deriving DecidableEq

/-- The notations in the order in which they are tried. -/
def Form.all : List Form := [.date, .dateTime, .offsetDateTime, .rfc3339, .epoch]

/-- The instant of a text in a notation. -/
def Form.read : Form → List Char → Option Instant
  | .date, cs => (readDate cs).toOption
  | .dateTime, cs => (readDateTime cs).toOption
  | .offsetDateTime, cs => (readOffsetDateTime cs).toOption
  | .rfc3339, cs => (readRfc3339 cs).toOption
  | .epoch, cs => readEpochSeconds cs

/-- What the scans of a date, of a clock and of an offset find in a text of a notation. -/
inductive Parts (cs : List Char) : Form → Instant → Prop
  | date {d : Int × Nat × Nat} {t : Instant} (hdate : scanDate cs = .ok (d, [])) :
      Parts cs .date t
  | dateTime {d : Int × Nat × Nat} {c : Nat × Nat × Nat} {clock : List Char} {t : Instant}
      (hdate : scanDate cs = .ok (d, 'T' :: clock)) (hclock : scanClock clock = .ok (c, [])) :
      Parts cs .dateTime t
  | offsetDateTime {year : Int} {month day hour minute second : Nat} {clock zone : List Char}
      {east : Int} {t : Instant}
      (hdate : scanDate cs = .ok ((year, month, day), 'T' :: clock))
      (hclock : scanClock clock = .ok ((hour, minute, second), zone))
      (hzone : offset ⟨.loose, false⟩ (skipBlanks zone) = .ok (east, []))
      (hinstant : Written.instant ⟨year, month, day, hour, minute, second, 0, east⟩ = .ok t) :
      Parts cs .offsetDateTime t
  | rfc3339 {year : Int} {month day hour minute second nanos : Nat} {mark : Char}
      {clock after zone : List Char} {east : Int} {t : Instant}
      (hdate : scanDate cs = .ok ((year, month, day), mark :: clock))
      (hclock : scanClock clock = .ok ((hour, minute, second), after))
      (hfraction : optionalFraction after = .ok (nanos, zone))
      (hzone : offset ⟨.colon, true⟩ zone = .ok (east, []))
      (hinstant : Written.instant ⟨year, month, day, hour, minute, second, nanos, east⟩ = .ok t) :
      Parts cs .rfc3339 t
  | epoch {t : Instant} (hdate : ∀ r, scanDate cs ≠ .ok r) : Parts cs .epoch t

variable {cs : List Char} {t t' : Instant}

theorem finish_eq_ok {α : Type} {r : Except TimeError (α × List Char)} {a : α} :
    finish r = .ok a ↔ r = .ok (a, []) := by
  unfold finish
  cases r with
  | error e => simp [Except.bind]
  | ok found =>
      obtain ⟨b, rest⟩ := found
      cases rest <;> simp [Except.bind]

theorem parts_date (h : readDate cs = .ok t) : Parts cs .date t := by
  unfold readDate at h
  obtain ⟨d, hdate, -⟩ := bind_eq_ok.mp h
  exact .date (finish_eq_ok.mp hdate)

/-- A time without an offset is a date, a mark and a clock. -/
theorem scanDateTime_eq_ok {w : Written} {rest : List Char} (h : scanDateTime cs = .ok (w, rest)) :
    ∃ year month day hour minute second clock,
      scanDate cs = .ok ((year, month, day), 'T' :: clock) ∧
      scanClock clock = .ok ((hour, minute, second), rest) ∧
      w = ⟨year, month, day, hour, minute, second, 0, 0⟩ := by
  unfold scanDateTime at h
  obtain ⟨⟨⟨year, month, day⟩, cs₁⟩, hdate, h⟩ := bind_eq_ok.mp h
  obtain ⟨clock, hmark, h⟩ := bind_eq_ok.mp h
  obtain ⟨⟨⟨hour, minute, second⟩, rest⟩, hclock, h⟩ := bind_eq_ok.mp h
  rw [literal_eq_ok.mp hmark] at hdate
  cases h
  exact ⟨_, _, _, _, _, _, _, hdate, hclock, rfl⟩

theorem parts_dateTime (h : readDateTime cs = .ok t) : Parts cs .dateTime t := by
  unfold readDateTime at h
  obtain ⟨w, hscan, -⟩ := bind_eq_ok.mp h
  obtain ⟨_, _, _, _, _, _, _, hdate, hclock, -⟩ := scanDateTime_eq_ok (finish_eq_ok.mp hscan)
  exact .dateTime hdate hclock

theorem parts_offsetDateTime (h : readOffsetDateTime cs = .ok t) :
    Parts cs .offsetDateTime t := by
  unfold readOffsetDateTime at h
  obtain ⟨⟨w, zone⟩, hscan, h⟩ := bind_eq_ok.mp h
  obtain ⟨east, hzone, hinstant⟩ := bind_eq_ok.mp h
  obtain ⟨_, _, _, _, _, _, _, hdate, hclock, rfl⟩ := scanDateTime_eq_ok hscan
  exact .offsetDateTime hdate hclock (finish_eq_ok.mp hzone) hinstant

/-- The strict scans of RFC 3339 find what the loose ones find. -/
theorem parts_rfc3339 (h : readRfc3339 cs = .ok t) : Parts cs .rfc3339 t := by
  unfold readRfc3339 at h
  simp only [bind_eq_ok, Prod.exists] at h
  obtain ⟨year, cs₁, hyear, cs₂, hhyphen, month, cs₃, hmonth, cs₄, hhyphen', day, cs₅, hday, clock,
    hmark, hour, cs₆, hhour, cs₇, hcolon, minute, cs₈, hminute, cs₉, hcolon', second, after,
    hsecond, nanos, zone, hfraction, east, rest, hzone, h⟩ := h
  obtain ⟨mark, rfl⟩ := exists_of_dateMark hmark
  have hdate : scanDate cs = .ok ((year, month, day), mark :: clock) := by
    unfold scanDate
    simp only [signedYear_loose hyear, hhyphen, bounded_loose hmonth (by decide), hhyphen',
      bounded_loose hday (by decide), bind, Except.bind]
  have hclock : scanClock clock = .ok ((hour, minute, second), after) := by
    unfold scanClock
    simp only [bounded_loose hhour (by decide), hcolon, bounded_loose hminute (by decide), hcolon',
      bounded_loose hsecond (by decide), bind, Except.bind]
  split at h
  · simp [bind, Except.bind] at h
  · split at h
    · simp [bind, Except.bind] at h
    · next hrest =>
        obtain rfl : rest = [] := by simpa using hrest
        exact .rfc3339 hdate hclock hfraction hzone h

theorem parts_epoch (h : readEpochSeconds cs = some t) : Parts cs .epoch t := by
  refine .epoch fun r hdate => ?_
  have hchars := (exists_epochForm_iff.mp ⟨_, _, epochForm_of_readEpochSeconds h⟩).2.1
  rcases hchars '-' (hyphen_mem_of_scanDate hdate) with hpoint | hdigit
  · cases hpoint
  · cases hdigit

/-- What is read in a notation has its parts. -/
theorem Form.parts {f : Form} (h : f.read cs = some t) : Parts cs f t := by
  cases f with
  | date => exact parts_date (eq_ok_of_toOption h)
  | dateTime => exact parts_dateTime (eq_ok_of_toOption h)
  | offsetDateTime => exact parts_offsetDateTime (eq_ok_of_toOption h)
  | rfc3339 => exact parts_rfc3339 (eq_ok_of_toOption h)
  | epoch => exact parts_epoch h

/-! ## Texts that two notations have in common -/

/-- An offset that both notations can read is the same one, right behind the clock. -/
theorem offsets_agree {after zone : List Char} {nanos : Nat} {east east' : Int}
    (hfraction : optionalFraction after = .ok (nanos, zone))
    (hstrict : offset ⟨.colon, true⟩ zone = .ok (east, []))
    (hloose : offset ⟨.loose, false⟩ (skipBlanks after) = .ok (east', [])) :
    nanos = 0 ∧ east = east' := by
  have hzulu {c : Char} {rest : List Char} (hc : c = '.' ∨ c = 'Z' ∨ c = 'z') :
      offset ⟨.loose, false⟩ (skipBlanks (c :: rest)) ≠ .ok (east', []) := by
    rcases hc with rfl | rfl | rfl <;> rw [skipBlanks_cons (by decide)] <;> rintro ⟨⟩
  unfold optionalFraction at hfraction
  split at hfraction
  · exact absurd hloose (hzulu (Or.inl rfl))
  · cases hfraction
    refine ⟨rfl, ?_⟩
    rcases offset_loose hstrict with hz | ⟨hblanks, hsame⟩
    · cases after with
      | nil => cases hstrict
      | cons c rest =>
          simp only [List.head?_cons, Option.some.injEq] at hz
          exact absurd hloose (hzulu (Or.inr hz))
    · rw [hblanks, hsame] at hloose
      exact (Prod.mk.inj (Except.ok.inj hloose)).1

theorem parts_agree (h : Parts cs .offsetDateTime t) (h' : Parts cs .rfc3339 t') : t = t' := by
  cases h with
  | offsetDateTime hdate hclock hzone hinstant =>
      cases h' with
      | rfc3339 hdate' hclock' hfraction' hzone' hinstant' =>
          rw [hdate] at hdate'
          cases hdate'
          rw [hclock] at hclock'
          cases hclock'
          obtain ⟨rfl, rfl⟩ := offsets_agree hfraction' hzone' hzone
          rw [hinstant] at hinstant'
          exact Except.ok.inj hinstant'

/-! ### What tells the notations apart -/

namespace Parts

variable {f g : Form}

/-- Only epoch seconds do not begin with a date. -/
theorem epoch_iff (h : Parts cs f t) : f = .epoch ↔ ∀ r, scanDate cs ≠ .ok r := by
  cases h with
  | date hdate => simp [hdate]
  | dateTime hdate hclock => simp [hdate]
  | offsetDateTime hdate hclock hzone hinstant => simp [hdate]
  | rfc3339 hdate hclock hfraction hzone hinstant => simp [hdate]
  | epoch hdate => simpa using hdate

/-- Only a plain date has nothing after it. -/
theorem date_iff (h : Parts cs f t) : f = .date ↔ ∃ d, scanDate cs = .ok (d, []) := by
  cases h with
  | date hdate => simp [hdate]
  | dateTime hdate hclock => simp [hdate]
  | offsetDateTime hdate hclock hzone hinstant => simp [hdate]
  | rfc3339 hdate hclock hfraction hzone hinstant => simp [hdate]
  | epoch hdate => simp [hdate]

/-- Of the times only the one without an offset has nothing after its clock. -/
theorem dateTime_iff (h : Parts cs f t) : f = .dateTime ↔ ∃ d mark clock c,
    scanDate cs = .ok (d, mark :: clock) ∧ scanClock clock = .ok (c, []) := by
  cases h with
  | date hdate => simp [hdate]
  | dateTime hdate hclock => exact iff_of_true rfl ⟨_, _, _, _, hdate, hclock⟩
  | offsetDateTime hdate hclock hzone hinstant =>
      rename_i zone _
      have hzone' : zone ≠ [] := by
        rintro rfl
        exact offset_ne_nil hzone rfl
      simp [hdate, hclock, hzone']
  | rfc3339 hdate hclock hfraction hzone hinstant =>
      rename_i after zone _
      have hafter : after ≠ [] := by
        rintro rfl
        cases hfraction
        exact offset_ne_nil hzone rfl
      simp [hdate, hclock, hafter]
  | epoch hdate => simp [hdate]

/-- Two notations of one text are RFC 3339 and the one with an offset. -/
theorem overlap (h : Parts cs f t) (h' : Parts cs g t') (hne : f ≠ g) :
    f = .offsetDateTime ∧ g = .rfc3339 ∨ f = .rfc3339 ∧ g = .offsetDateTime := by
  have hepoch : f = .epoch ↔ g = .epoch := h.epoch_iff.trans h'.epoch_iff.symm
  have hdate : f = .date ↔ g = .date := h.date_iff.trans h'.date_iff.symm
  have hdateTime : f = .dateTime ↔ g = .dateTime := h.dateTime_iff.trans h'.dateTime_iff.symm
  cases f <;> cases g <;> simp_all

end Parts

/-- A text means one instant, in whichever of its notations it is read. -/
theorem Form.agree {f g : Form} (h : f.read cs = some t) (h' : g.read cs = some t') : t = t' := by
  by_cases hfg : f = g
  · subst hfg
    exact Option.some.inj (h.symm.trans h')
  · have hparts := parts h
    have hparts' := parts h'
    rcases hparts.overlap hparts' hfg with ⟨rfl, rfl⟩ | ⟨rfl, rfl⟩
    · exact parts_agree hparts hparts'
    · exact (parts_agree hparts' hparts).symm

/-! ## The order of the notations -/

/-- What the first of some notations reads that can read the text. -/
def readFirst (forms : List Form) (cs : List Char) : Option Instant :=
  forms.findSome? (·.read cs)

theorem readFirst_cons (f : Form) (forms : List Form) (cs : List Char) :
    readFirst (f :: forms) cs = (f.read cs <|> readFirst forms cs) := by
  unfold readFirst
  rw [List.findSome?_cons]
  cases f.read cs <;> rfl

theorem readFirst_singleton (f : Form) (cs : List Char) : readFirst [f] cs = f.read cs := by
  rw [readFirst_cons]
  cases f.read cs <;> rfl

/-- A bound is tried in all notations. -/
theorem readBound_eq (s : String) : readBound s = readFirst Form.all (trimChars s.toList) := by
  unfold Form.all
  rw [readFirst_cons, readFirst_cons, readFirst_cons, readFirst_cons, readFirst_singleton]
  rfl

/-- A stamp is tried in two of them. -/
theorem readStamp_eq (s : String) :
    readStamp s = readFirst [.epoch, .rfc3339] (trimChars s.toList) := by
  rw [readFirst_cons, readFirst_singleton]
  rfl

/-- It does not matter which of the notations that can read a text comes first. -/
theorem readFirst_eq_some {forms : List Form} :
    readFirst forms cs = some t ↔ ∃ f ∈ forms, f.read cs = some t := by
  unfold readFirst
  constructor
  · exact List.exists_of_findSome?_eq_some
  · rintro ⟨f, hf, hread⟩
    cases hfirst : forms.findSome? (·.read cs) with
    | none =>
        rw [List.findSome?_eq_none_iff] at hfirst
        exact absurd (hfirst f hf) (by simp [hread])
    | some t' =>
        obtain ⟨g, -, hread'⟩ := List.exists_of_findSome?_eq_some hfirst
        rw [Form.agree hread' hread]

theorem readFirst_perm {forms forms' : List Form} (h : forms.Perm forms') (cs : List Char) :
    readFirst forms cs = readFirst forms' cs := by
  ext t
  rw [readFirst_eq_some, readFirst_eq_some]
  simp only [h.mem_iff]

/-- **Readers that agree.** What is read as a stamp is read as a bound, and as the same instant. Of
the five notations of a bound any two that can read a text read the same instant from it. So the
notations can be tried in any order. -/
theorem readers_agree :
    (∀ s t, readStamp s = some t → readBound s = some t) ∧
    (∀ (cs : List Char) (f g : Form) (t t' : Instant),
      f.read cs = some t → g.read cs = some t' → t = t') ∧
    ∀ (s : String) (forms : List Form), forms.Perm Form.all →
      readFirst forms (trimChars s.toList) = readBound s := by
  refine ⟨?_, fun cs f g t t' => Form.agree, ?_⟩
  · intro s t h
    rw [readStamp_eq, readFirst_eq_some] at h
    rw [readBound_eq, readFirst_eq_some]
    obtain ⟨f, -, hread⟩ := h
    refine ⟨f, ?_, hread⟩
    cases f <;> decide
  · intro s forms h
    rw [readBound_eq]
    exact readFirst_perm h _

/-- Half past ten in the morning, written with an offset. -/
def morningText : String := " 2023-04-01T12:30:00+02:00"

def morning : Instant := ⟨1680345000, 0, by decide⟩

theorem readers_agree_morning :
    readStamp morningText = some morning ∧ readBound morningText = some morning ∧
      Form.offsetDateTime.read (trimChars morningText.toList) = some morning ∧
      Form.rfc3339.read (trimChars morningText.toList) = some morning ∧
      readFirst [.epoch, .rfc3339, .offsetDateTime, .dateTime, .date]
        (trimChars morningText.toList) = some morning := by
  have hstamp : readStamp morningText = some morning := by decide +kernel
  have hbound := readers_agree.1 morningText morning hstamp
  have hstrict : Form.rfc3339.read (trimChars morningText.toList) = some morning := by
    decide +kernel
  have hloose : ∃ t, Form.offsetDateTime.read (trimChars morningText.toList) = some t :=
    Option.isSome_iff_exists.mp (by decide +kernel)
  obtain ⟨t, hloose⟩ := hloose
  obtain rfl : t = morning := readers_agree.2.1 _ _ _ _ _ hloose hstrict
  exact ⟨hstamp, hbound, hloose, hstrict,
    (readers_agree.2.2 morningText _ (by decide)).trans hbound⟩

end Intake.Time
