import Notebook.Proofs.Calendar
import Notebook.Note.Record
import Notebook.Proofs.Query.Asked
import Notebook.Proofs.Query.Operator
import Notebook.Proofs.Text.Digit

/-!
# Days in queries

A word of plain characters that begins with `due:` brings a day of the calendar in plain digits, or
it is discarded.  A note is found by its instant: what counts is not the date it shows, but whether,
in Universal Time, it is due by the midnight with which the day begins.
-/

namespace Notebook

open Decimal Text

/-! ### Years, months and days -/

namespace Token

/-- One or two plain digits. -/
def ShortDigits (cs : List Char) : Prop := Digits cs ∧ (cs.length = 1 ∨ cs.length = 2)

/-- The number of some digits, if it is one of those from 1 to `last`. -/
def upTo? (last : ℕ) (cs : List Char) : Option ℕ :=
  if 1 ≤ natOfDigits cs ∧ natOfDigits cs ≤ last then some (natOfDigits cs) else none

theorem upTo?_eq_some_iff {last k : ℕ} {cs : List Char} :
    upTo? last cs = some k ↔ natOfDigits cs = k ∧ 1 ≤ k ∧ k ≤ last := by
  unfold upTo?
  split
  · next h =>
    rw [Option.some.injEq]
    exact ⟨fun hk => ⟨hk, hk ▸ h⟩, fun hk => hk.1⟩
  · next h =>
    refine ⟨nofun, ?_⟩
    rintro ⟨rfl, hk⟩
    exact absurd hk h

/-- A reading of one or two digits is told by what it gives for each of them. -/
theorem eq_upTo?_of_shortDigits {f : List Char → Option ℕ} {last : ℕ}
    (hone : plainDigits.map (fun c => f [c]) = plainDigits.map fun c => upTo? last [c])
    (htwo : plainDigits.map (fun t => plainDigits.map fun c => f [t, c]) =
      plainDigits.map fun t => plainDigits.map fun c => upTo? last [t, c]) {cs : List Char}
    (h : ShortDigits cs) : f cs = upTo? last cs := by
  obtain ⟨hdigits, hlength⟩ := h
  match cs with
  | [] => simp at hlength
  | [c] => exact eq_of_isDigit (f := fun c => f [c]) hone (hdigits c (by simp))
  | [t, c] =>
    have hsecond := eq_of_isDigit htwo (hdigits t (by simp))
    exact eq_of_isDigit (f := fun c => f [t, c]) hsecond (hdigits c (by simp))
  | _ :: _ :: _ :: _ => simp at hlength

theorem shortDigits_one {c : Char} (hc : c.isDigit = true) : ShortDigits [c] :=
  ⟨List.forall_mem_singleton.mpr hc, .inl rfl⟩

theorem shortDigits_two {t c : Char} (ht : t.isDigit = true) (hc : c.isDigit = true) :
    ShortDigits [t, c] :=
  ⟨List.forall_mem_cons.mpr ⟨ht, List.forall_mem_singleton.mpr hc⟩, .inr rfl⟩

/-- A character from 1 to 9 is a digit. -/
theorem isDigit_of_mem_range {c : Char} (h : '1' ≤ c ∧ c ≤ '9') : c.isDigit = true := by
  have hfirst : 49 ≤ c.toNat := h.1
  have hlast : c.toNat ≤ 57 := h.2
  exact isDigit_iff.mpr (by omega)

theorem shortDigits_of_monthOf? {cs : List Char} {m : ℕ} (h : monthOf? cs = some m) :
    ShortDigits cs := by
  unfold monthOf? at h
  split at h
  · next t c =>
    split at h
    · next ht =>
      subst ht
      split at h
      · next hc => exact shortDigits_two rfl (by rcases hc with rfl | rfl | rfl <;> rfl)
      · cases h
    · split at h
      · next ht =>
        subst ht
        split at h
        · next hc => exact shortDigits_two rfl (isDigit_of_mem_range hc)
        · cases h
      · cases h
  · next c =>
    split at h
    · next hc => exact shortDigits_one (isDigit_of_mem_range hc)
    · cases h
  · cases h

theorem shortDigits_of_dayOf? {cs : List Char} (hplain : ∀ c ∈ cs, c.toNat < 0x80) {d : ℕ}
    (h : dayOf? cs = some d) : ShortDigits cs := by
  have hdigit {c : Char} (hc : c ∈ cs) {g : ℕ → ℕ} (hd : (digitValue? c).map g = some d) :
      c.isDigit = true := by
    obtain ⟨k, hk, -⟩ := Option.map_eq_some_iff.mp hd
    exact isDigit_of_digitValue? (hplain c hc) hk
  unfold dayOf? at h
  split at h
  · next t c =>
    split at h
    · next ht =>
      subst ht
      split at h
      · next hc => exact shortDigits_two rfl (by rcases hc with rfl | rfl <;> rfl)
      · cases h
    · split at h
      · next ht => exact shortDigits_two (ht ▸ rfl) (hdigit (by simp) h)
      · split at h
        · next ht => exact shortDigits_two (ht ▸ rfl) (hdigit (by simp) h)
        · split at h
          · next ht =>
            split at h
            · next hc => exact shortDigits_two (ht ▸ rfl) (isDigit_of_mem_range hc)
            · cases h
          · cases h
  · next c =>
    split at h
    · next hc => exact shortDigits_one (isDigit_of_mem_range hc)
    · cases h
  · cases h

theorem monthOf?_eq_some_iff {cs : List Char} {m : ℕ} :
    monthOf? cs = some m ↔ ShortDigits cs ∧ natOfDigits cs = m ∧ 1 ≤ m ∧ m ≤ 12 := by
  have hvalue {cs : List Char} (h : ShortDigits cs) : monthOf? cs = upTo? 12 cs :=
    eq_upTo?_of_shortDigits (by decide +kernel) (by decide +kernel) h
  rw [← upTo?_eq_some_iff]
  constructor
  · intro h
    have hshort := shortDigits_of_monthOf? h
    exact ⟨hshort, hvalue hshort ▸ h⟩
  · rintro ⟨hshort, h⟩
    rw [hvalue hshort, h]

theorem dayOf?_eq_some_iff {cs : List Char} (hplain : ∀ c ∈ cs, c.toNat < 0x80) {d : ℕ} :
    dayOf? cs = some d ↔ ShortDigits cs ∧ natOfDigits cs = d ∧ 1 ≤ d ∧ d ≤ 31 := by
  have hvalue {cs : List Char} (h : ShortDigits cs) : dayOf? cs = upTo? 31 cs :=
    eq_upTo?_of_shortDigits (by decide +kernel) (by decide +kernel) h
  rw [← upTo?_eq_some_iff]
  constructor
  · intro h
    have hshort := shortDigits_of_dayOf? hplain h
    exact ⟨hshort, hvalue hshort ▸ h⟩
  · rintro ⟨hshort, h⟩
    rw [hvalue hshort, h]

theorem yearOf?_eq_some_iff {cs : List Char} (hplain : ∀ c ∈ cs, c.toNat < 0x80) {y : ℕ} :
    yearOf? cs = some y ↔ cs.length = 4 ∧ Digits cs ∧ natOfDigits cs = y := by
  have hfold : (cs.map (·.toNat - '0'.toNat)).foldl (fun n d => 10 * n + d) 0 = natOfDigits cs :=
    List.foldl_map
  unfold yearOf?
  split
  · next hlength =>
    rw [Option.map_eq_some_iff]
    constructor
    · rintro ⟨ds, hds, rfl⟩
      obtain ⟨hdigits, rfl⟩ := (mapM_digitValue?_eq_some_iff hplain).mp hds
      exact ⟨hlength, hdigits, hfold.symm⟩
    · rintro ⟨-, hdigits, rfl⟩
      exact ⟨_, (mapM_digitValue?_eq_some_iff hplain).mpr ⟨hdigits, rfl⟩, hfold⟩
  · next hlength => exact ⟨nofun, fun h => absurd h.1 hlength⟩

/-! ### Dates -/

/-- The date stands there in plain digits: four for the year, one or two for the month, and one or
two for the day. -/
def IsWritten (ls : List Letter) (a : Date) : Prop :=
  ∃ y m d : List Char, ls = (y ++ '-' :: m ++ '-' :: d).map .char ∧
    (y.length = 4 ∧ Digits y ∧ natOfDigits y = a.year) ∧
    (ShortDigits m ∧ natOfDigits m = a.month) ∧ ShortDigits d ∧ natOfDigits d = a.day

theorem hyphen_notMem {cs : List Char} (h : Digits cs) : '-' ∉ cs := fun hmem =>
  absurd (h '-' hmem) (by decide)

theorem isWritten_of_dateOf? {ls : List Letter} (hplain : ∀ l ∈ ls, l.toNat < 0x80) {a : Date}
    (hdate : dateOf? ls = some a) : IsWritten ls a := by
  obtain ⟨cs, hcs, h⟩ := Option.bind_eq_some_iff.mp hdate
  obtain rfl := chars?_eq_some_iff.mp hcs
  have hplain : ∀ c ∈ cs, c.toNat < 0x80 := fun c hc => hplain (.char c) (List.mem_map_of_mem hc)
  split at h
  · next y m d hpieces =>
    obtain ⟨rfl, -, -, -⟩ := pieces_eq_iff.mp hpieces
    split at h
    · next k l i hk hl hi =>
      obtain ⟨hyear, hmonth, hday⟩ := Date.of?_eq_some_iff.mp h
      obtain ⟨hlength, hy, rfl⟩ :=
        (yearOf?_eq_some_iff fun c hc => hplain c (by simp [hc])).mp hk
      obtain ⟨hm, rfl, -⟩ := monthOf?_eq_some_iff.mp hl
      obtain ⟨hd, rfl, -⟩ := (dayOf?_eq_some_iff fun c hc => hplain c (by simp [hc])).mp hi
      exact ⟨y, m, d, rfl, ⟨hlength, hy, hyear.symm⟩, ⟨hm, hmonth.symm⟩, hd, hday.symm⟩
    · cases h
  · cases h

theorem dateOf?_of_isWritten {ls : List Letter} {a : Date} (h : IsWritten ls a) :
    dateOf? ls = some a := by
  obtain ⟨y, m, d, rfl, ⟨hlength, hy, hyear⟩, ⟨hm, hmonth⟩, hd, hday⟩ := h
  have hplain {cs : List Char} (h : Digits cs) : ∀ c ∈ cs, c.toNat < 0x80 := fun c hc => by
    have hlast := (isDigit_iff.mp (h c hc)).2
    omega
  obtain ⟨-, -, hfirst, hlast, hone, hdays⟩ := a.exists_day
  have hmonths := daysInMonth_le a.year a.month
  have hpieces := pieces_eq_iff.mpr
    ⟨rfl, hyphen_notMem hy, hyphen_notMem hm.1, hyphen_notMem hd.1⟩
  have hk := (yearOf?_eq_some_iff (hplain hy)).mpr ⟨hlength, hy, hyear⟩
  have hl := monthOf?_eq_some_iff.mpr ⟨hm, hmonth, hfirst, hlast⟩
  have hi := (dayOf?_eq_some_iff (hplain hd.1)).mpr ⟨hd, hday, hone, by omega⟩
  simp only [dateOf?, chars?_map_char, Option.bind_some, hpieces, hk, hl, hi]
  exact Date.of?_eq_some_iff.mpr ⟨rfl, rfl, rfl⟩

theorem dateOf?_eq_some_iff {ls : List Letter} (hplain : ∀ l ∈ ls, l.toNat < 0x80) {a : Date} :
    dateOf? ls = some a ↔ IsWritten ls a :=
  ⟨isWritten_of_dateOf? hplain, dateOf?_of_isWritten⟩

end Token

/-! ### Instants -/

namespace Moment

/-- Microseconds from the first midnight of the calendar in Universal Time to a moment: the days
before its date, what its clock shows, and its offset taken off.  It shows Universal Time itself if
it has no offset. -/
theorem instant_eq (t : Moment) :
    t.instant = t.date.dayNumber * 86400000000 + t.time.micros -
      t.offset.elim 0 (·.micros) := by
  unfold instant
  cases t.offset <;> rfl

theorem instant_ofDate (a : Date) : (ofDate a).instant = a.dayNumber * 86400000000 := by
  simp [instant_eq, ofDate, Offset.zero, TimeOfDay.micros, TimeOfDay.midnight]

/-- In Universal Time a moment is not past the beginning of a day if its date is an earlier one or
it is the midnight itself. -/
theorem instant_le_ofDate_iff {t : Moment} {a : Date}
    (ht : t.offset.elim 0 (·.micros) = 0) :
    t.instant ≤ (ofDate a).instant ↔
      t.date.IsBefore a ∨ t.date = a ∧ t.time = .midnight := by
  have hmidnight : t.time.micros = 0 ↔ t.time = .midnight := by
    obtain ⟨h, m, s, u, -⟩ := t.time
    simp only [TimeOfDay.micros, TimeOfDay.midnight, TimeOfDay.mk.injEq]
    omega
  have hday : t.time.micros < 86400000000 := by
    obtain ⟨h, m, s, u, hh, hm, hs, hu⟩ := t.time
    simp only [TimeOfDay.micros]
    omega
  rw [instant_eq, ht, instant_ofDate, ← Date.dayNumber_lt_iff, ← hmidnight]
  constructor
  · intro h
    rcases Date.isBefore_or_eq_or_isBefore t.date a with hbefore | rfl | hafter
    · exact .inl (Date.dayNumber_lt_iff.mpr hbefore)
    · exact .inr ⟨rfl, by omega⟩
    · have hlt := Date.dayNumber_lt_iff.mpr hafter
      omega
  · rintro (hlt | ⟨rfl, hzero⟩)
    · omega
    · omega

end Moment

/-! ### Notes that are due -/

theorem Note.isDueBy_iff {t : Moment} {n : Note} :
    n.isDueBy t = true ↔ ∃ due ∈ n.dueDate, due.instant ≤ t.instant := by
  simp [isDueBy, Option.any_eq_true]

namespace Query

variable {op v raw : Text} {a : Date} {now : Moment} {n : Note}

/-- A query that is nothing but a valid date asks for this date alone. -/
theorem accepts_due_iff (hop : op.toList.map Letter.toLower = ("due:" : Text).toList)
    (ha : Token.IsWritten v.toList a) (hraw : words raw = [op ++ v]) :
    (parse raw).descriptor.accepts now n = true ↔
      n.isSearchable = true ∧ n.isDueBy (.ofDate a) = true := by
  have hparse : parse raw = { descriptor := { dueBefore := some (.ofDate a) } } := by
    rw [parse, tokens, hraw, List.map_singleton, token_due hop, Token.dateOf?_of_isWritten ha]
    rfl
  rw [hparse, Descriptor.accepts_iff]
  simp [Descriptor.acceptsTags]

/-- The word `due:v`, if `v` is of plain characters, is taken just if `v` is a day of the calendar
in plain digits.  Alone in a query it finds the notes that are due, as instants and with their
offsets taken off, not later than the midnight in Universal Time with which the day begins; so a
later day finds them too. -/
theorem due_iff_instant_le (hop : op.toList.map Letter.toLower = ("due:" : Text).toList)
    (hplain : ∀ c ∈ v.toList, c.toNat < 0x80) :
    (∀ raw, op ++ v ∈ words raw →
      (op ++ v ∉ (parse raw).discarded ↔ ∃ a, Token.IsWritten v.toList a)) ∧
    ∀ a, Token.IsWritten v.toList a → ∀ raw, words raw = [op ++ v] →
      ∀ now n, n.isSearchable = true →
        ((parse raw).descriptor.accepts now n = true ↔
          ∃ due ∈ n.dueDate, (due.date.dayNumber * 86400000000 + due.time.micros : ℤ) -
            due.offset.elim 0 (·.micros) ≤ a.dayNumber * 86400000000) ∧
        (∀ due ∈ n.dueDate, due.offset.elim 0 (·.micros) = 0 →
          ((parse raw).descriptor.accepts now n = true ↔
            due.date.IsBefore a ∨ due.date = a ∧ due.time = .midnight)) ∧
        ∀ op' v' raw' b, op'.toList.map Letter.toLower = ("due:" : Text).toList →
          Token.IsWritten v'.toList b → words raw' = [op' ++ v'] → a.IsBefore b →
          (parse raw).descriptor.accepts now n = true →
          (parse raw').descriptor.accepts now n = true := by
  constructor
  · intro raw hmem
    have htaken : op ++ v ∉ (parse raw).discarded ↔ ∃ a, Token.dateOf? v.toList = some a := by
      rw [mem_discarded_due_iff hop, not_and, ← Option.ne_none_iff_exists']
      exact ⟨fun h => h hmem, fun h _ => h⟩
    rw [htaken]
    exact exists_congr fun a => Token.dateOf?_eq_some_iff hplain
  · intro a ha raw hraw now n hsearchable
    have haccepts : (parse raw).descriptor.accepts now n = true ↔
        ∃ due ∈ n.dueDate, due.instant ≤ (Moment.ofDate a).instant := by
      rw [accepts_due_iff hop ha hraw, Note.isDueBy_iff]
      exact ⟨And.right, fun h => ⟨hsearchable, h⟩⟩
    refine ⟨?_, fun due hdue hoffset => ?_, fun op' v' raw' b hop' hb hraw' hbefore h => ?_⟩
    · rw [haccepts, Moment.instant_ofDate]
      simp only [Moment.instant_eq]
    · rw [haccepts, ← Moment.instant_le_ofDate_iff hoffset]
      refine ⟨?_, fun h => ⟨due, hdue, h⟩⟩
      rintro ⟨t, ht, hle⟩
      rwa [Option.mem_unique hdue ht]
    · obtain ⟨due, hdue, hle⟩ := haccepts.mp h
      have hlt := Date.dayNumber_lt_iff.mpr hbefore
      rw [accepts_due_iff hop' hb hraw', Note.isDueBy_iff]
      refine ⟨hsearchable, due, hdue, hle.trans ?_⟩
      rw [Moment.instant_ofDate, Moment.instant_ofDate]
      omega

/-- In its zone the note is due in the morning of a leap day, and in Universal Time at the midnight
with which this day begins. -/
theorem due_iff_instant_le_leapDay :
    let leapDay : Date := ⟨2024, 2, 29, by decide⟩
    let due : Moment := ⟨leapDay, ⟨5, 30, 0, 0, by decide⟩, some ⟨330 * 60000000, false, by decide⟩⟩
    let n := { Note.plain "a" "Milk" (.ofDate .first) with dueDate := some due }
    let raw : Text := " DUE:2024-2-29"
    ("DUE:" : Text).toList.map Letter.toLower = ("due:" : Text).toList ∧
      (∀ c ∈ ("2024-2-29" : Text).toList, c.toNat < 0x80) ∧
      words raw = [("DUE:" : Text) ++ "2024-2-29"] ∧
      ("DUE:" : Text) ++ "2024-2-29" ∉ (parse raw).discarded ∧
      (parse raw).descriptor.accepts due n = true ∧
      (parse "due:2024-02-28").descriptor.accepts due n = false := by
  intro leapDay due n raw
  have hop : ("DUE:" : Text).toList.map Letter.toLower = ("due:" : Text).toList := by decide
  have hplain : ∀ c ∈ ("2024-2-29" : Text).toList, c.toNat < 0x80 := by decide
  have hwritten : Token.IsWritten ("2024-2-29" : Text).toList leapDay :=
    Token.isWritten_of_dateOf? hplain (by decide +kernel)
  have hraw : words raw = [("DUE:" : Text) ++ "2024-2-29"] := by decide +kernel
  obtain ⟨htaken, hfound⟩ := due_iff_instant_le hop hplain
  have hmem : ("DUE:" : Text) ++ "2024-2-29" ∈ words raw := by
    rw [hraw]
    exact List.mem_singleton_self _
  exact ⟨hop, hplain, hraw, (htaken raw hmem).mpr ⟨leapDay, hwritten⟩,
    (hfound leapDay hwritten raw hraw due n rfl).1.mpr ⟨due, rfl, by decide +kernel⟩,
    by decide +kernel⟩

end Query

end Notebook
