import Notebook.Fields.Read
import Notebook.Proofs.Calendar
import Notebook.Proofs.Decimal.Text

/-!
# Moments written and read

A moment with an offset is written as a date, a time of day and a zone.  Every number in it has its
fixed width, so it is read back as it was, if its offset can be told in hours and minutes.
-/

namespace Notebook.Moment

open Decimal

/-! ### Numbers of fixed width -/

theorem length_padded {width n : ℕ} (hw : 0 < width) (h : n < 10 ^ width) :
    (padded width n).length = width := by
  have hle := (Nat.length_toDigits_le_iff (n := n) (by norm_num : 1 < 10) hw).mpr h
  simp only [padded, List.length_append, List.length_replicate]
  omega

theorem digits_padded (width n : ℕ) : Digits (padded width n) :=
  digits_append.mpr ⟨digits_zeros _, digits_toDigits n⟩

theorem natOfDigits_padded (width n : ℕ) : natOfDigits (padded width n) = n := by
  have hz := natOfDigits_zeros (width - (Nat.toDigits 10 n).length)
  rw [zeros] at hz
  rw [padded, natOfDigits_append, hz, natOfDigits_toDigits]
  omega

theorem digits?_padded {width n : ℕ} (hw : 0 < width) (h : n < 10 ^ width) (r : List Char) :
    digits? width (padded width n ++ r) = some (n, r) := by
  have hlen := length_padded hw h
  have htake : (padded width n ++ r).take width = padded width n := List.take_left' hlen
  have hdrop : (padded width n ++ r).drop width = r := List.drop_left' hlen
  have hall : (padded width n).all Char.isDigit = true := by
    rw [List.all_eq_true]
    exact digits_padded width n
  simp only [digits?, htake, hdrop, hlen, hall, natOfDigits_padded, decide_true, Bool.and_self,
    if_true]

/-! ### Dates -/

theorem dateParts?_padded {y m d : ℕ} (hy : y < 10 ^ 4) (hm : m < 10 ^ 2) (hd : d < 10 ^ 2)
    (r : List Char) :
    dateParts? (padded 4 y ++ '-' :: padded 2 m ++ '-' :: padded 2 d ++ r) =
      some ((y, m, d), r) := by
  have htext : padded 4 y ++ '-' :: padded 2 m ++ '-' :: padded 2 d ++ r =
      padded 4 y ++ ('-' :: (padded 2 m ++ ('-' :: (padded 2 d ++ r)))) := by simp
  simp only [dateParts?, htext, digits?_padded (by norm_num) hy, Option.bind_eq_bind,
    Option.bind_some, after?, if_true, digits?_padded (by norm_num) hm,
    digits?_padded (by norm_num) hd]
  rfl

theorem Date.bounds (a : Date) : a.year < 10 ^ 4 ∧ a.month < 10 ^ 2 ∧ a.day < 10 ^ 2 := by
  obtain ⟨y, m, d, -, hy, -, hm, -, hd⟩ := a
  have hdays := daysInMonth_le y m
  simp only
  omega

/-! ### Times -/

/-- What may stand behind the seconds: neither a digit nor a point. -/
def EndsSeconds (r : List Char) : Prop :=
  ∃ c t, r = c :: t ∧ c.isDigit = false ∧ c ≠ '.' ∧ c ≠ ','

theorem microsOfDigits_padded {u : ℕ} (hu : u < 10 ^ 6) : microsOfDigits (padded 6 u) = u := by
  rw [microsOfDigits, List.take_left' (length_padded (by norm_num) hu), natOfDigits_padded]

theorem seconds?_padded {s u : ℕ} (hs : s < 10 ^ 2) (hu : u < 10 ^ 6) {r : List Char}
    (hr : EndsSeconds r) :
    seconds? (':' :: padded 2 s ++ fractionText u ++ r) = some ((s, u), r) := by
  obtain ⟨c, t, rfl, hdigit, hpoint, hcomma⟩ := hr
  have htext : ':' :: padded 2 s ++ fractionText u ++ c :: t =
      ':' :: (padded 2 s ++ (fractionText u ++ c :: t)) := by simp
  rw [htext, seconds?, digits?_padded (by norm_num) hs]
  simp only [Option.bind_eq_bind, Option.bind_some]
  by_cases hzero : u = 0
  · subst hzero
    simp [fractionText, hpoint, hcomma]
  · obtain ⟨h1, h2⟩ := span_digits (digits_padded 6 u) (r := c :: t) (by rintro d ⟨⟩; exact hdigit)
    have hne : (padded 6 u).isEmpty = false := by
      rw [List.isEmpty_eq_false_iff, ← List.length_pos_iff, length_padded (by norm_num) hu]
      norm_num
    simp [fractionText, hzero, h1, h2, hne, microsOfDigits_padded hu]

/-! ### Zones -/

theorem seconds_of_expressible {o : Offset} {k : ℤ} (hk : o.micros = 60000000 * k) :
    o.seconds = 60 * k := by
  rw [Offset.seconds, hk]
  split <;> omega

theorem zoneText_some (o : Offset) :
    zoneText (some o) =
      if o.seconds = 0 then ['Z']
      else (if o.seconds < 0 then '-' else '+') ::
        (padded 2 (o.seconds.natAbs / 60 / 60) ++ ':' :: padded 2 (o.seconds.natAbs / 60 % 60)) :=
  rfl

theorem endsSeconds_zoneText (o : Offset) : EndsSeconds (zoneText (some o)) := by
  rw [zoneText_some]
  split
  · exact ⟨'Z', [], rfl, rfl, by decide, by decide⟩
  · refine ⟨_, _, rfl, ?_⟩
    split <;> decide

theorem zone?_signed {c : Char} {sign : ℤ} (hc : c = '+' ∧ sign = 1 ∨ c = '-' ∧ sign = -1)
    {h m : ℕ} (hh : h < 10 ^ 2) (hm : m < 60) :
    zone? (c :: (padded 2 h ++ ':' :: padded 2 m)) =
      (Offset.ofMinutes? (sign * (h * 60 + m))).map some := by
  have hminutes := digits?_padded (by norm_num) (show m < 10 ^ 2 by omega) []
  rw [List.append_nil] at hminutes
  have hZ : ¬ (c = 'Z' ∨ c = 'z') := by
    rcases hc with ⟨rfl, -⟩ | ⟨rfl, -⟩ <;> decide
  rw [zone?, if_neg hZ]
  rcases hc with ⟨rfl, rfl⟩ | ⟨rfl, rfl⟩
  all_goals
    simp [sign?, digits?_padded (by norm_num) hh, after?, hminutes, hm]

/-- A zone that can be told in hours and minutes is read back. -/
theorem zone?_zoneText {o : Offset} (ho : o.Expressible) :
    zone? (zoneText (some o)) = some (some o) := by
  obtain ⟨⟨k, hk⟩, hsettled⟩ := ho
  have hseconds := seconds_of_expressible hk
  obtain ⟨micros, unsettled, hlow, hhigh⟩ := o
  simp only at hk hsettled
  subst hk hsettled
  have hof : Offset.ofMinutes? k = some ⟨60000000 * k, false, hlow, hhigh⟩ := by
    rw [Offset.ofMinutes?, dif_pos (by omega)]
    congr 2
    omega
  have habs : (60 * k).natAbs / 60 = k.natAbs := by omega
  have hh : k.natAbs / 60 < 10 ^ 2 := by omega
  have hm : k.natAbs % 60 < 60 := Nat.mod_lt _ (by norm_num)
  rw [zoneText_some, hseconds, habs]
  split
  · next hzero =>
    obtain rfl : k = 0 := by omega
    rfl
  · split
    · next hneg =>
      have hk : (-1 : ℤ) * (((k.natAbs / 60 : ℕ) : ℤ) * 60 + ((k.natAbs % 60 : ℕ) : ℤ)) = k := by
        omega
      rw [zone?_signed (.inr ⟨rfl, rfl⟩) hh hm, hk, hof]
      rfl
    · next hpos =>
      have hk : (1 : ℤ) * (((k.natAbs / 60 : ℕ) : ℤ) * 60 + ((k.natAbs % 60 : ℕ) : ℤ)) = k := by
        omega
      rw [zone?_signed (.inl ⟨rfl, rfl⟩) hh hm, hk, hof]
      rfl

theorem time?_padded (t : TimeOfDay) {o : Offset} (ho : o.Expressible) :
    time? (padded 2 t.hour ++ ':' :: padded 2 t.minute ++ ':' :: padded 2 t.second ++
      fractionText t.micro ++ zoneText (some o)) = some (t, some o) := by
  obtain ⟨h, m, s, u, hh, hm, hs, hu⟩ := t
  simp only
  have htext : padded 2 h ++ ':' :: padded 2 m ++ ':' :: padded 2 s ++ fractionText u ++
      zoneText (some o) = padded 2 h ++ (':' :: (padded 2 m ++
        (':' :: padded 2 s ++ fractionText u ++ zoneText (some o)))) := by simp
  have hof : TimeOfDay.of? h m s u = some ⟨h, m, s, u, hh, hm, hs, hu⟩ :=
    dif_pos ⟨hh, hm, hs, hu⟩
  rw [htext, time?, digits?_padded (by norm_num) (show h < 10 ^ 2 by omega)]
  simp only [Option.bind_eq_bind, Option.bind_some, after?, if_true]
  rw [digits?_padded (by norm_num) (show m < 10 ^ 2 by omega)]
  simp only [Option.bind_some]
  rw [seconds?_padded (show s < 10 ^ 2 by omega) (by omega) (endsSeconds_zoneText o)]
  simp only [Option.bind_some, hof, zone?_zoneText ho]
  rfl

/-! ### Moments -/

theorem readFull_chars {t : Moment} {o : Offset} (ho : t.offset = some o)
    (hexpressible : o.Expressible) : readFull (t.localText ++ zoneText t.offset) = .moment t := by
  obtain ⟨a, time, offset⟩ := t
  simp only at ho
  subst ho
  obtain ⟨hy, hm, hd⟩ := Date.bounds a
  have htext : localText ⟨a, time, some o⟩ ++ zoneText (some o) =
      padded 4 a.year ++ '-' :: padded 2 a.month ++ '-' :: padded 2 a.day ++
        'T' :: (padded 2 time.hour ++ ':' :: padded 2 time.minute ++ ':' :: padded 2 time.second ++
          fractionText time.micro ++ zoneText (some o)) := by simp [localText]
  have hdate : Date.of? a.year a.month a.day = some a := Date.of?_eq_some_iff.mpr ⟨rfl, rfl, rfl⟩
  rw [readFull, htext, dateParts?_padded hy hm hd]
  simp only [true_or, if_true, time?_padded _ hexpressible, ofParts, hdate]

/-- A moment with an offset that can be told is read back from its text. -/
theorem read_text {t : Moment} (h : t.offset.isSome) (hexpressible : t.Expressible) :
    read t.text.toList = .moment t := by
  obtain ⟨o, ho⟩ := Option.isSome_iff_exists.mp h
  rw [read, text, String.toList_ofList, readFull_chars ho (hexpressible o ho)]
  rfl

/-! ### Offsets that are read -/

theorem expressible_of_ofMinutes? {m : ℤ} {o : Offset} (h : Offset.ofMinutes? m = some o) :
    o.Expressible := by
  unfold Offset.ofMinutes? at h
  split at h
  · cases h
    exact ⟨Int.dvd_mul_left .., rfl⟩
  · cases h

theorem expressible_of_zone? {cs : List Char} {offset : Option Offset}
    (h : zone? cs = some offset) : ∀ o ∈ offset, o.Expressible := by
  unfold zone? at h
  split at h
  · cases h
    exact fun _ h => nomatch h
  · split at h
    · split at h
      · cases h
        rintro o ⟨⟩
        decide
      · cases h
    · obtain ⟨sign, -, h⟩ := Option.bind_eq_some_iff.mp h
      obtain ⟨⟨hours, r⟩, -, h⟩ := Option.bind_eq_some_iff.mp h
      obtain ⟨⟨minutes, r'⟩, -, h⟩ := Option.bind_eq_some_iff.mp h
      simp only at h
      split at h
      · obtain ⟨o, ho, rfl⟩ := Option.map_eq_some_iff.mp h
        rintro o' ⟨⟩
        exact expressible_of_ofMinutes? ho
      · cases h

/-- A moment that may have been read has an offset that can be told, if it has one. -/
def Reading.Expressible : Reading → Prop
  | .moment t => t.Expressible
  | _ => True

theorem expressible_ofParts {y m d : ℕ} {time : TimeOfDay} {offset : Option Offset}
    (h : ∀ o ∈ offset, o.Expressible) : (ofParts y m d time offset).Expressible := by
  unfold ofParts
  split
  · exact h
  · split <;> trivial

theorem expressible_ofMicros (n : ℤ) : (ofMicros n).Expressible := by
  simp only [ofMicros]
  split
  · trivial
  · split
    · trivial
    · rintro o ⟨⟩
      decide

theorem expressible_ofFloat (x : Float) : (ofFloat x).Expressible := by
  unfold ofFloat
  split
  · simp only
    split <;> exact expressible_ofMicros _
  · trivial

theorem expressible_readFull (cs : List Char) : (readFull cs).Expressible := by
  unfold readFull
  split
  · split
    · split
      · next time offset htime =>
        obtain ⟨_, -, htime⟩ := Option.bind_eq_some_iff.mp htime
        obtain ⟨_, -, htime⟩ := Option.bind_eq_some_iff.mp htime
        obtain ⟨_, -, htime⟩ := Option.bind_eq_some_iff.mp htime
        obtain ⟨_, -, htime⟩ := Option.bind_eq_some_iff.mp htime
        obtain ⟨_, -, htime⟩ := Option.bind_eq_some_iff.mp htime
        obtain ⟨offset', hzone, htime⟩ := Option.bind_eq_some_iff.mp htime
        cases htime
        exact expressible_ofParts (expressible_of_zone? hzone)
      · trivial
    · trivial
  · trivial

theorem expressible_readStamp (cs : List Char) : (readStamp cs).Expressible := by
  simp only [readStamp]
  split
  · split
    · trivial
    · exact expressible_ofMicros _
  · split
    · exact expressible_ofFloat _
    · trivial
  · trivial

theorem expressible_readDate (cs : List Char) : (readDate cs).Expressible := by
  unfold readDate
  split
  · exact expressible_ofParts fun _ h => nomatch h
  · trivial

theorem expressible_read (cs : List Char) : (read cs).Expressible := by
  have horElse {r r' : Reading} (h : r.Expressible) (h' : r'.Expressible) :
      (r.orElse r').Expressible := by
    cases r with
    | moment t => exact h
    | yearZero => trivial
    | unreadable => exact h'
  exact horElse (horElse (expressible_readFull cs) (expressible_readStamp cs))
    (expressible_readDate cs)

end Notebook.Moment
