import Mathlib.Data.List.TakeWhile
import Notebook.Embedding.WordTable
import Notebook.Proofs.Basic
import Notebook.Proofs.Keyed
import Notebook.Proofs.Text.Words

/-!
# Rows of word tables

A text for a word table lists rows, of which those are well formed that have a word and one number
or more, with blanks between them.  Reading cuts lines at single spaces.  Where other blanks, or
several of them, stand between two parts, it does not see the row or takes it for another one, and
a row of the right length that is not well formed ends it with an error.
-/

namespace Notebook.WordTable

/-! ### Rows -/

/-- The longest pieces of a line without a blank. -/
def wordsOf (line : List Char) : List (List Char) :=
  (line.splitOnP fun c : Char => Text.isBlank c).filter (! ·.isEmpty)

/-- A word and the texts of its components, of which there is one at least. -/
structure Row where
  word : List Char
  components : List (List Char)
  deriving DecidableEq

namespace Row

/-- All components are numbers. -/
def isReadable (r : Row) : Bool := r.components.all fun p => (Decimal.readTyped? p).isSome

/-- What the row puts into a table. -/
def entry (r : Row) : Text × Grid :=
  (Text.lower (Text.ofChars r.word),
    .ofList ((r.components.filterMap Decimal.readTyped?).map Decimal.toSingle))

end Row

section Cut

variable (cut : List Char → List (List Char))

/-- The row on a line that is cut into parts in the given way. -/
def row? (line : List Char) : Option Row :=
  match cut line with
  | word :: p :: ps => some ⟨word, p :: ps⟩
  | _ => none

/-- Has the line two parts, both of them whole numbers? -/
def announces (line : List Char) : Bool :=
  let ps := cut line
  ps.length == 2 && ps.all fun p => !p.isEmpty && p.all Text.isDigit

/-- The lines without a header. -/
def withoutHeader : List (List Char) → List (List Char)
  | [] => []
  | l :: ls => if announces cut l then ls else l :: ls

def rowsOf (ls : List (List Char)) : List Row := (withoutHeader cut ls).filterMap (row? cut)

end Cut

/-- How many components the first row has. -/
def width : List Row → Nat
  | [] => 0
  | r :: _ => r.components.length

def ofWidth (d : Nat) (rows : List Row) : List Row := rows.filter (·.components.length = d)

/-- The rows with as many components as the first one. -/
def fitting (rows : List Row) : List Row := ofWidth (width rows) rows

/-- The table with the rows that fit to the first one.  Of two rows for one word the later one
counts. -/
def ofRows (rows : List Row) : WordTable :=
  ⟨Keyed.ofPairs ((fitting rows).map Row.entry), width rows⟩

/-- The table of the well-formed rows of a text. -/
def wellFormed (ls : List (List Char)) : WordTable :=
  ofRows ((rowsOf wordsOf ls).filter Row.isReadable)

/-- The first component that is no number. -/
def unreadable? (rows : List Row) : Option (List Char) :=
  (rows.flatMap Row.components).find? fun p => (Decimal.readTyped? p).isNone

theorem unreadable?_eq_none_iff {rows : List Row} :
    unreadable? rows = none ↔ ∀ r ∈ rows, r.isReadable = true := by
  simp only [unreadable?, List.find?_eq_none, List.mem_flatMap, Row.isReadable, List.all_eq_true]
  constructor
  · intro h r hr p hp
    simpa [Option.isSome_iff_ne_none] using h p ⟨r, hr, hp⟩
  · rintro h p ⟨r, hr, hp⟩
    simpa [Option.isSome_iff_ne_none] using h r hr p hp

theorem unreadable?_cons (r : Row) (rows : List Row) :
    unreadable? (r :: rows) = (unreadable? [r]).or (unreadable? rows) := by
  simp [unreadable?, List.find?_append]

/-- A word is found under the last row for it. -/
theorem vector?_ofRows (rows : List Row) (word : Text) :
    (ofRows rows).vector? word =
      ((fitting rows).reverse.find? (·.entry.1 = word)).map (·.entry.2) := by
  show Keyed.get? word (Keyed.ofPairs ((fitting rows).map Row.entry)) = _
  rw [Keyed.get?_ofPairs, ← List.map_reverse, List.find?_map, Option.map_map]
  rfl

/-- Rows that are not well formed may be left out, unless one of them is as long as the first. -/
theorem ofRows_filter_isReadable {rows : List Row} (h : ∀ r ∈ fitting rows, r.isReadable = true) :
    ofRows (rows.filter Row.isReadable) = ofRows rows := by
  have hwidth : width (rows.filter Row.isReadable) = width rows := by
    cases rows with
    | nil => rfl
    | cons r rows =>
      have hr : r.isReadable = true :=
        h r (List.mem_filter.mpr ⟨List.mem_cons_self, by simp [width]⟩)
      rw [List.filter_cons_of_pos hr]
      rfl
  have hfitting : fitting (rows.filter Row.isReadable) = fitting rows := by
    rw [fitting, hwidth, ofWidth, List.filter_comm]
    exact List.filter_eq_self.mpr h
  rw [ofRows, ofRows, hfitting, hwidth]

/-! ### Reading -/

/-- The table, if all components of the rows are numbers. -/
def ifReadable (rows : List Row) (t : WordTable) : Except LoadError WordTable :=
  match unreadable? rows with
  | some p => .error (.unreadable (Text.ofChars p))
  | none => .ok t

theorem ifReadable_eq_ok_iff {rows : List Row} {t t' : WordTable} :
    ifReadable rows t = .ok t' ↔ (∀ r ∈ rows, r.isReadable = true) ∧ t = t' := by
  rw [← unreadable?_eq_none_iff]
  unfold ifReadable
  cases unreadable? rows <;> simp

theorem components_eq (r : Row) (f : List Float → WordTable) :
    (components r.components).map f = ifReadable [r] (f r.entry.2.entries) := by
  have hread : ∀ ps : List (List Char), components ps =
      match ps.find? fun p => (Decimal.readTyped? p).isNone with
      | some p => .error (.unreadable (Text.ofChars p))
      | none => .ok ((ps.filterMap Decimal.readTyped?).map Decimal.toSingle) := by
    intro ps
    induction ps with
    | nil => rfl
    | cons p ps ih =>
      rw [components]
      cases hp : Decimal.readTyped? p with
      | none => simp [hp]
      | some x =>
        rw [List.find?_cons_of_neg (by simp [hp]), List.filterMap_cons_some hp, ih]
        cases ps.find? fun p => (Decimal.readTyped? p).isNone <;> rfl
  have hsingle : unreadable? [r] =
      r.components.find? fun p => (Decimal.readTyped? p).isNone := by simp [unreadable?]
  rw [hread, ifReadable, hsingle]
  cases r.components.find? fun p => (Decimal.readTyped? p).isNone <;> rfl

/-- The table with the row put in, whatever its length. -/
def insertRow (t : WordTable) (r : Row) : WordTable :=
  { t with vectors := t.vectors.insert r.entry.1 r.entry.2 }

/-- The first row settles the length, and a row of another length is left out. -/
def addRow (t : WordTable) (r : Row) : Except LoadError WordTable :=
  let d := if t.dimension = 0 then r.components.length else t.dimension
  if r.components.length = d then ifReadable [r] ({ t with dimension := d }.insertRow r)
  else .ok { t with dimension := d }

theorem addLine_of_row?_eq_none {line : List Char} (h : row? parts line = none) (t : WordTable) :
    t.addLine line = .ok t := by
  unfold row? at h
  unfold addLine
  split
  · next word p ps hparts => simp [hparts] at h
  · rfl

theorem addLine_of_row?_eq_some {line : List Char} {r : Row} (h : row? parts line = some r)
    (t : WordTable) : t.addLine line = t.addRow r := by
  unfold row? at h
  split at h
  · next word p ps hparts =>
    cases h
    simp only [addLine, hparts, addRow, List.length_cons]
    split
    all_goals
      split
      · exact components_eq ⟨word, p :: ps⟩ _
      · rfl
  · cases h

theorem addRow_eq {t : WordTable} (ht : t.dimension ≠ 0) (r : Row) :
    t.addRow r =
      if r.components.length = t.dimension then ifReadable [r] (t.insertRow r) else .ok t := by
  simp only [addRow, if_neg ht]

/-- Once the length is settled, the rows that have it are put in one after the other. -/
theorem addLines_eq {t : WordTable} (ht : t.dimension ≠ 0) (ls : List (List Char)) :
    t.addLines ls =
      ifReadable (ofWidth t.dimension (ls.filterMap (row? parts)))
        ((ofWidth t.dimension (ls.filterMap (row? parts))).foldl insertRow t) := by
  induction ls generalizing t with
  | nil => rfl
  | cons l ls ih =>
    rw [addLines]
    cases hrow : row? parts l with
    | none =>
      rw [addLine_of_row?_eq_none hrow, List.filterMap_cons_none hrow]
      exact ih ht
    | some r =>
      rw [addLine_of_row?_eq_some hrow, addRow_eq ht, List.filterMap_cons_some hrow]
      by_cases hfits : r.components.length = t.dimension
      · have hnext := ih (t := t.insertRow r) ht
        rw [if_pos hfits, ofWidth, List.filter_cons_of_pos (by simpa using hfits), List.foldl_cons]
        unfold ifReadable at hnext ⊢
        rw [unreadable?_cons r (List.filter _ _)]
        cases hr : unreadable? [r] with
        | some p => rfl
        | none => exact hnext
      · rw [if_neg hfits, ofWidth, List.filter_cons_of_neg (by simpa using hfits)]
        exact ih ht

theorem foldl_insertRow (rows : List Row) (t : WordTable) :
    rows.foldl insertRow t =
      { t with vectors := (rows.map Row.entry).foldl (fun r q => r.insert q.1 q.2) t.vectors } := by
  induction rows generalizing t with
  | nil => rfl
  | cons r rows ih => exact ih (t.insertRow r)

theorem addLines_empty (ls : List (List Char)) :
    empty.addLines ls =
      ifReadable (fitting (ls.filterMap (row? parts))) (ofRows (ls.filterMap (row? parts))) := by
  induction ls with
  | nil => rfl
  | cons l ls ih =>
    cases hrow : row? parts l with
    | none =>
      rw [addLines, addLine_of_row?_eq_none hrow, List.filterMap_cons_none hrow]
      exact ih
    | some r =>
      -- with the length of this row settled, the row is put in like all others
      have hlength : r.components.length ≠ 0 := by
        unfold row? at hrow
        split at hrow
        · cases hrow
          exact Nat.succ_ne_zero _
        · cases hrow
      have hfirst : empty.addRow r = (⟨[], r.components.length⟩ : WordTable).addRow r := by
        rw [addRow_eq (t := ⟨[], r.components.length⟩) hlength]
        rfl
      have hsettled : empty.addLines (l :: ls) =
          (⟨[], r.components.length⟩ : WordTable).addLines (l :: ls) := by
        rw [addLines, addLines, addLine_of_row?_eq_some hrow, addLine_of_row?_eq_some hrow, hfirst]
      rw [hsettled, addLines_eq hlength, foldl_insertRow, List.filterMap_cons_some hrow]
      rfl

/-- What is read from lines is told by their rows. -/
theorem ofLines_eq (ls : List (List Char)) :
    ofLines ls = ifReadable (fitting (rowsOf parts ls)) (ofRows (rowsOf parts ls)) := by
  cases ls with
  | nil => rfl
  | cons l ls => exact addLines_empty (withoutHeader parts (l :: ls))

/-! ### Lines with single spaces -/

/-- Blank, or with nothing in front of its first word and one space between any two words. -/
def SinglySpaced (line : List Char) : Prop :=
  wordsOf line = [] ∨ parts line = wordsOf line

instance (line : List Char) : Decidable (SinglySpaced line) := inferInstanceAs (Decidable (_ ∨ _))

/-- A line has the words that it has as a text. -/
theorem wordsOf_map_char (line : List Char) :
    Text.wordsOf (line.map .char) = (wordsOf line).map (List.map .char) := by
  unfold Text.wordsOf wordsOf
  rw [splitOnP_map, List.filter_map]
  congr 2
  funext w
  simp

theorem parts_of_wordsOf_eq_nil {line : List Char} (h : wordsOf line = []) :
    parts line = [[]] := by
  have hblank : ∀ c ∈ line, Text.isBlank (.char c) = true := by
    have hwords : Text.words (.ofChars line) = [] := by
      rw [Text.words, Text.toList_ofChars, wordsOf_map_char, h]
      rfl
    simpa [Text.isBlankText] using (Text.words_eq_nil_iff _).mp hwords
  have hnothing : Text.dropEndWhile (fun c : Char => Text.isBlank c) line = [] := by
    unfold Text.dropEndWhile
    rw [List.dropWhile_eq_nil_iff.mpr fun c hc => hblank c (List.mem_reverse.mp hc),
      List.reverse_nil]
  rw [parts, hnothing]
  rfl

theorem SinglySpaced.row?_eq {line : List Char} (h : SinglySpaced line) :
    row? parts line = row? wordsOf line := by
  unfold row?
  rcases h with h | h
  · rw [parts_of_wordsOf_eq_nil h, h]
  · rw [h]

theorem SinglySpaced.announces_eq {line : List Char} (h : SinglySpaced line) :
    announces parts line = announces wordsOf line := by
  unfold announces
  rcases h with h | h
  · rw [parts_of_wordsOf_eq_nil h, h]
    rfl
  · rw [h]

theorem rowsOf_parts {ls : List (List Char)} (h : ∀ l ∈ ls, SinglySpaced l) :
    rowsOf parts ls = rowsOf wordsOf ls := by
  have hheader : withoutHeader parts ls = withoutHeader wordsOf ls := by
    cases ls with
    | nil => rfl
    | cons l ls => simp only [withoutHeader, (h l List.mem_cons_self).announces_eq]
  have hmem : ∀ l ∈ withoutHeader wordsOf ls, l ∈ ls := by
    cases ls with
    | nil => exact fun _ => id
    | cons l ls =>
      intro k hk
      simp only [withoutHeader] at hk
      split at hk
      · exact List.mem_cons_of_mem l hk
      · exact hk
  rw [rowsOf, hheader]
  exact List.filterMap_congr fun l hl => (h l (hmem l hl)).row?_eq

/-! ### Files -/

/-- A file is read to the table of its rows, cut at single spaces, unless a row of the right length
has a component that is no number.  If its lines have single spaces only, this is the table of the
well-formed rows just when there is no such component. -/
theorem load_eq_wellFormed_iff {path : Text} {disk : Disk} {text : List Char}
    (h : disk.read path = .ok ⟨text, .complete⟩) :
    let ls := Text.allLines text
    let rows := rowsOf parts ls
    load path disk =
        (match unreadable? (fitting rows) with
        | some p => .error (.content (.unreadable (Text.ofChars p)))
        | none => .ok (ofRows rows)) ∧
      ((∀ l ∈ ls, SinglySpaced l) →
        (load path disk = .ok (wellFormed ls) ↔ ∀ r ∈ fitting rows, r.isReadable = true)) := by
  intro ls rows
  have hload : load path disk = (ifReadable (fitting rows) (ofRows rows)).mapError .content := by
    rw [← ofLines_eq]
    simp only [load, h, ofFile]
    rfl
  refine ⟨?_, fun hspaced => ?_⟩
  · rw [hload]
    unfold ifReadable
    cases unreadable? (fitting rows) <;> rfl
  · rw [hload, except_mapError_eq_ok_iff, ifReadable_eq_ok_iff, wellFormed, ← rowsOf_parts hspaced]
    exact ⟨And.left, fun hread => ⟨hread, (ofRows_filter_isReadable hread).symm⟩⟩

/-- A header, a row that is too short, a blank line and two rows for one word. -/
theorem load_eq_wellFormed_header :
    let text : String := "9 2\nTea 1 2\nmilk 3\n\nTEA 0.5 -4 \n"
    let disk : Disk := [(["v.txt"], .file (.ofString text))]
    let ls := Text.allLines text.toList
    disk.read "v.txt" = .ok ⟨text.toList, .complete⟩ ∧ (∀ l ∈ ls, SinglySpaced l) ∧
      (∀ r ∈ fitting (rowsOf parts ls), r.isReadable = true) ∧
      load "v.txt" disk = .ok (wellFormed ls) ∧
      wellFormed ls = ⟨[("tea", .ofList [0.5, -4.0])], 2⟩ := by
  intro text disk ls
  have hfile : disk.read "v.txt" = .ok ⟨text.toList, .complete⟩ := by decide +kernel
  have hspaced : ∀ l ∈ ls, SinglySpaced l := by decide +kernel
  have hread : ∀ r ∈ fitting (rowsOf parts ls), r.isReadable = true := by decide +kernel
  exact ⟨hfile, hspaced, hread, ((load_eq_wellFormed_iff hfile).2 hspaced).mpr hread,
    by decide +kernel⟩

/-- Two spaces between a word and its number make an empty component, a tab makes one part of the
two, and one word in the place of a number ends the reading of all rows. -/
theorem load_ne_wellFormed :
    let read (text : String) := load "v.txt" [(["v.txt"], .file (.ofString text))]
    let rows (text : String) := wellFormed (Text.allLines text.toList)
    (read "tea  1\n" = .error (.content (.unreadable "")) ∧
        rows "tea  1\n" = ⟨[("tea", .ofList [1.0])], 1⟩) ∧
      (read "tea\t1\n" = .ok empty ∧ rows "tea\t1\n" = ⟨[("tea", .ofList [1.0])], 1⟩) ∧
      read "tea 1\nmilk two\n" = .error (.content (.unreadable "two")) ∧
        rows "tea 1\nmilk two\n" = ⟨[("tea", .ofList [1.0])], 1⟩ := by
  decide +kernel

end Notebook.WordTable
