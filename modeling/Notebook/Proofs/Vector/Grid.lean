import Notebook.Note.Record
import Notebook.Proofs.Decimal.Single
import Notebook.Proofs.Basic

/-!
# Grids written and read

A grid is written row by row.  Its shape is found again if no dimension but the last is empty and
there are not too many of them, and its entries are if they are finite singles.  Every grid that
was read is of this kind, up to the size of its entries.  An entry that is no finite number comes
back as no number at all.
-/

namespace Notebook.Grid

/-! ### Rows -/

/-- The first `n` rows of `size` entries each. -/
def rows {α : Type} (n size : ℕ) (xs : List α) : List (List α) :=
  (List.range n).map fun i => (xs.drop (i * size)).take size

theorem rows_succ {α : Type} (n size : ℕ) (xs : List α) :
    rows (n + 1) size xs = xs.take size :: rows n size (xs.drop size) := by
  have hdrop (i : ℕ) : xs.drop ((i + 1) * size) = (xs.drop size).drop (i * size) := by
    rw [List.drop_drop, Nat.add_mul, Nat.one_mul, Nat.add_comm]
  simp only [rows, List.range_succ_eq_map, List.map_cons, List.map_map, Nat.zero_mul,
    List.drop_zero, List.cons.injEq, true_and]
  exact List.map_congr_left fun i _ => by simp only [Function.comp, Nat.succ_eq_add_one, hdrop]

theorem length_rows {α : Type} (n size : ℕ) (xs : List α) : (rows n size xs).length = n := by
  simp [rows]

theorem flatten_rows {α : Type} {n size : ℕ} {xs : List α} (h : xs.length = n * size) :
    (rows n size xs).flatten = xs := by
  induction n generalizing xs with
  | zero =>
    rw [Nat.zero_mul] at h
    rw [List.eq_nil_of_length_eq_zero h]
    rfl
  | succ n ih =>
    have hrest : (xs.drop size).length = n * size := by
      rw [List.length_drop, h, Nat.add_mul, Nat.one_mul, Nat.add_sub_cancel]
    rw [rows_succ, List.flatten_cons, ih hrest, List.take_append_drop]

theorem length_of_mem_rows {α : Type} {n size : ℕ} {xs ys : List α} (h : xs.length = n * size)
    (hys : ys ∈ rows n size xs) : ys.length = size := by
  induction n generalizing xs with
  | zero => simp [rows] at hys
  | succ n ih =>
    rw [Nat.add_mul, Nat.one_mul] at h
    rw [rows_succ] at hys
    rcases List.mem_cons.mp hys with rfl | hys
    · rw [List.length_take]
      omega
    · exact ih (by rw [List.length_drop, h, Nat.add_sub_cancel]) hys

theorem mem_of_mem_rows {α : Type} {n size : ℕ} {xs ys : List α} {x : α}
    (hys : ys ∈ rows n size xs) (hx : x ∈ ys) : x ∈ xs := by
  obtain ⟨i, -, rfl⟩ := List.mem_map.mp hys
  exact List.mem_of_mem_drop (List.mem_of_mem_take hx)

theorem nested_cons (f : Float → Json) (n : ℕ) (shape : List ℕ) (xs : List Float) :
    nested f (n :: shape) xs = .arr ((rows n (entryCount shape) xs).map (nested f shape)) := by
  simp [nested, rows]

/-! ### Shapes that are written and read -/

/-- No dimension is empty, except the last one. -/
def Regular (shape : List ℕ) : Prop := ∀ n ∈ shape.dropLast, 0 < n

theorem regular_nil : Regular [] := by simp [Regular]

theorem regular_singleton (n : ℕ) : Regular [n] := by simp [Regular]

theorem regular_cons {n : ℕ} {shape : List ℕ} (hn : 0 < n) (h : Regular shape) :
    Regular (n :: shape) := by
  cases shape with
  | nil => exact regular_singleton n
  | cons m shape =>
    intro k hk
    rw [List.dropLast_cons_cons, List.mem_cons] at hk
    rcases hk with rfl | hk
    · exact hn
    · exact h k hk

theorem Regular.tail {n : ℕ} {shape : List ℕ} (h : Regular (n :: shape)) : Regular shape := by
  cases shape with
  | nil => exact regular_nil
  | cons m shape => exact fun k hk => h k (by simp [hk])

theorem Regular.head {n m : ℕ} {shape : List ℕ} (h : Regular (n :: m :: shape)) : 0 < n :=
  h n (by simp)

theorem commonPart_self (s : List ℕ) : commonPart s s = s := by
  induction s with
  | nil => rfl
  | cons n s ih => simp [commonPart, ih]

theorem nestingOfAll_of_eq {room : ℕ} {shape : List ℕ} {vs : List Json}
    (h : ∀ v ∈ vs, nestingWithin room v = ⟨shape, true⟩) :
    nestingOfAll room ⟨shape, true⟩ vs = ⟨shape, true⟩ := by
  induction vs with
  | nil => rfl
  | cons v vs ih =>
    have hmeet : Nesting.meet ⟨shape, true⟩ ⟨shape, true⟩ = ⟨shape, true⟩ := by
      simp [Nesting.meet, commonPart_self]
    rw [nestingOfAll, h v List.mem_cons_self, hmeet]
    exact ih fun w hw => h w (List.mem_cons_of_mem v hw)

/-- A value that is no list. -/
def Single (v : Json) : Prop := ∀ vs, v ≠ .arr vs

theorem nestingWithin_of_single {v : Json} (h : Single v) (room : ℕ) :
    nestingWithin room v = ⟨[], true⟩ := by
  cases v with
  | arr vs => exact absurd rfl (h vs)
  | _ => rfl

/-- The nesting of a grid that is written row by row is its shape. -/
theorem nestingWithin_nested {f : Float → Json} (hf : ∀ x, Single (f x)) {shape : List ℕ}
    (hshape : Regular shape) {room : ℕ} (hroom : shape.length ≤ room) {xs : List Float}
    (hxs : xs.length = entryCount shape) :
    nestingWithin room (nested f shape xs) = ⟨shape, true⟩ := by
  induction shape generalizing room xs with
  | nil => exact nestingWithin_of_single (hf _) room
  | cons n shape ih =>
    obtain ⟨room, rfl⟩ : ∃ k, room = k + 1 := ⟨room - 1, by simp at hroom; omega⟩
    rw [nested_cons]
    have hlen := length_rows n (entryCount shape) xs
    have hrow : ∀ v ∈ (rows n (entryCount shape) xs).map (nested f shape),
        nestingWithin room v = ⟨shape, true⟩ := by
      intro v hv
      obtain ⟨ys, hys, rfl⟩ := List.mem_map.mp hv
      exact ih hshape.tail (by simpa using hroom) (length_of_mem_rows hxs hys)
    cases hrows : rows n (entryCount shape) xs with
    | nil =>
      rw [hrows, List.length_nil] at hlen
      subst hlen
      cases shape with
      | nil => rfl
      | cons m shape => exact absurd hshape.head (lt_irrefl 0)
    | cons ys yss =>
      rw [hrows] at hlen hrow
      simp only [List.map_cons] at hrow ⊢
      rw [nestingWithin, hrow _ List.mem_cons_self,
        nestingOfAll_of_eq fun v hv => hrow v (List.mem_cons_of_mem _ hv)]
      simpa using hlen

/-! ### Entries -/

section

variable (round : Float → Float)

theorem entriesOf_of_single {v : Json} (h : Single v) :
    entriesOf round v = (entry v).map fun x => [round x] := by
  cases v with
  | arr vs => exact absurd rfl (h vs)
  | _ => rfl

theorem entriesOfAll_map {α : Type} {g : α → Json} {ps : List α} {out : α → List Float}
    (h : ∀ p ∈ ps, entriesOf round (g p) = .ok (out p)) :
    entriesOfAll round (ps.map g) = .ok (ps.map out).flatten := by
  induction ps with
  | nil => rfl
  | cons p ps ih =>
    rw [List.map_cons, entriesOfAll, h p List.mem_cons_self,
      ih fun q hq => h q (List.mem_cons_of_mem p hq)]
    rfl

/-- The entries of a grid are read one by one, each as what it was written as. -/
theorem entriesOf_nested {f : Float → Json} {back : Float → Float} (hf : ∀ x, Single (f x))
    {shape : List ℕ} {xs : List Float} (hxs : xs.length = entryCount shape)
    (hentry : ∀ x ∈ xs, (entry (f x)).map round = .ok (back x)) :
    entriesOf round (nested f shape xs) = .ok (xs.map back) := by
  induction shape generalizing xs with
  | nil =>
    obtain ⟨x, rfl⟩ := List.length_eq_one_iff.mp hxs
    obtain ⟨y, hy, hback⟩ := except_map_eq_ok_iff.mp (hentry x List.mem_cons_self)
    rw [nested, List.headD_cons, entriesOf_of_single round (hf x), hy]
    show Except.ok [round y] = .ok [back x]
    rw [hback]
  | cons n shape ih =>
    have hrow : ∀ ys ∈ rows n (entryCount shape) xs,
        entriesOf round (nested f shape ys) = .ok (ys.map back) := fun ys hys =>
      ih (length_of_mem_rows hxs hys) fun x hx => hentry x (mem_of_mem_rows hys hx)
    have hflatten : (rows n (entryCount shape) xs).flatten = xs := flatten_rows hxs
    rw [nested_cons, entriesOf, entriesOfAll_map round hrow, ← List.map_flatten, hflatten]

end

/-! ### Grids -/

/-- What every grid is that was read: as many dimensions as are looked at, none of them empty but
the last, and singles for entries. -/
structure Sound (g : Grid) : Prop where
  dimensions : g.shape.length ≤ maxDimensions
  regular : Regular g.shape
  singles : ∀ x ∈ g.entries, Decimal.toSingle x = x

theorem single_entryRecord (x : Float) : Single (Note.entryRecord x) := by
  intro vs
  unfold Note.entryRecord
  split <;> exact Json.noConfusion

/-- What an entry is read as when it was written. -/
def rereadEntry (x : Float) : Float := if Decimal.isFinite x then x else Decimal.nan

/-- What a grid is read as when it was written.  A single number that is not finite leaves nothing
behind. -/
def reread (g : Grid) : Option Grid :=
  if g.shape.isEmpty && !g.entries.all Decimal.isFinite then none else some (g.map rereadEntry)

/-- A grid of finite numbers is read as itself. -/
theorem reread_of_finite {g : Grid} (hfinite : ∀ x ∈ g.entries, Decimal.isFinite x = true) :
    g.reread = some g := by
  have hall : g.entries.all Decimal.isFinite = true := List.all_eq_true.mpr hfinite
  have hentries : g.entries.map rereadEntry = g.entries := by
    conv_rhs => rw [← List.map_id g.entries]
    refine List.map_congr_left fun x hx => ?_
    rw [rereadEntry, if_pos (hfinite x hx), id]
  rw [reread, hall, Bool.not_true, Bool.and_false, if_neg Bool.false_ne_true, map]
  simp only [hentries]

theorem toJson_eq_null_iff (g : Grid) : g.toJson Note.entryRecord = .null ↔ g.reread = none := by
  obtain ⟨shape, entries, hfull⟩ := g
  cases shape with
  | nil =>
    obtain ⟨x, rfl⟩ := List.length_eq_one_iff.mp hfull
    rw [toJson, nested, List.headD_cons, Note.entryRecord]
    cases hx : Decimal.isFinite x <;> simp [reread, hx]
  | cons n shape =>
    rw [toJson, nested_cons]
    simp [reread]

/-- A sound grid is read entry by entry. -/
theorem ofJson_toJson {g : Grid} (hg : g.Sound) :
    ofJson (g.toJson Note.entryRecord) = .ok (g.map rereadEntry) := by
  have hnesting : nesting (g.toJson Note.entryRecord) = ⟨g.shape, true⟩ :=
    nestingWithin_nested single_entryRecord hg.regular hg.dimensions g.full
  have hentry : ∀ x ∈ g.entries,
      (entry (Note.entryRecord x)).map Decimal.toSingle = .ok (rereadEntry x) := by
    intro x hx
    unfold Note.entryRecord rereadEntry
    split
    · exact congrArg Except.ok (hg.singles x hx)
    · exact congrArg Except.ok (Decimal.toSingle_of_nan (by decide))
  have hentries : entriesOf Decimal.toSingle (g.toJson Note.entryRecord) =
      .ok (g.entries.map rereadEntry) :=
    entriesOf_nested _ single_entryRecord g.full hentry
  rw [ofJson, ofRounded]
  simp only [hnesting, hentries, if_true]
  exact dif_pos (g.map rereadEntry).full

/-! ### Grids that were read -/

theorem nestingOfAll_exact {room : ℕ} {n : Nesting} {vs : List Json}
    (h : (nestingOfAll room n vs).exact = true) :
    n.exact = true ∧ (nestingOfAll room n vs).shape = n.shape := by
  induction vs generalizing n with
  | nil => exact ⟨h, rfl⟩
  | cons v vs ih =>
    rw [nestingOfAll] at h ⊢
    obtain ⟨hexact, hshape⟩ := ih h
    simp only [Nesting.meet, Bool.and_eq_true, beq_iff_eq] at hexact
    refine ⟨hexact.1.1, hshape.trans ?_⟩
    rw [Nesting.meet, ← hexact.2, commonPart_self]

theorem nestingWithin_regular {room : ℕ} {v : Json} (h : (nestingWithin room v).exact = true) :
    Regular (nestingWithin room v).shape ∧ (nestingWithin room v).shape.length ≤ room := by
  induction room generalizing v with
  | zero =>
    cases v with
    | arr vs => simp [nestingWithin] at h
    | _ => exact ⟨regular_nil, le_rfl⟩
  | succ room ih =>
    cases v with
    | arr vs =>
      cases vs with
      | nil => exact ⟨regular_singleton 0, Nat.le_add_left 1 room⟩
      | cons v vs =>
        rw [nestingWithin] at h ⊢
        obtain ⟨hexact, hshape⟩ := nestingOfAll_exact h
        obtain ⟨hregular, hlen⟩ := ih hexact
        simp only [hshape]
        exact ⟨regular_cons (Nat.succ_pos _) hregular, Nat.succ_le_succ hlen⟩
    | _ => exact ⟨regular_nil, Nat.zero_le _⟩

section

variable {round : Float → Float}

theorem rounded_of_single {v : Json} (hs : Single v) {xs : List Float}
    (h : entriesOf round v = .ok xs) : ∀ x ∈ xs, ∃ y, round y = x := by
  rw [entriesOf_of_single round hs] at h
  obtain ⟨y, -, rfl⟩ := except_map_eq_ok_iff.mp h
  intro x hx
  exact ⟨y, (List.mem_singleton.mp hx).symm⟩

mutual

/-- Every entry that was read has been rounded. -/
theorem rounded_of_mem_entriesOf : ∀ {v : Json} {xs : List Float},
    entriesOf round v = .ok xs → ∀ x ∈ xs, ∃ y, round y = x
  | .arr _, _, h => rounded_of_mem_entriesOfAll h
  | .null, _, h => rounded_of_single (fun _ => Json.noConfusion) h
  | .bool _, _, h => rounded_of_single (fun _ => Json.noConfusion) h
  | .int _, _, h => rounded_of_single (fun _ => Json.noConfusion) h
  | .float _, _, h => rounded_of_single (fun _ => Json.noConfusion) h
  | .str _, _, h => rounded_of_single (fun _ => Json.noConfusion) h
  | .obj _, _, h => rounded_of_single (fun _ => Json.noConfusion) h

theorem rounded_of_mem_entriesOfAll : ∀ {vs : List Json} {xs : List Float},
    entriesOfAll round vs = .ok xs → ∀ x ∈ xs, ∃ y, round y = x
  | [], _, h => by
    cases h
    simp
  | v :: vs, xs, h => by
    rw [entriesOfAll] at h
    obtain ⟨ys, hys, h⟩ := except_bind_eq_ok_iff.mp h
    obtain ⟨zs, hzs, h⟩ := except_bind_eq_ok_iff.mp h
    cases h
    intro x hx
    rcases List.mem_append.mp hx with hx | hx
    · exact rounded_of_mem_entriesOf hys x hx
    · exact rounded_of_mem_entriesOfAll hzs x hx

end

end

theorem sound_of_ofJson {v : Json} {g : Grid} (h : ofJson v = .ok g) : g.Sound := by
  rw [ofJson, ofRounded] at h
  split at h
  · next hexact =>
    obtain ⟨xs, hxs, h⟩ := except_bind_eq_ok_iff.mp h
    split at h
    · cases h
      obtain ⟨hregular, hlen⟩ := nestingWithin_regular hexact
      refine ⟨hlen, hregular, fun x hx => ?_⟩
      obtain ⟨y, rfl⟩ := rounded_of_mem_entriesOf hxs x hx
      exact Decimal.toSingle_toSingle y
    · cases h
  · cases h

end Notebook.Grid
