import Notebook.Fields.Read
import Notebook.Proofs.Json.Whole
import Notebook.Proofs.Moment
import Notebook.Proofs.Vector.Grid

/-!
# Fields written and read

A value that is written for a field is taken back by it.  What a field has taken in another
spelling it also takes in the one that is written.
-/

namespace Notebook.Fields

open Decimal

variable {α β : Type}

/-! ### Texts that spell a value -/

theorem spelled_ofString (read : List Char → Checked α) (s : String) :
    spelled read s = read s.toList := by
  rw [spelled, Text.toList_ofString, Text.chars?_map_char]

theorem choice_name (p : Priority) : choice Priority.ofName? (.str p.name) = .ok p := by
  cases p <;> decide

/-! ### Ratios -/

/-- A number that has passed as a ratio passes again. -/
theorem ratio_of_ratio {v : Json} {x : Float} (h : ratio v = .ok x) :
    ratio (.float x) = .ok x := by
  obtain ⟨y, -, hy⟩ := Checked.andThen_eq_ok_iff.mp h
  have hyx : y = x := by
    split at hy
    · cases hy
    · split at hy
      · cases hy
      · cases hy
        rfl
  subst hyx
  exact hy

theorem ratio_zero : ratio (.float 0.0) = .ok 0.0 := by decide +kernel

/-! ### Moments -/

/-- A moment with an offset that can be told is taken back. -/
theorem zonedMoment_text {t : Moment} (h : t.offset.isSome) (hexpressible : t.Expressible) :
    zonedMoment (.str t.text) = .ok t := by
  have hzoned : t.zoned = t := by
    obtain ⟨a, time, offset⟩ := t
    cases offset with
    | none => cases h
    | some o => rfl
  rw [zonedMoment, moment, spelled_ofString, Moment.read_text h hexpressible]
  exact congrArg Checked.ok hzoned

/-- A moment that is read has an offset that can be told. -/
theorem expressible_of_zonedMoment {v : Json} {t : Moment} (h : zonedMoment v = .ok t) :
    t.Expressible := by
  have hreading {unreadable : FaultKind} {r : Moment.Reading} (hr : r.Expressible) {u : Moment}
      (hu : ofReading unreadable r = .ok u) : u.Expressible := by
    cases r with
    | moment t =>
      cases hu
      exact hr
    | yearZero => cases hu
    | unreadable => cases hu
  obtain ⟨u, hu, rfl⟩ := Checked.map_eq_ok_iff.mp h
  refine Moment.expressible_zoned ?_
  unfold moment at hu
  split at hu
  · unfold spelled at hu
    split at hu
    · exact hreading (Moment.expressible_read _) hu
    · cases hu
  · exact hreading (Moment.expressible_ofMicros _) hu
  · exact hreading (Moment.expressible_ofFloat _) hu
  · cases hu

theorem isSome_offset_of_zonedMoment {v : Json} {t : Moment} (h : zonedMoment v = .ok t) :
    t.offset.isSome := by
  obtain ⟨u, -, rfl⟩ := Checked.map_eq_ok_iff.mp h
  rfl

/-! ### Grids -/

theorem sound_of_grid {v : Json} {g : Grid} (h : grid v = .ok g) : g.Sound := by
  unfold grid at h
  split at h
  · next hg =>
    cases h
    exact Grid.sound_of_ofJson hg
  all_goals cases h

/-! ### Lists and absent values -/

theorem items_map {read : Json → Checked α} {f : α → Json} {as : List α}
    (h : ∀ a ∈ as, read (f a) = .ok a) (i : ℕ) : items read i (as.map f) = .ok as := by
  induction as generalizing i with
  | nil => rfl
  | cons a as ih =>
    rw [List.map_cons, items, h a List.mem_cons_self,
      ih fun b hb => h b (List.mem_cons_of_mem a hb)]
    rfl

theorem list_map {read : Json → Checked α} {f : α → Json} {as : List α}
    (h : ∀ a ∈ as, read (f a) = .ok a) : list read (.arr (as.map f)) = .ok as := items_map h 0

theorem exists_list {read : Json → Checked α} {vs : List Json}
    (h : ∀ v ∈ vs, ∃ a, read v = .ok a) : ∃ as, list read (.arr vs) = .ok as := by
  have hitems : ∀ i, ∃ as, items read i vs = .ok as := by
    induction vs with
    | nil => exact fun i => ⟨[], rfl⟩
    | cons v vs ih =>
      intro i
      obtain ⟨a, ha⟩ := h v List.mem_cons_self
      obtain ⟨as, has⟩ := ih (fun v' hv' => h v' (List.mem_cons_of_mem v hv')) (i + 1)
      exact ⟨a :: as, by rw [items, ha, has]; rfl⟩
  exact hitems 0

theorem option_of_ne_null (read : Json → Checked α) {v : Json} (h : v ≠ .null) :
    option read v = (read v).map some := by
  cases v with
  | null => exact absurd rfl h
  | _ => rfl

theorem option_ofOption {read : Json → Checked α} {f : α → Json} {o : Option α}
    (hnull : ∀ a ∈ o, f a ≠ .null) (h : ∀ a ∈ o, read (f a) = .ok a) :
    option read (Json.ofOption f o) = .ok o := by
  cases o with
  | none => rfl
  | some a =>
    rw [Json.ofOption, option_of_ne_null read (hnull a rfl), h a rfl]
    rfl

/-- A grid that may be absent; one that leaves nothing behind is absent afterwards. -/
theorem option_grid_toJson {o : Option Grid} (ho : ∀ g ∈ o, g.Sound) :
    option grid (Json.ofOption (Grid.toJson Note.entryRecord) o) = .ok (o.bind Grid.reread) := by
  cases o with
  | none => rfl
  | some g =>
    rw [Json.ofOption, Option.bind_some]
    cases hreread : g.reread with
    | none =>
      rw [(Grid.toJson_eq_null_iff g).mpr hreread]
      rfl
    | some g' =>
      have hnull : g.toJson Note.entryRecord ≠ .null := by
        rw [Ne, Grid.toJson_eq_null_iff, hreread]
        exact Option.some_ne_none g'
      have hg' : g.map Grid.rereadEntry = g' := by
        unfold Grid.reread at hreread
        split at hreread
        · cases hreread
        · exact Option.some.inj hreread
      rw [option_of_ne_null grid hnull, grid, Grid.ofJson_toJson (ho g rfl), hg']
      rfl

/-- What holds of every value that is read holds of one that may be absent. -/
theorem option_forall {read : Json → Checked α} {P : α → Prop}
    (hP : ∀ {v a}, read v = .ok a → P a) {v : Json} {o : Option α} (h : option read v = .ok o) :
    ∀ a ∈ o, P a := by
  intro a ha
  by_cases hnull : v = .null
  · subst hnull
    cases h
    cases ha
  · rw [option_of_ne_null read hnull] at h
    obtain ⟨b, hb, rfl⟩ := Checked.map_eq_ok_iff.mp h
    cases ha
    exact hP hb

/-! ### Fields by name -/

theorem seq_ok {f : Checked (α → β)} {r : Checked α} {g : α → β} {a : α} (hf : f = .ok g)
    (hr : r = .ok a) : f <*> r = .ok (g a) := Checked.seq_eq_ok_iff.mpr ⟨g, a, hf, hr, rfl⟩

theorem map_ok {r : Checked α} {a : α} (g : α → β) (hr : r = .ok a) : g <$> r = .ok (g a) := by
  rw [hr]
  rfl

theorem exists_of_map_ok {r : Checked α} {g : α → β} {b : β} (h : g <$> r = .ok b) :
    ∃ a, r = .ok a ∧ g a = b := Checked.map_eq_ok_iff.mp h

theorem required_of_get? {name : Text} {read : Json → Checked α} {fields : Keyed Json} {v : Json}
    {a : α} (hv : fields.get? name = some v) (h : read v = .ok a) :
    required name read fields = .ok a := by
  rw [required, hv]
  simp only [h, Checked.under_ok]

theorem defaulted_of_get? {name : Text} {read : Json → Checked α} {fields : Keyed Json} {v : Json}
    {a : α} (default : α) (hv : fields.get? name = some v) (h : read v = .ok a) :
    defaulted name default read fields = .ok a := by
  rw [defaulted, hv]
  simp only [h, Checked.under_ok]

theorem exists_of_required {name : Text} {read : Json → Checked α} {fields : Keyed Json} {a : α}
    (h : required name read fields = .ok a) : ∃ v, fields.get? name = some v ∧ read v = .ok a := by
  unfold required at h
  split at h
  · next v hv => exact ⟨v, hv, Checked.under_eq_ok_iff.mp h⟩
  · cases h

theorem eq_or_exists_of_defaulted {name : Text} {default : α} {read : Json → Checked α}
    {fields : Keyed Json} {a : α} (h : defaulted name default read fields = .ok a) :
    a = default ∨ ∃ v, fields.get? name = some v ∧ read v = .ok a := by
  unfold defaulted at h
  split at h
  · next v hv => exact .inr ⟨v, hv, Checked.under_eq_ok_iff.mp h⟩
  · cases h
    exact .inl rfl

/-- What holds of the default and of every value that is read holds of the field. -/
theorem defaulted_forall {name : Text} {default : α} {read : Json → Checked α} {P : α → Prop}
    (hdefault : P default) (hP : ∀ {v a}, read v = .ok a → P a) {fields : Keyed Json} {a : α}
    (h : defaulted name default read fields = .ok a) : P a := by
  rcases eq_or_exists_of_defaulted h with rfl | ⟨v, -, hv⟩
  · exact hdefault
  · exact hP hv

/-! ### Fields with whole texts -/

theorem whole_of_text {v : Json} {s : Text} (hv : v.IsWhole) (h : text v = .ok s) : s.Whole := by
  cases hv with
  | str hs =>
    cases h
    exact hs
  | null | bool | int | float | arr | obj => cases h

/-- What holds of whatever is read from a whole value holds of the items of a whole list. -/
theorem list_forall_of_isWhole {read : Json → Checked α} {P : α → Prop}
    (hP : ∀ {v a}, v.IsWhole → read v = .ok a → P a) {v : Json} {as : List α} (hv : v.IsWhole)
    (h : list read v = .ok as) : ∀ a ∈ as, P a := by
  have hitems {vs : List Json} (hvs : ∀ v ∈ vs, v.IsWhole) (i : ℕ) {as : List α}
      (h : items read i vs = .ok as) : ∀ a ∈ as, P a := by
    induction vs generalizing i as with
    | nil =>
      cases h
      exact fun a ha => (List.not_mem_nil ha).elim
    | cons v vs ih =>
      obtain ⟨hv, hvs⟩ := List.forall_mem_cons.mp hvs
      obtain ⟨_, bs, hfirst, hrest, rfl⟩ := Checked.seq_eq_ok_iff.mp h
      obtain ⟨b, hb, rfl⟩ := exists_of_map_ok hfirst
      exact List.forall_mem_cons.mpr
        ⟨hP hv (Checked.under_eq_ok_iff.mp hb), ih hvs (i + 1) hrest⟩
  cases hv with
  | arr hvs => exact hitems hvs 0 h
  | null | bool | int | float | str | obj => cases h

/-- What holds of the default and of whatever is read from a whole value holds of a field of a
record with whole values. -/
theorem defaulted_forall_of_isWhole {name : Text} {default : α} {read : Json → Checked α}
    {P : α → Prop} (hdefault : P default) (hP : ∀ {v a}, v.IsWhole → read v = .ok a → P a)
    {fields : Keyed Json} (hfields : ∀ p ∈ fields, p.2.IsWhole) {a : α}
    (h : defaulted name default read fields = .ok a) : P a := by
  rcases eq_or_exists_of_defaulted h with rfl | ⟨v, hv, hread⟩
  · exact hdefault
  · exact hP (hfields _ (Keyed.mem_of_get? hv)) hread

end Notebook.Fields
