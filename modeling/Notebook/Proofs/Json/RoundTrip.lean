import Notebook.Proofs.Json.Number
import Notebook.Proofs.Keyed

/-!
# Values written and read

A value is read back from its text if its texts are whole, no record in it has a name twice, no
whole number in it is too long, and its lists and records do not stand too deep in one another.
-/

namespace Notebook.Json

/-- Can a value be read back where so many lists and records may open? -/
inductive Readable : (room : ℕ) → Json → Prop
  | null {room : ℕ} : Readable room .null
  | bool {room : ℕ} (b : Bool) : Readable room (.bool b)
  | int {room : ℕ} {i : ℤ} (hi : (Nat.toDigits 10 i.natAbs).length ≤ maxDigits) :
    Readable room (.int i)
  | float {room : ℕ} (x : Float) : Readable room (.float x)
  | str {room : ℕ} {s : Text} (hs : s.Whole) : Readable room (.str s)
  | arr {room : ℕ} {vs : List Json} (h : ∀ v ∈ vs, Readable room v) :
    Readable (room + 1) (.arr vs)
  | obj {room : ℕ} {ps : List (Text × Json)} (hkeys : (ps.map Prod.fst).Nodup)
    (hwhole : ∀ p ∈ ps, p.1.Whole) (h : ∀ p ∈ ps, Readable room p.2) : Readable (room + 1) (.obj ps)

/-! ### Blanks -/

/-- A text that begins with a value: no blank stands in front, and no list ends there. -/
def Opens (cs : List Char) : Prop := ∃ c t, cs = c :: t ∧ isBlank c = false ∧ c ≠ ']'

theorem Opens.append {cs : List Char} (h : Opens cs) (r : List Char) : Opens (cs ++ r) := by
  obtain ⟨c, t, rfl, hc⟩ := h
  exact ⟨c, t ++ r, rfl, hc⟩

theorem Opens.skip {cs : List Char} (h : Opens cs) : skip cs = cs := by
  obtain ⟨c, t, rfl, hc, -⟩ := h
  rw [Json.skip, List.dropWhile_cons_of_neg (by simp [hc])]

theorem skip_blank (cs : List Char) : skip (' ' :: cs) = skip cs := rfl

theorem skip_colon (cs : List Char) : skip (':' :: cs) = ':' :: cs := rfl

/-! ### Values in one piece -/

/-- The text of a value is read as this value, whatever stands behind it. -/
def Back (room : ℕ) (v : Json) : Prop :=
  ∀ {fuel : ℕ} {r : List Char}, 2 * (render v).length ≤ fuel → Stops r →
    value fuel room (render v ++ r) = .ok (v, r)

theorem atom_eq_error {c : Char} (h : c ∈ [' ', '\t', '\n', '\r', ']', '"', '[', '{'])
    (t : List Char) : atom (c :: t) = .error .malformed := by
  simp only [List.mem_cons, List.not_mem_nil, or_false] at h
  rcases h with rfl | rfl | rfl | rfl | rfl | rfl | rfl | rfl <;> rfl

theorem value_of_atom {c : Char} (h : c ∉ [' ', '\t', '\n', '\r', ']', '"', '[', '{'])
    (fuel room : ℕ) (t : List Char) : value (fuel + 1) room (c :: t) = atom (c :: t) := by
  simp only [List.mem_cons, List.not_mem_nil, or_false, not_or] at h
  obtain ⟨-, -, -, -, -, hquote, hbracket, hbrace⟩ := h
  unfold value
  split
  · next heq => exact absurd (List.cons.inj heq).1 hquote
  · next heq => exact absurd (List.cons.inj heq).1 hbracket
  · next heq => exact absurd (List.cons.inj heq).1 hbracket
  · next heq => exact absurd (List.cons.inj heq).1 hbrace
  · next heq => exact absurd (List.cons.inj heq).1 hbrace
  · rfl

theorem back_of_atom {v : Json} (h : ∀ {r : List Char}, Stops r → atom (render v ++ r) = .ok (v, r))
    (room : ℕ) : Back room v ∧ Opens (render v) := by
  have hnil := h stops_nil
  rw [List.append_nil] at hnil
  cases hcs : render v with
  | nil =>
    rw [hcs] at hnil
    cases hnil
  | cons c t =>
    have hc : c ∉ [' ', '\t', '\n', '\r', ']', '"', '[', '{'] := by
      intro hc
      rw [hcs, atom_eq_error hc] at hnil
      cases hnil
    constructor
    · intro fuel r hfuel hr
      obtain ⟨fuel, rfl⟩ : ∃ k, fuel = k + 1 := ⟨fuel - 1, by simp [hcs] at hfuel; omega⟩
      have hback := h hr
      rw [hcs] at hback ⊢
      rw [List.cons_append, value_of_atom hc]
      exact hback
    · simp only [List.mem_cons, List.not_mem_nil, or_false, not_or] at hc
      obtain ⟨h1, h2, h3, h4, h5, -⟩ := hc
      exact ⟨c, t, rfl, by simp [isBlank, h1, h2, h3, h4], h5⟩

/-- A whole text is read back behind its first quotation mark. -/
theorem quotedText_of_whole {s : Text} (hs : s.Whole) (r : List Char) :
    quotedText (s.toList.flatMap escape ++ '"' :: r) = .ok (s, r) := by
  rw [quotedText_text, Text.mended_of_whole hs]

theorem back_str {s : Text} (hs : s.Whole) (room : ℕ) :
    Back room (.str s) ∧ Opens (render (.str s)) := by
  constructor
  · intro fuel r hfuel hr
    have htext : render (.str s) ++ r = '"' :: (s.toList.flatMap escape ++ '"' :: r) := by
      simp [render, text]
    obtain ⟨fuel, rfl⟩ : ∃ k, fuel = k + 1 := by
      refine ⟨fuel - 1, ?_⟩
      simp only [render, text, List.length_cons, List.length_append] at hfuel
      omega
    rw [htext, value, quotedText_of_whole hs]
    rfl
  · exact ⟨'"', s.toList.flatMap escape ++ ['"'], rfl, rfl, by decide⟩

/-! ### Lists -/

theorem value_items {cs : List Char} (h : Opens cs) (fuel room : ℕ) :
    value (fuel + 1) (room + 1) ('[' :: cs) =
      (items fuel room cs).map fun p => (.arr p.1, p.2) := by
  have hskip := h.skip
  obtain ⟨c, t, rfl, -, hc⟩ := h
  rw [value, hskip]
  split
  · next heq => exact absurd (List.cons.inj heq).1 hc
  · rfl

theorem opens_renderItems {v : Json} (hv : Opens (render v)) (vs : List Json) :
    Opens (renderItems (v :: vs)) := by
  cases vs with
  | nil => exact hv
  | cons w vs =>
    rw [renderItems, List.append_assoc]
    exact hv.append _

/-- The items of a list are read back up to its end. -/
theorem items_render {room : ℕ} {v : Json} {vs : List Json}
    (h : ∀ w ∈ v :: vs, Back room w ∧ Opens (render w)) {fuel : ℕ}
    (hfuel : 2 * (renderItems (v :: vs)).length + 1 ≤ fuel) (r : List Char) :
    items fuel room (renderItems (v :: vs) ++ ']' :: r) = .ok (v :: vs, r) := by
  obtain ⟨fuel, rfl⟩ : ∃ k, fuel = k + 1 := ⟨fuel - 1, by omega⟩
  induction vs generalizing v fuel with
  | nil =>
    have hv := (h v List.mem_cons_self).1 (show 2 * (render v).length ≤ fuel by
      simp only [renderItems] at hfuel
      omega) (stops_cons (c := ']') rfl (by decide) (by decide) (by decide) r)
    rw [renderItems, items, hv]
    rfl
  | cons w vs ih =>
    simp only [renderItems, List.length_append, List.length_cons] at hfuel
    have hv := (h v List.mem_cons_self).1 (show 2 * (render v).length ≤ fuel by omega)
      (stops_cons (c := ',') rfl (by decide) (by decide) (by decide)
        (' ' :: (renderItems (w :: vs) ++ ']' :: r)))
    obtain ⟨fuel, rfl⟩ : ∃ k, fuel = k + 1 := ⟨fuel - 1, by omega⟩
    have hrest := ih (fun u hu => h u (List.mem_cons_of_mem v hu)) fuel (by omega)
    have hopens := opens_renderItems (h w (by simp)).2 vs
    have htext : renderItems (v :: w :: vs) ++ ']' :: r =
        render v ++ ',' :: ' ' :: (renderItems (w :: vs) ++ ']' :: r) := by
      simp [renderItems]
    rw [htext, items, hv]
    show (items _ room (skip (' ' :: _))).map _ = _
    rw [skip_blank, (hopens.append _).skip, hrest]
    rfl

/-! ### Records -/

theorem value_fields (fuel room : ℕ) (cs : List Char) :
    value (fuel + 1) (room + 1) ('{' :: '"' :: cs) =
      (fields fuel room ('"' :: cs)).map fun p => (.obj (Keyed.ofPairs p.1), p.2) := rfl

theorem renderFields_head (p : Text × Json) (ps : List (Text × Json)) :
    ∃ t, renderFields (p :: ps) = '"' :: t := by
  cases ps <;> exact ⟨_, rfl⟩

theorem text_field (k : Text) (v : Json) (r : List Char) :
    text k ++ [':', ' '] ++ render v ++ r =
      '"' :: (k.toList.flatMap escape ++ '"' :: ':' :: ' ' :: (render v ++ r)) := by
  simp [text]

section

variable {room fuel : ℕ} {v : Json} {r : List Char}

/-- The last field of a record is read back. -/
theorem fields_last {k : Text} (hk : k.Whole) (hv : Opens (render v))
    (hback : value fuel room (render v ++ '}' :: r) = .ok (v, '}' :: r)) :
    fields (fuel + 1) room (text k ++ [':', ' '] ++ render v ++ '}' :: r) = .ok ([(k, v)], r) := by
  rw [text_field, fields, quotedText_of_whole hk]
  simp only [skip_colon, skip_blank, (hv.append ('}' :: r)).skip, hback]
  rfl

/-- One field of a record is read back, and then those behind it. -/
theorem fields_more {k : Text} (hk : k.Whole) (hv : Opens (render v))
    (hback : value fuel room (render v ++ ',' :: r) = .ok (v, ',' :: r)) :
    fields (fuel + 1) room (text k ++ [':', ' '] ++ render v ++ ',' :: r) =
      (fields fuel room (skip r)).map fun p => ((k, v) :: p.1, p.2) := by
  rw [text_field, fields, quotedText_of_whole hk]
  simp only [skip_colon, skip_blank, (hv.append (',' :: r)).skip, hback]
  rfl

end

/-- The fields of a record are read back up to its end. -/
theorem fields_render {room : ℕ} {p : Text × Json} {ps : List (Text × Json)}
    (hwhole : ∀ q ∈ p :: ps, q.1.Whole)
    (h : ∀ q ∈ p :: ps, Back room q.2 ∧ Opens (render q.2)) {fuel : ℕ}
    (hfuel : 2 * (renderFields (p :: ps)).length + 1 ≤ fuel) (r : List Char) :
    fields fuel room (renderFields (p :: ps) ++ '}' :: r) = .ok (p :: ps, r) := by
  obtain ⟨fuel, rfl⟩ : ∃ k, fuel = k + 1 := ⟨fuel - 1, by omega⟩
  induction ps generalizing p fuel with
  | nil =>
    obtain ⟨k, v⟩ := p
    obtain ⟨hback, hopens⟩ := h (k, v) List.mem_cons_self
    have hk : k.Whole := hwhole (k, v) List.mem_cons_self
    simp only [renderFields, List.length_append, List.length_cons] at hfuel
    have hv := hback (show 2 * (render v).length ≤ fuel by omega)
      (stops_cons (c := '}') rfl (by decide) (by decide) (by decide) r)
    rw [renderFields, fields_last hk hopens hv]
  | cons q ps ih =>
    obtain ⟨k, v⟩ := p
    obtain ⟨hback, hopens⟩ := h (k, v) List.mem_cons_self
    have hk : k.Whole := hwhole (k, v) List.mem_cons_self
    simp only [renderFields, List.length_append, List.length_cons] at hfuel
    have hv := hback (show 2 * (render v).length ≤ fuel by omega)
      (stops_cons (c := ',') rfl (by decide) (by decide) (by decide)
        (' ' :: (renderFields (q :: ps) ++ '}' :: r)))
    obtain ⟨fuel, rfl⟩ : ∃ k, fuel = k + 1 := ⟨fuel - 1, by omega⟩
    have hrest := ih (fun u hu => hwhole u (List.mem_cons_of_mem _ hu))
      (fun u hu => h u (List.mem_cons_of_mem _ hu)) fuel (by omega)
    obtain ⟨t, ht⟩ := renderFields_head q ps
    have htext : renderFields ((k, v) :: q :: ps) ++ '}' :: r =
        text k ++ [':', ' '] ++ render v ++ ',' :: ' ' :: (renderFields (q :: ps) ++ '}' :: r) := by
      simp [renderFields]
    have hskip :
        skip (renderFields (q :: ps) ++ '}' :: r) = renderFields (q :: ps) ++ '}' :: r := by
      rw [ht]
      rfl
    rw [htext, fields_more hk hopens hv, skip_blank, hskip, hrest]
    rfl

/-! ### All values -/

theorem back_of_readable {room : ℕ} {v : Json} (h : Readable room v) :
    Back room v ∧ Opens (render v) := by
  induction h with
  | null => exact back_of_atom (fun _ => rfl) _
  | bool b => cases b <;> exact back_of_atom (fun _ => rfl) _
  | @int room i hi => exact back_of_atom (v := .int i) (fun hr => atom_integer hi hr) _
  | float x => exact back_of_atom (v := .float x) (fun hr => atom_text x hr) _
  | str hs => exact back_str hs _
  | @arr room vs h ih =>
    refine ⟨?_, '[', renderItems vs ++ [']'], rfl, rfl, by decide⟩
    intro fuel r hfuel hr
    have htext : render (.arr vs) ++ r = '[' :: (renderItems vs ++ ']' :: r) := by simp [render]
    simp only [render, List.length_append, List.length_cons] at hfuel
    obtain ⟨fuel, rfl⟩ : ∃ k, fuel = k + 1 := ⟨fuel - 1, by omega⟩
    rw [htext]
    cases vs with
    | nil => rfl
    | cons v vs =>
      have hopens := opens_renderItems (ih v List.mem_cons_self).2 vs
      rw [value_items (hopens.append _), items_render ih (by omega)]
      rfl
  | @obj room ps hkeys hwhole h ih =>
    refine ⟨?_, '{', renderFields ps ++ ['}'], rfl, rfl, by decide⟩
    intro fuel r hfuel hr
    have htext : render (.obj ps) ++ r = '{' :: (renderFields ps ++ '}' :: r) := by simp [render]
    simp only [render, List.length_append, List.length_cons] at hfuel
    obtain ⟨fuel, rfl⟩ : ∃ k, fuel = k + 1 := ⟨fuel - 1, by omega⟩
    rw [htext]
    cases ps with
    | nil => rfl
    | cons p ps =>
      have hfields := fields_render hwhole ih (show _ ≤ fuel by omega) r
      obtain ⟨t, ht⟩ := renderFields_head p ps
      rw [ht] at hfields ⊢
      rw [List.cons_append, value_fields, ← List.cons_append, hfields]
      show Except.ok (Json.obj (Keyed.ofPairs (p :: ps)), r) = _
      rw [Keyed.ofPairs_of_nodup hkeys]

/-- A value is read back from its text. -/
theorem ofChars_render {v : Json} (h : Readable maxDepth v) : ofChars (render v) = .ok v := by
  obtain ⟨hback, hopens⟩ := back_of_readable h
  have hvalue := hback (show 2 * (render v).length ≤ 2 * (render v).length + 2 by omega) stops_nil
  rw [List.append_nil] at hvalue
  rw [ofChars, hopens.skip, hvalue]
  rfl

end Notebook.Json
