import Notebook.Proofs.Basic
import Notebook.Proofs.Json.Text
import Notebook.Proofs.Keyed

/-!
# What is read is whole

A reader of texts puts the halves of a pair together, so no text that it reads has them side by
side.  This holds of all texts of a value, with the names in its records, by induction on the parts
that are read.
-/

namespace Notebook.Json

/-! ### Texts -/

/-- No second half of a pair stands directly behind a first one, and none at all behind the half
that waits. -/
def WholeCodes (p : Option Nat) (ns : List Nat) : Prop :=
  ns.IsChain (fun a b => isHigh a = true → isLow b = false) ∧
    (p ≠ none → ∀ n ∈ ns.head?, isLow n = false)

section WholeCodes

variable {p : Option Nat} {ns : List Nat} {n : Nat}

theorem WholeCodes.cons (h : WholeCodes none ns) (hn : isHigh n = false) :
    WholeCodes none (n :: ns) :=
  ⟨List.isChain_cons.mpr ⟨fun _ _ hhigh => absurd (hn ▸ hhigh) Bool.false_ne_true, h.1⟩,
    absurd rfl⟩

theorem WholeCodes.joined (h : WholeCodes none ns) (hhigh : isHigh n = false)
    (hlow : isLow n = false) : WholeCodes p (n :: ns) :=
  ⟨(h.cons hhigh).1, fun _ _ hm => Option.some.inj hm ▸ hlow⟩

/-- What is no half joins neither with the half that waits nor with what follows. -/
theorem WholeCodes.ahead (h : WholeCodes none ns) (hhigh : isHigh n = false)
    (hlow : ∀ m ∈ p, isLow n = false) (hp : ∀ m ∈ p, isHigh m = true) :
    WholeCodes p (p.toList ++ n :: ns) := by
  cases p with
  | none => exact h.cons hhigh
  | some m =>
    refine ⟨List.isChain_cons.mpr ⟨?_, (h.cons hhigh).1⟩, fun _ => ?_⟩
    · exact fun k hk _ => Option.some.inj hk ▸ hlow m rfl
    · exact fun k hk => Option.some.inj hk ▸ isLow_eq_false_of_isHigh (hp m rfl)

theorem not_half_join (h n : Nat) : isHigh (join h n) = false ∧ isLow (join h n) = false := by
  have hjoin : 0x10000 ≤ join h n := Nat.le_add_right_of_le (Nat.le_add_right ..)
  rw [← Bool.not_eq_true, ← Bool.not_eq_true, isHigh_iff, isLow_iff]
  omega

end WholeCodes

/-- What was read behind something, and what came of it. -/
theorem exists_codes {q : Option Nat} {cs : List Char} {f : List Nat → List Nat} {ns : List Nat}
    {r : List Char} (h : ((codes q cs).bind fun x => some (f x.1, x.2)) = some (ns, r)) :
    ∃ ms, codes q cs = some (ms, r) ∧ ns = f ms := by
  obtain ⟨⟨ms, r'⟩, hms, h⟩ := Option.bind_eq_some_iff.mp h
  obtain ⟨rfl, rfl⟩ := Prod.mk.inj (Option.some.inj h)
  exact ⟨ms, hms, rfl⟩

theorem wholeCodes_of_codes {p : Option Nat} {cs : List Char} {ns : List Nat} {r : List Char}
    (hp : ∀ h ∈ p, isHigh h = true) (hcodes : codes p cs = some (ns, r)) : WholeCodes p ns := by
  have hnone : ∀ h ∈ (none : Option Nat), isHigh h = true := fun _ h => nomatch h
  fun_induction codes p cs generalizing ns r with
  | case1 | case5 => cases hcodes
  | case2 p r =>
    obtain ⟨rfl, rfl⟩ := Prod.mk.inj (Option.some.inj hcodes)
    cases p with
    | none => exact ⟨.nil, absurd rfl⟩
    | some h =>
      exact ⟨.singleton h, fun _ n hn => Option.some.inj hn ▸ isLow_eq_false_of_isHigh (hp h rfl)⟩
  | case3 p a b c d cs ihnone ihsome =>
    obtain ⟨n, -, hcodes⟩ := Option.bind_eq_some_iff.mp hcodes
    cases p with
    | none =>
      simp only at hcodes
      split at hcodes
      · next hn => exact ⟨(ihsome n (fun _ h => Option.some.inj h ▸ hn) hcodes).1, absurd rfl⟩
      · next hn =>
        obtain ⟨ms, hms, rfl⟩ := exists_codes hcodes
        exact (ihnone hnone hms).cons (Bool.not_eq_true _ ▸ hn)
    | some h =>
      have hh := hp h rfl
      simp only at hcodes
      split at hcodes
      · next hn =>
        obtain ⟨ms, hms, rfl⟩ := exists_codes hcodes
        obtain ⟨hhigh, hlow⟩ := not_half_join h n
        exact (ihnone hnone hms).joined hhigh hlow
      split at hcodes
      · next hlow hhigh =>
        obtain ⟨ms, hms, rfl⟩ := exists_codes hcodes
        obtain ⟨hchain, hhead⟩ := ihsome n (fun _ h => Option.some.inj h ▸ hhigh) hms
        have hjoined := hhead (Option.some_ne_none n)
        exact ⟨List.isChain_cons.mpr ⟨fun m hm _ => hjoined m hm, hchain⟩,
          fun _ _ hm => Option.some.inj hm ▸ isLow_eq_false_of_isHigh hh⟩
      · next hlow hhigh =>
        obtain ⟨ms, hms, rfl⟩ := exists_codes (f := fun ms => h :: n :: ms) hcodes
        exact (ihnone hnone hms).ahead (Bool.not_eq_true _ ▸ hhigh)
          (fun _ _ => Bool.not_eq_true _ ▸ hlow) hp
  | case4 p c cs _ ih =>
    obtain ⟨e, -, hcodes⟩ := Option.bind_eq_some_iff.mp hcodes
    obtain ⟨ms, hms, rfl⟩ := exists_codes (f := fun ms => p.toList ++ e.toNat :: ms) hcodes
    exact (ih hnone hms).ahead (not_half_char e).1 (fun _ _ => (not_half_char e).2) hp
  | case6 p c cs _ _ _ _ ih =>
    obtain ⟨ms, hms, rfl⟩ := exists_codes (f := fun ms => p.toList ++ c.toNat :: ms) hcodes
    exact (ih hnone hms).ahead (not_half_char c).1 (fun _ _ => (not_half_char c).2) hp

/-- Every text that is read is whole. -/
theorem whole_of_quotedText {cs : List Char} {s : Text} {r : List Char}
    (h : quotedText cs = .ok (s, r)) : s.Whole := by
  unfold quotedText at h
  cases hcodes : codes none cs with
  | none =>
    rw [hcodes] at h
    cases h
  | some p =>
    obtain ⟨ns, r'⟩ := p
    rw [hcodes] at h
    obtain ⟨rfl, -⟩ := Prod.mk.inj (Except.ok.inj h)
    have hnone : ∀ h ∈ (none : Option Nat), isHigh h = true := fun _ h => nomatch h
    have hwhole := (wholeCodes_of_codes hnone hcodes).1
    refine (List.isChain_map _).mpr (hwhole.imp fun {a b} hab ha => ?_)
    rw [Letter.isHigh_ofNat] at ha
    rw [Letter.isLow_ofNat]
    exact hab ha

/-! ### Values -/

/-- Are all texts in a value whole? -/
inductive IsWhole : Json → Prop
  | null : IsWhole .null
  | bool (b : Bool) : IsWhole (.bool b)
  | int (i : ℤ) : IsWhole (.int i)
  | float (x : Float) : IsWhole (.float x)
  | str {s : Text} (hs : s.Whole) : IsWhole (.str s)
  | arr {vs : List Json} (h : ∀ v ∈ vs, IsWhole v) : IsWhole (.arr vs)
  | obj {ps : List (Text × Json)} (hnames : ∀ p ∈ ps, p.1.Whole) (h : ∀ p ∈ ps, IsWhole p.2) :
    IsWhole (.obj ps)

/-- A value with a name, or else one of those that are tried after it. -/
theorem isWhole_of_orElse {w : Json} (hw : w.IsWhole) {o : Option (List Char)}
    {q : Option (Json × List Char)} (hq : ∀ p ∈ q, p.1.IsWhole) :
    ∀ p ∈ (o.map (w, ·) <|> q), p.1.IsWhole := by
  intro p hp
  cases o with
  | none => exact hq p hp
  | some r =>
    cases hp
    exact hw

theorem isWhole_of_named? (cs : List Char) : ∀ p ∈ named? cs, p.1.IsWhole := by
  refine isWhole_of_orElse .null (isWhole_of_orElse (.bool true) (isWhole_of_orElse (.bool false)
    (isWhole_of_orElse (.float _) (isWhole_of_orElse (.float _) fun p hp => ?_))))
  obtain ⟨r, -, rfl⟩ := Option.map_eq_some_iff.mp hp
  exact .float _

theorem isWhole_of_number {negative : Bool} {cs : List Char} {v : Json} {r : List Char}
    (h : number negative cs = .ok (v, r)) : v.IsWhole := by
  obtain ⟨⟨whole, r'⟩, -, h⟩ := except_bind_eq_ok_iff.mp h
  simp only at h
  split at h
  · split at h
    · cases h
    · cases h
      exact .int _
  · cases h
    exact .float _

theorem isWhole_of_atom {cs : List Char} {v : Json} {r : List Char}
    (h : atom cs = .ok (v, r)) : v.IsWhole := by
  unfold atom at h
  split at h
  · next p hp =>
    obtain rfl := Except.ok.inj h
    exact isWhole_of_named? cs _ hp
  · split at h <;> exact isWhole_of_number h

section Parts

variable {fuel room : ℕ} {cs r : List Char}

theorem isWhole_of_value
    (hitems : ∀ {room cs vs r}, items fuel room cs = .ok (vs, r) → ∀ v ∈ vs, v.IsWhole)
    (hfields : ∀ {room cs ps r}, fields fuel room cs = .ok (ps, r) →
      ∀ p ∈ ps, p.1.Whole ∧ p.2.IsWhole)
    {v : Json} (h : value (fuel + 1) room cs = .ok (v, r)) : v.IsWhole := by
  unfold value at h
  split at h
  · obtain ⟨⟨s, r'⟩, hs, h⟩ := except_map_eq_ok_iff.mp h
    cases h
    exact .str (whole_of_quotedText hs)
  · cases h
  · split at h
    · cases h
      exact .arr fun v hv => (List.not_mem_nil hv).elim
    · obtain ⟨⟨vs, r'⟩, hvs, h⟩ := except_map_eq_ok_iff.mp h
      cases h
      exact .arr (hitems hvs)
  · cases h
  · split at h
    · cases h
      exact .obj (fun p hp => (List.not_mem_nil hp).elim) fun p hp => (List.not_mem_nil hp).elim
    · obtain ⟨⟨ps, r'⟩, hps, h⟩ := except_map_eq_ok_iff.mp h
      cases h
      have hall := fun p hp => hfields hps p (Keyed.mem_of_mem_ofPairs hp)
      exact .obj (fun p hp => (hall p hp).1) fun p hp => (hall p hp).2
  · exact isWhole_of_atom h

theorem isWhole_of_items
    (hvalue : ∀ {room cs v r}, value fuel room cs = .ok (v, r) → v.IsWhole)
    (hitems : ∀ {room cs vs r}, items fuel room cs = .ok (vs, r) → ∀ v ∈ vs, v.IsWhole)
    {vs : List Json} (h : items (fuel + 1) room cs = .ok (vs, r)) : ∀ v ∈ vs, v.IsWhole := by
  unfold items at h
  split at h
  · cases h
  · next v r' hv =>
    split at h
    · cases h
      exact List.forall_mem_singleton.mpr (hvalue hv)
    · obtain ⟨⟨ws, r''⟩, hws, h⟩ := except_map_eq_ok_iff.mp h
      cases h
      exact List.forall_mem_cons.mpr ⟨hvalue hv, hitems hws⟩
    · cases h

theorem isWhole_of_fields
    (hvalue : ∀ {room cs v r}, value fuel room cs = .ok (v, r) → v.IsWhole)
    (hfields : ∀ {room cs ps r}, fields fuel room cs = .ok (ps, r) →
      ∀ p ∈ ps, p.1.Whole ∧ p.2.IsWhole)
    {ps : List (Text × Json)} (h : fields (fuel + 1) room cs = .ok (ps, r)) :
    ∀ p ∈ ps, p.1.Whole ∧ p.2.IsWhole := by
  unfold fields at h
  split at h
  · split at h
    · cases h
    · next key r' hkey =>
      split at h
      · split at h
        · cases h
        · next v r'' hv =>
          have hfirst : key.Whole ∧ v.IsWhole := ⟨whole_of_quotedText hkey, hvalue hv⟩
          split at h
          · cases h
            exact List.forall_mem_singleton.mpr hfirst
          · obtain ⟨⟨qs, r''⟩, hqs, h⟩ := except_map_eq_ok_iff.mp h
            cases h
            exact List.forall_mem_cons.mpr ⟨hfirst, hfields hqs⟩
          · cases h
      · cases h
  · cases h

end Parts

theorem isWhole_of_read (fuel : ℕ) :
    (∀ {room cs v r}, value fuel room cs = .ok (v, r) → v.IsWhole) ∧
      (∀ {room cs vs r}, items fuel room cs = .ok (vs, r) → ∀ v ∈ vs, v.IsWhole) ∧
      ∀ {room cs ps r}, fields fuel room cs = .ok (ps, r) → ∀ p ∈ ps, p.1.Whole ∧ p.2.IsWhole := by
  induction fuel with
  | zero => exact ⟨nofun, nofun, nofun⟩
  | succ fuel ih =>
    obtain ⟨hvalue, hitems, hfields⟩ := ih
    exact ⟨isWhole_of_value hitems hfields, isWhole_of_items hvalue hitems,
      isWhole_of_fields hvalue hfields⟩

/-- Every value that is read is whole. -/
theorem isWhole_of_ofChars {cs : List Char} {v : Json} (h : ofChars cs = .ok v) : v.IsWhole := by
  unfold ofChars at h
  split at h
  · cases h
  · next w r hw =>
    split at h
    · cases h
      exact (isWhole_of_read _).1 hw
    · cases h

end Notebook.Json
