import Notebook.Text.Letter

/-!
# Records under keys

`Keyed α` keeps records under keys in the order in which the keys came.  A record put under a
key that is in use takes the place of the old one; a key that was erased and comes back goes last.
Items can also be ranked by a key that is computed from them.
-/

namespace Notebook

abbrev Keyed (α : Type) := List (Text × α)

namespace Keyed

variable {α : Type}

def get? (key : Text) : Keyed α → Option α
  | [] => none
  | (k, a) :: r => if k = key then some a else get? key r

def insert (key : Text) (a : α) : Keyed α → Keyed α
  | [] => [(key, a)]
  | (k, b) :: r => if k = key then (key, a) :: r else (k, b) :: insert key a r

def erase (key : Text) (r : Keyed α) : Keyed α := r.filter (·.1 ≠ key)

def keys (r : Keyed α) : List Text := r.map Prod.fst

def values (r : Keyed α) : List α := r.map Prod.snd

/-- The pairs put in one after the other. -/
def ofPairs (ps : List (Text × α)) : Keyed α := ps.foldl (fun r p => insert p.1 p.2 r) []

/-! ### Looking up -/

@[simp] theorem get?_nil (key : Text) : get? key ([] : Keyed α) = none := rfl

theorem get?_insert (key key' : Text) (a : α) (r : Keyed α) :
    get? key' (insert key a r) = if key' = key then some a else get? key' r := by
  induction r with
  | nil => by_cases h : key' = key <;> simp [insert, get?, h, Ne.symm]
  | cons p r ih =>
    obtain ⟨k, b⟩ := p
    by_cases hk : k = key
    · subst hk
      by_cases h : key' = k <;> simp [insert, get?, h, eq_comm]
    · by_cases h : k = key'
      · subst h; simp [insert, get?, hk]
      · simp [insert, get?, hk, h, ih]

theorem get?_erase (key key' : Text) (r : Keyed α) :
    get? key' (erase key r) = if key' = key then none else get? key' r := by
  induction r with
  | nil => simp [erase]
  | cons p r ih =>
    obtain ⟨k, b⟩ := p
    by_cases hk : k = key
    · subst hk
      by_cases h : key' = k
      · simpa [erase, h] using ih
      · simpa [erase, get?, h, Ne.symm h] using ih
    · by_cases h : k = key'
      · subst h; simp [erase, get?, hk]
      · simpa [erase, get?, hk, h] using ih

/-! ### Keys -/

@[simp] theorem keys_nil : keys ([] : Keyed α) = [] := rfl

theorem keys_insert (key : Text) (a : α) (r : Keyed α) :
    keys (insert key a r) = if key ∈ keys r then keys r else keys r ++ [key] := by
  induction r with
  | nil => simp [insert, keys]
  | cons p r ih =>
    obtain ⟨k, b⟩ := p
    by_cases hk : k = key
    · subst hk; simp [insert, keys]
    · by_cases hm : key ∈ keys r
      · simp only [insert, hk, if_false, keys, List.map_cons, List.mem_cons] at ih hm ⊢
        simp [hm] at ih ⊢
        exact ih
      · simp only [insert, hk, if_false, keys, List.map_cons, List.mem_cons] at ih hm ⊢
        simp [hm, Ne.symm hk] at ih ⊢
        exact ih

theorem keys_erase (key : Text) (r : Keyed α) :
    keys (erase key r) = (keys r).filter (· ≠ key) := by
  simp only [keys, erase, List.filter_map]
  rfl

end Keyed

/-! ### Ranking -/

section Ranking

variable {α β : Type}

/-- Falling by `key`; the order is stable. -/
def rankBy (above : β → β → Bool) (key : α → β) (xs : List α) : List α :=
  xs.mergeSort fun a b => !above (key b) (key a)

/-- The first `n` items; a negative number says how many are left out at the end. -/
def headUpTo (n : Int) (xs : List α) : List α :=
  if 0 ≤ n then xs.take n.toNat else xs.take (xs.length - (-n).toNat)

theorem headUpTo_ofNat (n : Nat) (xs : List α) : headUpTo n xs = xs.take n := by
  simp [headUpTo]

end Ranking

end Notebook
