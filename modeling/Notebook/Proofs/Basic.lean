/-!
# Lists and results

What is used of lists, and of results that may be missing, in all parts of the theory.  A chain of
steps, each of which may fail, has a result just if all its steps have.
-/

namespace Notebook

variable {ε ε' α β : Type}

/-! ### Results -/

theorem except_map_eq_ok_iff {f : α → β} {r : Except ε α} {b : β} :
    r.map f = .ok b ↔ ∃ a, r = .ok a ∧ f a = b := by cases r <;> simp [Except.map]

theorem except_map_eq_error_iff {f : α → β} {r : Except ε α} {e : ε} :
    r.map f = .error e ↔ r = .error e := by cases r <;> simp [Except.map]

theorem except_map_inj {f : α → β} (hf : ∀ a b, f a = f b → a = b) {r r' : Except ε α} :
    r.map f = r'.map f ↔ r = r' := by
  cases r <;> cases r' <;> simp only [Except.map, reduceCtorEq, Except.error.injEq, Except.ok.injEq]
  exact ⟨hf _ _, congrArg f⟩

theorem except_mapError_eq_ok_iff {f : ε → ε'} {r : Except ε α} {a : α} :
    r.mapError f = .ok a ↔ r = .ok a := by
  cases r with
  | ok a' =>
    rw [show (Except.ok a' : Except ε α).mapError f = .ok a' from rfl, Except.ok.injEq,
      Except.ok.injEq]
  | error e => exact ⟨nofun, nofun⟩

theorem except_bind_eq_ok_iff {f : α → Except ε β} {r : Except ε α} {b : β} :
    r.bind f = .ok b ↔ ∃ a, r = .ok a ∧ f a = .ok b := by cases r <;> simp [Except.bind]

/-! ### Cutting -/

theorem splitOnP_map (f : α → β) (p : β → Bool) (xs : List α) :
    (xs.map f).splitOnP p = (xs.splitOnP (p ∘ f)).map (List.map f) := by
  induction xs with
  | nil => rfl
  | cons x xs ih =>
    rw [List.map_cons, List.splitOnP_cons_eq_if_modifyHead, List.splitOnP_cons_eq_if_modifyHead, ih]
    simp only [Function.comp_apply]
    split
    · rfl
    · cases xs.splitOnP (p ∘ f) <;> rfl

/-- The pieces of a list have nothing at which it is cut. -/
theorem forall_of_mem_splitOnP {p : α → Bool} {xs l : List α} (h : l ∈ xs.splitOnP p) :
    ∀ x ∈ l, p x = false := by
  induction xs generalizing l with
  | nil =>
    rw [List.splitOnP_nil, List.mem_singleton] at h
    simp [h]
  | cons x xs ih =>
    rw [List.splitOnP_cons_eq_if_modifyHead] at h
    split at h
    · rcases List.mem_cons.mp h with rfl | h
      · simp
      · exact ih h
    · next hx =>
      cases hs : xs.splitOnP p with
      | nil => exact absurd hs (List.splitOnP_ne_nil p xs)
      | cons m ms =>
        rw [hs] at h ih
        rcases List.mem_cons.mp h with rfl | h
        · exact List.forall_mem_cons.mpr ⟨by simpa using hx, ih List.mem_cons_self⟩
        · exact ih (List.mem_cons_of_mem m h)

/-! ### Folding -/

end Notebook
