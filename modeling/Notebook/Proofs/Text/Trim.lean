import Mathlib.Data.List.DropRight
import Mathlib.Data.List.TakeWhile
import Notebook.Text.Blank

/-!
# Trimming

Trimming stops at the first and at the last character that is no blank.  So a text is what trimming
leaves of it between blanks, and what has no blank at either end is left as it is.
-/

namespace Notebook.Text

/-! ### What is no blank -/

/-- The characters of a text that are no blanks. -/
def inked (cs : List Letter) : List Letter := cs.filter (! isBlank ·)

@[simp] theorem inked_append (cs ds : List Letter) : inked (cs ++ ds) = inked cs ++ inked ds :=
  List.filter_append ..

theorem inked_cons_of_blank {c : Letter} (hc : isBlank c = true) (cs : List Letter) :
    inked (c :: cs) = inked cs := List.filter_cons_of_neg (by simp [hc])

theorem inked_cons {c : Letter} (hc : isBlank c = false) (cs : List Letter) :
    inked (c :: cs) = c :: inked cs := List.filter_cons_of_pos (by simp [hc])

theorem inked_eq_nil_iff {cs : List Letter} : inked cs = [] ↔ ∀ c ∈ cs, isBlank c = true := by
  simp [inked]

/-! ### One end -/

section Ends

variable {p : Letter → Bool}

theorem dropEndWhile_eq_rdropWhile (p : Letter → Bool) (cs : List Letter) :
    dropEndWhile p cs = cs.rdropWhile p := rfl

theorem dropWhile_append_cons {x : Letter} (hx : p x = false) (cs ds : List Letter) :
    (cs ++ x :: ds).dropWhile p = cs.dropWhile p ++ x :: ds := by
  have hstop : (x :: ds).dropWhile p = x :: ds := List.dropWhile_cons_of_neg (by simp [hx])
  rw [List.dropWhile_append, hstop]
  split
  · next h => rw [List.isEmpty_iff.mp h, List.nil_append]
  · rfl

theorem dropEndWhile_append_cons {x : Letter} (hx : p x = false) (cs ds : List Letter) :
    dropEndWhile p (cs ++ x :: ds) = cs ++ x :: dropEndWhile p ds := by
  have hreverse : (cs ++ x :: ds).reverse = ds.reverse ++ x :: cs.reverse := by simp
  rw [dropEndWhile, hreverse, dropWhile_append_cons hx]
  simp [dropEndWhile]

theorem of_head?_dropWhile {cs : List Letter} {c : Letter} (h : (cs.dropWhile p).head? = some c) :
    p c = false := by
  rw [← List.find?_not_eq_head?_dropWhile] at h
  simpa using List.find?_some h

theorem of_getLast?_dropEndWhile {cs : List Letter} {c : Letter}
    (h : (dropEndWhile p cs).getLast? = some c) : p c = false := by
  rw [dropEndWhile, List.getLast?_reverse] at h
  exact of_head?_dropWhile h

end Ends

theorem inked_dropWhile (cs : List Letter) : inked (cs.dropWhile isBlank) = inked cs := by
  induction cs with
  | nil => rfl
  | cons c cs ih =>
    cases hc : isBlank c with
    | true => rw [List.dropWhile_cons_of_pos hc, ih, inked_cons_of_blank hc]
    | false => rw [List.dropWhile_cons_of_neg (by simp [hc])]

theorem inked_dropEndWhile (cs : List Letter) : inked (dropEndWhile isBlank cs) = inked cs := by
  have hreverse := inked_dropWhile cs.reverse
  unfold inked at hreverse ⊢
  rw [dropEndWhile, List.filter_reverse, hreverse, List.filter_reverse, List.reverse_reverse]

theorem inked_trim (cs : List Letter) : inked (trim cs) = inked cs := by
  rw [trim, trimBy, inked_dropEndWhile, inked_dropWhile]

/-! ### Both ends -/

theorem exists_trim (cs : List Letter) :
    ∃ before after, cs = before ++ (trim cs ++ after) ∧ (∀ c ∈ before, isBlank c = true) ∧
      ∀ c ∈ after, isBlank c = true := by
  refine ⟨cs.takeWhile isBlank, (cs.dropWhile isBlank).rtakeWhile isBlank, ?_,
    fun c hc => List.mem_takeWhile_imp hc, fun c hc => List.mem_rtakeWhile_imp hc⟩
  rw [trim, trimBy, dropEndWhile_eq_rdropWhile, List.rdropWhile_append_rtakeWhile,
    List.takeWhile_append_dropWhile]

theorem isInfix_trim (cs : List Letter) : trim cs <:+: cs := by
  obtain ⟨before, after, h, -, -⟩ := exists_trim cs
  exact ⟨before, after, by rw [List.append_assoc, ← h]⟩

/-- Between two characters that are no blanks nothing is left out. -/
theorem trim_append_cons {x y : Letter} (hx : isBlank x = false) (hy : isBlank y = false)
    (u g v : List Letter) :
    trim (u ++ x :: (g ++ y :: v)) =
      u.dropWhile isBlank ++ x :: (g ++ y :: dropEndWhile isBlank v) := by
  have hlast : u.dropWhile isBlank ++ x :: (g ++ y :: v) =
      (u.dropWhile isBlank ++ x :: g) ++ y :: v := by simp
  rw [trim, trimBy, dropWhile_append_cons hx, hlast, dropEndWhile_append_cons hy]
  simp

/-- No blank at the beginning, and none at the end. -/
structure Trimmed (cs : List Letter) : Prop where
  head : ∀ c, cs.head? = some c → isBlank c = false
  last : ∀ c, cs.getLast? = some c → isBlank c = false

theorem trimmed_nil : Trimmed [] := ⟨nofun, nofun⟩

theorem Trimmed.eq_nil_or_concat {cs : List Letter} (h : Trimmed cs) :
    cs = [] ∨ ∃ u y, cs = u ++ [y] ∧ isBlank y = false := by
  refine (List.eq_nil_or_concat cs).imp_right ?_
  rintro ⟨u, y, rfl⟩
  exact ⟨u, y, List.concat_eq_append, h.last y (by simp)⟩

theorem trimmed_trim (cs : List Letter) : Trimmed (trim cs) := by
  refine ⟨fun c hc => ?_, fun c hc => of_getLast?_dropEndWhile hc⟩
  -- what is left begins as it did before its end was trimmed
  obtain ⟨after, hafter⟩ : trim cs <+: cs.dropWhile isBlank := List.rdropWhile_prefix isBlank _
  have hhead : (cs.dropWhile isBlank).head? = some c := by
    rw [← hafter, List.head?_append, hc, Option.some_or]
  exact of_head?_dropWhile hhead

/-- Blanks around a text that has none at its ends are what is left out. -/
theorem Trimmed.trim_eq {cs : List Letter} (h : Trimmed cs) (before after : List Letter)
    (hbefore : ∀ c ∈ before, isBlank c = true) (hafter : ∀ c ∈ after, isBlank c = true) :
    trim (before ++ (cs ++ after)) = cs := by
  have hend : dropEndWhile isBlank after = [] := List.rdropWhile_eq_nil_iff.mpr hafter
  rw [trim, trimBy, List.dropWhile_append_of_pos hbefore]
  rcases h.eq_nil_or_concat with rfl | ⟨u, y, rfl, hy⟩
  · rw [List.nil_append, List.dropWhile_eq_nil_iff.mpr hafter]
    rfl
  · have hstart : (u ++ [y] ++ after).dropWhile isBlank = u ++ [y] ++ after := by
      cases u with
      | nil => exact List.dropWhile_cons_of_neg (by simp [hy])
      | cons x u => exact List.dropWhile_cons_of_neg (by simp [h.head x rfl])
    rw [hstart, List.append_assoc, List.singleton_append, dropEndWhile_append_cons hy, hend]

theorem Trimmed.trim_eq_self {cs : List Letter} (h : Trimmed cs) : trim cs = cs := by
  have htrim := h.trim_eq [] [] nofun nofun
  rwa [List.nil_append, List.append_nil] at htrim

end Notebook.Text
