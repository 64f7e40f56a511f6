import Notebook.Note.Record
import Notebook.Proofs.Query.Asked
import Notebook.Proofs.Text.Words

/-!
# Queries side by side

Two queries that are written one behind the other ask for what each of them asks for, as long as
one tag is not enough and they do not both give the same single value.
-/

namespace Notebook.Query

theorem tokens_append_space (q₁ q₂ : Text) :
    tokens (q₁ ++ " " ++ q₂) = tokens q₁ ++ tokens q₂ := by
  rw [tokens, Text.words_append_space, List.map_append]
  rfl

variable {ts ts' : List Token}

/-- Where only one list gives a value at all, the last value is that of this list. -/
theorem getLast?_filterMap_append {β : Type} {given : Token → Option β}
    (h : (∀ t ∈ ts, given t = none) ∨ ∀ t ∈ ts', given t = none) (b : β) :
    ((ts ++ ts').filterMap given).getLast? = some b ↔
      (ts.filterMap given).getLast? = some b ∨ (ts'.filterMap given).getLast? = some b := by
  rw [List.filterMap_append]
  rcases h with h | h
  · rw [List.filterMap_eq_nil_iff.mpr h]
    simp
  · rw [List.filterMap_eq_nil_iff.mpr h]
    simp

/-- No two tokens, one of each list, give the same single value. -/
structure Apart (ts ts' : List Token) : Prop where
  priority : (∀ p, .priority p ∉ ts) ∨ ∀ p, .priority p ∉ ts'
  progress : (∀ x, .progress x ∉ ts) ∨ ∀ x, .progress x ∉ ts'
  due : (∀ a, .due a ∉ ts) ∨ ∀ a, .due a ∉ ts'

theorem counts_append_iff (h : Apart ts ts') (t : Token) :
    Counts (ts ++ ts') t ↔ Counts ts t ∨ Counts ts' t := by
  have hnone {β : Type} {given : Token → Option β} {token : β → Token}
      (hgiven : ∀ t b, given t = some b ↔ t = token b) {us : List Token}
      (hus : ∀ b, token b ∉ us) : ∀ t ∈ us, given t = none := by
    intro t ht
    cases hb : given t with
    | none => rfl
    | some b => exact absurd ((hgiven t b).mp hb ▸ ht) (hus b)
  cases t with
  | priority p =>
    have hgiven := Token.priority?_eq_some
    exact getLast?_filterMap_append (h.priority.imp (hnone hgiven) (hnone hgiven)) p
  | progress x =>
    have hgiven := Token.progress?_eq_some
    exact getLast?_filterMap_append (h.progress.imp (hnone hgiven) (hnone hgiven)) x
  | due a =>
    have hgiven := Token.due?_eq_some
    exact getLast?_filterMap_append (h.due.imp (hnone hgiven) (hnone hgiven)) a
  | tag | semantic | favorite | tasks | overdue | anyTag | free | invalid => exact List.mem_append

/-- A note passes two queries side by side just if it passes each of them. -/
theorem accepts_append_space_iff {q₁ q₂ : Text} (hall₁ : .anyTag ∉ tokens q₁)
    (hall₂ : .anyTag ∉ tokens q₂) (hapart : Apart (tokens q₁) (tokens q₂)) (now : Moment)
    (n : Note) :
    (parse (q₁ ++ " " ++ q₂)).descriptor.accepts now n = true ↔
      (parse q₁).descriptor.accepts now n = true ∧
        (parse q₂).descriptor.accepts now n = true := by
  have hall : .anyTag ∉ tokens q₁ ++ tokens q₂ := by
    rw [List.mem_append, not_or]
    exact ⟨hall₁, hall₂⟩
  unfold parse
  rw [tokens_append_space, accepts_iff_of_all hall, accepts_iff_of_all hall₁,
    accepts_iff_of_all hall₂]
  simp only [counts_append_iff hapart]
  constructor
  · rintro ⟨hsearchable, h⟩
    exact ⟨⟨hsearchable, fun t ht => h t (.inl ht)⟩, hsearchable, fun t ht => h t (.inr ht)⟩
  · rintro ⟨⟨hsearchable, h₁⟩, -, h₂⟩
    exact ⟨hsearchable, fun t ht => ht.elim (h₁ t) (h₂ t)⟩

/-- Both queries ask for the tag, and the first one gives two progresses. -/
theorem accepts_append_space_tea :
    let q₁ : Text := "#Tea milk progress:>40 progress:>20"
    let q₂ : Text := "IS:FAV #tea #hot due:2024-06-15 progress:>x"
    let t := Moment.ofDate .first
    let n := { Note.plain "a" "Milk" t with
      tags := ["tea", "Hot"], favorite := true, progress := 0.25, dueDate := some t }
    .anyTag ∉ tokens q₁ ∧ .anyTag ∉ tokens q₂ ∧ Apart (tokens q₁) (tokens q₂) ∧
      (parse (q₁ ++ " " ++ q₂)).descriptor.accepts t n = true ∧
      ((parse (q₁ ++ " " ++ q₂)).descriptor.accepts t n = true ↔
        (parse q₁).descriptor.accepts t n = true ∧
          (parse q₂).descriptor.accepts t n = true) := by
  intro q₁ q₂ t n
  have htokens₁ : tokens q₁ = [.tag "tea", .free "milk", .progress 0.4, .progress 0.2] := by
    decide +kernel
  have htokens₂ : tokens q₂ = [.favorite, .tag "tea", .tag "hot", .due ⟨2024, 6, 15, by decide⟩,
      .invalid "progress:>x"] := by decide +kernel
  have hall₁ : .anyTag ∉ tokens q₁ := by simp [htokens₁]
  have hall₂ : .anyTag ∉ tokens q₂ := by simp [htokens₂]
  have hapart : Apart (tokens q₁) (tokens q₂) := by
    rw [htokens₁, htokens₂]
    exact ⟨.inl (by simp), .inr (by simp), .inl (by simp)⟩
  exact ⟨hall₁, hall₂, hapart, by decide +kernel,
    accepts_append_space_iff hall₁ hall₂ hapart t n⟩

end Notebook.Query
