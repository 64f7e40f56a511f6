import Notebook.Proofs.Query.Asked
import Notebook.Proofs.Query.Terms
import Notebook.Proofs.Text.Sigma

/-!
# Finding what is written

A query that is one term and nothing else finds the notes with a text that has the term in small
letters.  A piece of a text that is typed as it is written there is found for sure just where it
tells the small letters of its own sigmas.
-/

namespace Notebook.Query

open Text

variable {s : Text}

/-- What a query of one term finds. -/
theorem accepts_parse_iff (hs : parse s = { descriptor := { textTerms := [s] } }) (now : Moment)
    (n : Note) :
    (parse s).descriptor.accepts now n = true ↔
      n.isSearchable = true ∧ ∃ text ∈ n.texts, (lower s).toList <:+: (lower text).toList := by
  have hterm : s ∈ (parse s).descriptor.textTerms := by
    rw [hs]
    exact List.mem_singleton_self s
  obtain ⟨hne, hspace⟩ := lower_of_mem_textTerms hterm
  rw [hs, Descriptor.accepts_iff, ← Note.infix_searchableText_iff hne hspace, ← occursIn_iff]
  simp [Descriptor.acceptsTags, toList_lower]

/-- Every note is found by what is written in it, if and only if the small letters of what is
written are told by it alone. -/
theorem accepts_written_iff (hs : parse s = { descriptor := { textTerms := [s] } })
    (now : Moment) :
    (∀ n : Note, n.isSearchable = true → (∃ text ∈ n.texts, s.toList <:+: text.toList) →
      (parse s).descriptor.accepts now n = true) ↔ Settled s.toList := by
  constructor
  · intro h
    rw [← infix_lowerChars_iff]
    intro text hin
    have htitle : s.toList <:+: (Text.ofList text).toList := by rwa [Text.toList_ofList]
    have hfound := h (Note.plain "" (Text.ofList text) now) rfl ⟨_, List.mem_cons_self, htitle⟩
    obtain ⟨-, t, ht, hpart⟩ := (accepts_parse_iff hs now _).mp hfound
    -- the body is the only other text, and nothing stands in it
    have htexts : t = Text.ofList text ∨ t = "" := by simpa [Note.texts, Note.plain] using ht
    rw [toList_lower, toList_lower] at hpart
    rcases htexts with rfl | rfl
    · rwa [Text.toList_ofList] at hpart
    · rw [List.infix_nil.mp hpart]
      exact List.nil_infix
  · rintro h n hsearchable ⟨text, htext, hin⟩
    refine (accepts_parse_iff hs now n).mpr ⟨hsearchable, text, htext, ?_⟩
    rw [toList_lower, toList_lower]
    exact h.infix_lowerChars hin

/-- Each of the sigmas has a letter after it. -/
theorem accepts_written_odyssey :
    parse "ΟΔΥΣΣΕΑ" = { descriptor := { textTerms := ["ΟΔΥΣΣΕΑ"] } } ∧
      ∀ n : Note, n.isSearchable = true →
        (∃ text ∈ n.texts, ("ΟΔΥΣΣΕΑ" : Text).toList <:+: text.toList) →
          (parse "ΟΔΥΣΣΕΑ").descriptor.accepts (.ofDate .first) n = true := by
  have hs : parse "ΟΔΥΣΣΕΑ" = { descriptor := { textTerms := ["ΟΔΥΣΣΕΑ"] } } := by decide +kernel
  have hsettled : Settled ("ΟΔΥΣΣΕΑ" : Text).toList := by decide +kernel
  exact ⟨hs, (accepts_written_iff hs (.ofDate .first)).mpr hsettled⟩

/-- The final sigma of the term is not final in the title. -/
theorem not_accepts_written :
    let n := Note.plain "a" "ΠΡΟΣΩΠΟ" (.ofDate .first)
    parse "ΠΡΟΣ" = { descriptor := { textTerms := ["ΠΡΟΣ"] } } ∧ n.isSearchable = true ∧
      ("ΠΡΟΣ" : Text).toList <:+: n.title.toList ∧
        (parse "ΠΡΟΣ").descriptor.accepts (.ofDate .first) n = false := by
  decide +kernel

end Notebook.Query
