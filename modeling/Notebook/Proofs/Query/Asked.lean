import Mathlib.Data.List.Induction
import Notebook.Query.Matching
import Notebook.Query.Parse

/-!
# What tokens ask for

Every token of a query asks something of a note, whatever stands around it.  A note passes a query
if it has all that the tokens ask of it.  Of two tokens that give the same single value only the
later one counts, and with `tag:any` one of the tags is enough.
-/

namespace Notebook

namespace Token

def priority? : Token → Option Priority
  | priority p => some p
  | _ => none

def progress? : Token → Option Float
  | progress x => some x
  | _ => none

def due? : Token → Option Date
  | due a => some a
  | _ => none

/-- What a token asks of a note, at the moment `now`. -/
def asks (now : Moment) (n : Note) : Token → Bool
  | tag t => (n.tags.map Text.lower).contains t
  | favorite => n.favorite
  | tasks => !n.tasks.isEmpty
  | overdue => n.isDueBy now
  | priority p => n.priority = p
  | progress x => !(n.progress < x)
  | due a => n.isDueBy (.ofDate a)
  | free t => Text.occursIn (Text.lowerChars t.toList) n.searchableText.toList
  | semantic _ | anyTag | invalid _ => true

theorem priority?_eq_some (t : Token) (p : Priority) : t.priority? = some p ↔ t = .priority p := by
  cases t <;> simp [priority?]

theorem progress?_eq_some (t : Token) (x : Float) : t.progress? = some x ↔ t = .progress x := by
  cases t <;> simp [progress?]

theorem due?_eq_some (t : Token) (a : Date) : t.due? = some a ↔ t = .due a := by
  cases t <;> simp [due?]

end Token

/-- A note passes if it meets every part of the descriptor. -/
theorem Descriptor.accepts_iff {d : Descriptor} {now : Moment} {n : Note} :
    d.accepts now n = true ↔
      n.isSearchable = true ∧ d.acceptsTags n = true ∧
        (d.requireFavorite = true → n.favorite = true) ∧
        (d.requireTasks = true → n.tasks ≠ []) ∧
        (d.requireOverdue = true → n.isDueBy now = true) ∧
        (∀ p, d.priority = some p → n.priority = p) ∧
        (∀ x, d.minProgress = some x → ¬ n.progress < x) ∧
        (∀ t, d.dueBefore = some t → n.isDueBy t = true) ∧
        ∀ term ∈ d.textTerms,
          Text.occursIn (Text.lowerChars term.toList) n.searchableText.toList = true := by
  have himp (a b : Bool) : (!a || b) = true ↔ (a = true → b = true) := by cases a <;> simp
  have htasks : (!n.tasks.isEmpty) = true ↔ n.tasks ≠ [] := by simp
  simp only [accepts, acceptsText, Bool.and_eq_true, himp, htasks, Option.all_eq_true,
    List.all_eq_true, decide_eq_true_eq, Bool.not_eq_true', decide_eq_false_iff_not]
  tauto

namespace Query

/-! ### The parts of a descriptor -/

section Parts

variable {ts : List Token}

theorem descriptor_concat (ts : List Token) (t : Token) :
    (ofTokens (ts ++ [t])).descriptor = refine (ofTokens ts).descriptor t := by
  rw [ofTokens_concat]
  rfl

/-- A flag that one token sets is set if this token is there. -/
theorem flag_ofTokens (flag : Descriptor → Bool) {t₀ : Token} (hempty : flag {} = false)
    (hstep : ∀ d t, flag (refine d t) = (flag d || t = t₀)) :
    flag (ofTokens ts).descriptor = true ↔ t₀ ∈ ts := by
  induction ts using List.reverseRecOn with
  | nil => simp [empty, hempty]
  | append_singleton ts t ih =>
    rw [descriptor_concat, hstep, Bool.or_eq_true, ih, List.mem_append, List.mem_singleton,
      decide_eq_true_eq, eq_comm]

/-- A list to which tokens of one class add has what these tokens bring. -/
theorem mem_ofTokens (list : Descriptor → List Text) {token : Text → Token}
    (hempty : list {} = [])
    (hstep : ∀ d t s, s ∈ list (refine d t) ↔ s ∈ list d ∨ t = token s) (s : Text) :
    s ∈ list (ofTokens ts).descriptor ↔ token s ∈ ts := by
  induction ts using List.reverseRecOn with
  | nil => simp [empty, hempty]
  | append_singleton ts t ih =>
    rw [descriptor_concat, hstep, ih, List.mem_append, List.mem_singleton, eq_comm]

/-- A single value is that of the last token that gives one. -/
theorem value_ofTokens {β : Type} (value : Descriptor → Option β) (given : Token → Option β)
    (hempty : value {} = none) (hstep : ∀ d t, value (refine d t) = (given t).or (value d)) :
    value (ofTokens ts).descriptor = (ts.filterMap given).getLast? := by
  induction ts using List.reverseRecOn with
  | nil => exact hempty
  | append_singleton ts t ih =>
    rw [descriptor_concat, hstep, ih, List.filterMap_append, List.getLast?_append]
    cases h : given t <;> simp [h]

theorem requireFavorite_ofTokens :
    (ofTokens ts).descriptor.requireFavorite = true ↔ .favorite ∈ ts :=
  flag_ofTokens (·.requireFavorite) rfl fun d t => by cases t <;> simp [refine]

theorem requireTasks_ofTokens :
    (ofTokens ts).descriptor.requireTasks = true ↔ .tasks ∈ ts :=
  flag_ofTokens (·.requireTasks) rfl fun d t => by cases t <;> simp [refine]

theorem requireOverdue_ofTokens :
    (ofTokens ts).descriptor.requireOverdue = true ↔ .overdue ∈ ts :=
  flag_ofTokens (·.requireOverdue) rfl fun d t => by cases t <;> simp [refine]

theorem tagMode_ofTokens : (ofTokens ts).descriptor.tagMode = .any ↔ .anyTag ∈ ts := by
  have hflag : ((ofTokens ts).descriptor.tagMode == .any) = true ↔ .anyTag ∈ ts :=
    flag_ofTokens (·.tagMode == .any) rfl fun d t => by cases t <;> simp [refine]
  simpa using hflag

theorem mem_requiredTags (tag : Text) :
    tag ∈ (ofTokens ts).descriptor.requiredTags ↔ .tag tag ∈ ts := by
  refine mem_ofTokens (·.requiredTags) rfl (fun d t s => ?_) tag
  cases t with
  | tag t =>
    simp only [Query.refine, withTag, Token.tag.injEq]
    split
    · next h => exact ⟨.inl, fun hs => hs.elim id fun he => he ▸ h⟩
    · rw [List.mem_append, List.mem_singleton, eq_comm (a := s)]
  | semantic | favorite | tasks | overdue | priority | progress | due | anyTag | free | invalid =>
    simp [Query.refine]

theorem mem_textTerms (term : Text) :
    term ∈ (ofTokens ts).descriptor.textTerms ↔ .free term ∈ ts :=
  mem_ofTokens (·.textTerms) rfl (fun d t s => by cases t <;> simp [refine, eq_comm]) term

theorem mem_semanticTerms (term : Text) :
    term ∈ (ofTokens ts).descriptor.semanticTerms ↔ .semantic term ∈ ts :=
  mem_ofTokens (·.semanticTerms) rfl
    (fun d t s => by cases t <;> simp [refine, eq_comm]) term

theorem priority_ofTokens :
    (ofTokens ts).descriptor.priority = (ts.filterMap Token.priority?).getLast? :=
  value_ofTokens (·.priority) Token.priority? rfl
    fun d t => by cases t <;> simp [refine, Token.priority?]

theorem minProgress_ofTokens :
    (ofTokens ts).descriptor.minProgress = (ts.filterMap Token.progress?).getLast? :=
  value_ofTokens (·.minProgress) Token.progress? rfl
    fun d t => by cases t <;> simp [refine, Token.progress?]

theorem dueBefore_ofTokens :
    (ofTokens ts).descriptor.dueBefore = (ts.filterMap Token.due?).getLast?.map Moment.ofDate := by
  have hvalue : (ofTokens ts).descriptor.dueBefore =
      (ts.filterMap fun t => t.due?.map Moment.ofDate).getLast? :=
    value_ofTokens (·.dueBefore) (fun t => t.due?.map Moment.ofDate) rfl
      fun d t => by cases t <;> simp [refine, Token.due?]
  rw [hvalue, ← List.getLast?_map, List.map_filterMap]

end Parts

/-! ### Notes that pass -/

/-- Does a token of the list count?  Of those that give a single value that is the last one. -/
def Counts (ts : List Token) : Token → Prop
  | .priority p => (ts.filterMap Token.priority?).getLast? = some p
  | .progress x => (ts.filterMap Token.progress?).getLast? = some x
  | .due a => (ts.filterMap Token.due?).getLast? = some a
  | t => t ∈ ts

theorem Counts.mem {ts : List Token} {t : Token} (h : Counts ts t) : t ∈ ts := by
  cases t with
  | priority p =>
    obtain ⟨t, ht, hp⟩ := List.mem_filterMap.mp (List.mem_of_getLast? h)
    rwa [← (Token.priority?_eq_some t p).mp hp]
  | progress x =>
    obtain ⟨t, ht, hx⟩ := List.mem_filterMap.mp (List.mem_of_getLast? h)
    rwa [← (Token.progress?_eq_some t x).mp hx]
  | due a =>
    obtain ⟨t, ht, ha⟩ := List.mem_filterMap.mp (List.mem_of_getLast? h)
    rwa [← (Token.due?_eq_some t a).mp ha]
  | tag | semantic | favorite | tasks | overdue | anyTag | free | invalid => exact h

variable {ts : List Token} {now : Moment} {n : Note}

/-- A note passes if it is searchable and has the tags and all else that counts. -/
theorem accepts_ofTokens_iff :
    (ofTokens ts).descriptor.accepts now n = true ↔
      n.isSearchable = true ∧ (ofTokens ts).descriptor.acceptsTags n = true ∧
        ∀ t, (∀ tag, t ≠ .tag tag) → Counts ts t → t.asks now n = true := by
  have hdue (p : Moment → Prop) :
      (∀ t, (ts.filterMap Token.due?).getLast?.map Moment.ofDate = some t → p t) ↔
        ∀ a, (ts.filterMap Token.due?).getLast? = some a → p (.ofDate a) := by
    constructor
    · exact fun h a ha => h _ (by rw [ha]; rfl)
    · rintro h t ht
      obtain ⟨a, ha, rfl⟩ := Option.map_eq_some_iff.mp ht
      exact h a ha
  rw [Descriptor.accepts_iff, requireFavorite_ofTokens, requireTasks_ofTokens,
    requireOverdue_ofTokens, priority_ofTokens, minProgress_ofTokens, dueBefore_ofTokens, hdue]
  simp only [mem_textTerms]
  constructor
  · rintro ⟨hsearchable, htags, hfavorite, htasks, hoverdue, hpriority, hprogress, hdue, hfree⟩
    refine ⟨hsearchable, htags, fun t htag h => ?_⟩
    cases t with
    | tag t => exact absurd rfl (htag t)
    | favorite => exact hfavorite h
    | tasks => simpa [Token.asks] using htasks h
    | overdue => exact hoverdue h
    | priority p => simpa [Token.asks] using hpriority p h
    | progress x => simpa [Token.asks] using hprogress x h
    | due a => exact hdue a h
    | free t => exact hfree t h
    | semantic | anyTag | invalid => rfl
  · rintro ⟨hsearchable, htags, h⟩
    refine ⟨hsearchable, htags, h .favorite nofun, fun htasks => ?_, h .overdue nofun,
      fun p hp => ?_, fun x hx => ?_, fun a => h (.due a) nofun, fun t => h (.free t) nofun⟩
    · simpa [Token.asks] using h .tasks nofun htasks
    · simpa [Token.asks] using h (.priority p) nofun hp
    · simpa [Token.asks] using h (.progress x) nofun hx

/-- Without `tag:any` a note has to have every tag. -/
theorem acceptsTags_iff_of_all (hall : .anyTag ∉ ts) :
    (ofTokens ts).descriptor.acceptsTags n = true ↔
      ∀ tag, .tag tag ∈ ts → (n.tags.map Text.lower).contains tag = true := by
  have hmode : (ofTokens ts).descriptor.tagMode = .all := by
    cases h : (ofTokens ts).descriptor.tagMode with
    | all => rfl
    | any => exact absurd (tagMode_ofTokens.mp h) hall
  simp only [Descriptor.acceptsTags, hmode, List.all_eq_true, mem_requiredTags]

/-- With `tag:any` one of the tags is enough. -/
theorem acceptsTags_iff_of_any (hany : .anyTag ∈ ts) :
    (ofTokens ts).descriptor.acceptsTags n = true ↔
      (∀ tag, .tag tag ∉ ts) ∨
        ∃ tag, .tag tag ∈ ts ∧ (n.tags.map Text.lower).contains tag = true := by
  simp only [Descriptor.acceptsTags, tagMode_ofTokens.mpr hany, Bool.or_eq_true,
    List.isEmpty_iff, List.eq_nil_iff_forall_not_mem, List.any_eq_true, mem_requiredTags]

/-- Without `tag:any` a note passes if it is searchable and has all that counts. -/
theorem accepts_iff_of_all (hall : .anyTag ∉ ts) :
    (ofTokens ts).descriptor.accepts now n = true ↔
      n.isSearchable = true ∧ ∀ t, Counts ts t → t.asks now n = true := by
  rw [accepts_ofTokens_iff, acceptsTags_iff_of_all hall]
  constructor
  · rintro ⟨hsearchable, htags, hrest⟩
    refine ⟨hsearchable, fun t h => ?_⟩
    by_cases htag : ∃ tag, t = .tag tag
    · obtain ⟨tag, rfl⟩ := htag
      exact htags tag h
    · exact hrest t (fun tag ht => htag ⟨tag, ht⟩) h
  · rintro ⟨hsearchable, h⟩
    exact ⟨hsearchable, fun tag => h (.tag tag), fun t _ => h t⟩

end Query

end Notebook
