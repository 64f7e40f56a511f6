import Notebook.Note.Record
import Notebook.Proofs.Query.PlainCase
import Notebook.Proofs.Text.Parts

/-!
# The case of letters in matching

Terms and the texts of a note are put in small letters when they are compared, and the tags of the
note as well.  The tags that a descriptor asks for are not: they have to be in small letters from
the beginning, as those of a query are.  A tag with a capital is one that no note has, and this is
the only thing for which the case of plain letters counts.
-/

namespace Notebook

open Text

/-! ### Texts in small letters -/

namespace Text

/-- Has the text no plain capital? -/
def isSmall (s : Text) : Bool := uncapped s = s

theorem isSmall_lower (s : Text) : isSmall (lower s) = true := by
  refine decide_eq_true (Text.ext ?_)
  rw [toList_uncapped, toList_lower]
  exact (List.map_congr_left fun c hc => toLower_of_mem_lowerFrom hc).trans (List.map_id _)

theorem notMem_map_lower {tag : Text} (h : isSmall tag = false) (tags : List Text) :
    tag ∉ tags.map lower := by
  intro hmem
  obtain ⟨own, -, rfl⟩ := List.mem_map.mp hmem
  rw [isSmall_lower] at h
  cases h

/-- A tag with a capital is found nowhere, and any other is its own small letters. -/
theorem contains_map_lower (tags : List Text) (tag : Text) :
    (tags.map lower).contains tag = (isSmall tag && (tags.map lower).contains (uncapped tag)) := by
  cases hsmall : isSmall tag with
  | true => rw [of_decide_eq_true hsmall, Bool.true_and]
  | false =>
    rw [Bool.false_and, ← Bool.not_eq_true, List.contains_iff_mem]
    exact notMem_map_lower hsmall tags

end Text

/-! ### Notes -/

namespace Note

/-- The note with all of its texts in small letters. -/
def small (n : Note) : Note :=
  { n with
    title := uncapped n.title
    body := uncapped n.body
    tags := n.tags.map uncapped
    tasks := n.tasks.map fun t => { t with text := uncapped t.text } }

theorem searchableText_small (n : Note) : n.small.searchableText = n.searchableText := by
  have htasks : n.small.tasks.map (·.text) = (n.tasks.map (·.text)).map uncapped := by
    simp [small]
  have hjoined : Text.intercalate " " [n.small.title, n.small.body,
      Text.intercalate " " n.small.tags, Text.intercalate " " (n.small.tasks.map (·.text))] =
      uncapped (Text.intercalate " " [n.title, n.body, Text.intercalate " " n.tags,
        Text.intercalate " " (n.tasks.map (·.text))]) := by
    rw [htasks, uncapped_intercalate]
    simp only [List.map_cons, List.map_nil, uncapped_intercalate]
    rfl
  rw [searchableText, hjoined, lower_uncapped]
  rfl

theorem map_lower_tags_small (n : Note) : n.small.tags.map lower = n.tags.map lower := by
  simp [small, lower_uncapped]

end Note

/-! ### Descriptors -/

namespace Descriptor

/-- The descriptor with all of its tags and terms in small letters. -/
def small (d : Descriptor) : Descriptor :=
  { d.uncapped with requiredTags := d.requiredTags.map Text.uncapped }

variable {d e : Descriptor}

/-- The case of letters in a note does not matter. -/
theorem accepts_small_note (d : Descriptor) (now : Moment) (n : Note) :
    d.accepts now n.small = d.accepts now n := by
  have htags : d.acceptsTags n.small = d.acceptsTags n := by
    unfold acceptsTags
    rw [n.map_lower_tags_small]
  have htext : d.acceptsText n.small = d.acceptsText n := by
    unfold acceptsText
    rw [n.searchableText_small]
  have htasks : n.small.tasks.isEmpty = n.tasks.isEmpty := List.isEmpty_map
  unfold accepts
  rw [htags, htext, htasks]
  rfl

/-- What is found of the tags is told by their small letters and by which of them are small. -/
theorem acceptsTags_congr (hmode : d.tagMode = e.tagMode)
    (htags : d.requiredTags.map Text.uncapped = e.requiredTags.map Text.uncapped)
    (hsmall : d.requiredTags.map isSmall = e.requiredTags.map isSmall) (n : Note) :
    d.acceptsTags n = e.acceptsTags n := by
  have hfound (d : Descriptor) : d.requiredTags.map ((n.tags.map lower).contains ·) =
      List.zipWith (fun small tag => small && (n.tags.map lower).contains tag)
        (d.requiredTags.map isSmall) (d.requiredTags.map Text.uncapped) := by
    rw [List.zipWith_map, List.zipWith_self]
    exact List.map_congr_left fun tag _ => contains_map_lower n.tags tag
  have hsame : d.requiredTags.map ((n.tags.map lower).contains ·) =
      e.requiredTags.map ((n.tags.map lower).contains ·) := by
    rw [hfound, hfound, htags, hsmall]
  have hall := congrArg (List.all · id) hsame
  have hany := congrArg (List.any · id) hsame
  have hempty := congrArg List.isEmpty hsame
  simp only [List.all_map, List.any_map, List.isEmpty_map, Function.id_comp] at hall hany hempty
  unfold acceptsTags
  rw [← hmode, hempty]
  cases d.tagMode with
  | all => exact hall
  | any => exact congrArg (e.requiredTags.isEmpty || ·) hany

theorem accepts_congr (hd : d.small = e.small)
    (hsmall : d.requiredTags.map isSmall = e.requiredTags.map isSmall) (now : Moment) (n : Note) :
    d.accepts now n = e.accepts now n := by
  have he : { d.uncapped with requiredTags := e.requiredTags } = e.uncapped :=
    congrArg (fun x : Descriptor => { x with requiredTags := e.requiredTags }) hd
  have hmode : d.small.tagMode = e.small.tagMode := congrArg tagMode hd
  have hrequired : d.small.requiredTags = e.small.requiredTags := congrArg requiredTags hd
  have htags : d.uncapped.acceptsTags n = e.uncapped.acceptsTags n :=
    acceptsTags_congr (d := d) (e := e) hmode hrequired hsmall n
  rw [← accepts_uncapped d, ← accepts_uncapped e]
  unfold accepts
  rw [htags, ← he]
  rfl

end Descriptor

/-! ### Queries -/

namespace Query

/-- The tags that a query asks for are in small letters. -/
theorem isSmall_of_mem_requiredTags {q tag : Text}
    (h : tag ∈ (parse q).descriptor.requiredTags) : isSmall tag = true := by
  rw [parse, tokens, ofTokens_words] at h
  obtain ⟨word, -, rfl⟩ := List.mem_map.mp (List.mem_eraseDups.mp h)
  have hlower : tagOf word = lower (Text.ofList (Rule.tag.body word)) := by
    rw [lower, Text.toList_ofList]
    rfl
  rw [hlower]
  exact isSmall_lower _

/-- Queries that differ only in the case of letters ask for the same of every note. -/
theorem accepts_parse_congr {q q' : Text} (h : Text.uncapped q = Text.uncapped q')
    (now : Moment) (n : Note) :
    (parse q).descriptor.accepts now n = (parse q').descriptor.accepts now n := by
  have huncapped : (parse q).descriptor.uncapped = (parse q').descriptor.uncapped := by
    have hparse := congrArg parse h
    rw [parse_uncapped, parse_uncapped] at hparse
    exact congrArg descriptor hparse
  rw [← Descriptor.accepts_uncapped, huncapped, Descriptor.accepts_uncapped]

end Query

namespace Descriptor

/-- The case of letters in the terms of a descriptor and in the texts of a note does not matter at
all.  In the tags that are asked for it matters only if one goes from having a capital to having
none: a tag with a capital is no tag of any note, and no query gives one. -/
theorem accepts_eq_of_small_eq {d e : Descriptor} {n m : Note} (hd : d.small = e.small)
    (hsmall : d.requiredTags.map isSmall = e.requiredTags.map isSmall) (hn : n.small = m.small) :
    (∀ now, d.accepts now n = e.accepts now m) ∧
      (∀ tag, isSmall tag = false → tag ∉ n.tags.map lower) ∧
      (∀ q, ∀ tag ∈ (Query.parse q).descriptor.requiredTags, isSmall tag = true) ∧
      ∀ q q' now, Text.uncapped q = Text.uncapped q' →
        (Query.parse q).descriptor.accepts now n = (Query.parse q').descriptor.accepts now m := by
  have hnote (d : Descriptor) (now : Moment) : d.accepts now n = d.accepts now m := by
    rw [← accepts_small_note, hn, accepts_small_note]
  refine ⟨fun now => ?_, fun tag htag => notMem_map_lower htag n.tags,
    fun q tag => Query.isSmall_of_mem_requiredTags, fun q q' now h => ?_⟩
  · rw [accepts_congr hd hsmall, hnote]
  · rw [Query.accepts_parse_congr h, hnote]

/-- The note has another spelling of the one tag, and no tag like the other. -/
theorem accepts_eq_of_small_eq_tea :
    let d : Descriptor :=
      { requiredTags := ["tea", "COLD"], tagMode := .any, textTerms := ["milk"] }
    let e : Descriptor :=
      { requiredTags := ["tea", "Cold"], tagMode := .any, textTerms := ["MILK"] }
    let t := Moment.ofDate .first
    let n := { Note.plain "a" "Milk" t with tags := ["Tea", "Cold"] }
    let m := { Note.plain "a" "mILK" t with tags := ["TEA", "cold"] }
    d.small = e.small ∧ d.requiredTags.map isSmall = e.requiredTags.map isSmall ∧
      n.small = m.small ∧ d.accepts t n = true ∧ e.accepts t m = true := by
  intro d e t n m
  have hd : d.small = e.small := by decide +kernel
  have hsmall : d.requiredTags.map isSmall = e.requiredTags.map isSmall := by decide +kernel
  have hn : n.small = m.small := by decide +kernel
  have hfound : d.accepts t n = true := by decide +kernel
  exact ⟨hd, hsmall, hn, hfound, ((accepts_eq_of_small_eq hd hsmall hn).1 t).symm.trans hfound⟩

/-- A tag that is asked for with a capital is not found, although the note has it in both
letters. -/
theorem not_accepts_capital_tag :
    let d : Descriptor := { requiredTags := ["work"] }
    let e : Descriptor := { requiredTags := ["Work"] }
    let t := Moment.ofDate .first
    let n := { Note.plain "a" "Milk" t with tags := ["work", "Work"] }
    d.small = e.small ∧ d.accepts t n = true ∧ e.accepts t n = false := by
  decide +kernel

end Descriptor

end Notebook
