import Notebook.Query.Descriptor
import Notebook.Text.Blank
import Notebook.Text.Lowercase

/-!
# Matching notes

Does a note do what a descriptor asks?  Tags and terms are compared in small letters, moments by
the instant they stand for.
-/

namespace Notebook

/-- Title, body, tags and tasks in small letters, with a space between any two of them. -/
def Note.searchableText (n : Note) : Text :=
  Text.lower (Text.intercalate " " [n.title, n.body, Text.intercalate " " n.tags,
    Text.intercalate " " (n.tasks.map (·.text))])

/-- Is the note due at the given moment? -/
def Note.isDueBy (t : Moment) (n : Note) : Bool :=
  n.dueDate.any fun due => due.instant ≤ t.instant

namespace Descriptor

def acceptsTags (d : Descriptor) (n : Note) : Bool :=
  let own := n.tags.map Text.lower
  match d.tagMode with
  | .all => d.requiredTags.all (own.contains ·)
  | .any => d.requiredTags.isEmpty || d.requiredTags.any (own.contains ·)

def acceptsText (d : Descriptor) (n : Note) : Bool :=
  let text := n.searchableText.toList
  d.textTerms.all fun term => Text.occursIn (Text.lowerChars term.toList) text

/-- Does the note pass, at the moment `now`? -/
def accepts (d : Descriptor) (now : Moment) (n : Note) : Bool :=
  n.isSearchable &&
    (!d.requireFavorite || n.favorite) &&
    (!d.requireTasks || !n.tasks.isEmpty) &&
    d.priority.all (n.priority = ·) &&
    d.minProgress.all (fun least => !(n.progress < least)) &&
    (!d.requireOverdue || n.isDueBy now) &&
    d.dueBefore.all (n.isDueBy ·) &&
    d.acceptsTags n &&
    d.acceptsText n

theorem isSearchable_of_accepts {d : Descriptor} {now : Moment} {n : Note}
    (h : d.accepts now n = true) : n.isSearchable = true := by
  simp only [accepts, Bool.and_eq_true] at h
  exact h.1.1.1.1.1.1.1.1

end Descriptor

end Notebook
