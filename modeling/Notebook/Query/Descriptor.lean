import Notebook.Note.Record

/-!
# Descriptors

What a query asks of a note.  A descriptor that asks nothing lets every note through.
-/

namespace Notebook

/-- Must a note carry all of the required tags, or is one enough? -/
inductive TagMode
  | all
  | any
  deriving DecidableEq, Repr

namespace TagMode

def name : TagMode → Text
  | .all => "all"
  | .any => "any"

def ofName? (s : Text) : Option TagMode := [all, any].find? (·.name = s)

end TagMode

structure Descriptor where
  requiredTags : List Text := []
  tagMode : TagMode := .all
  requireFavorite : Bool := false
  requireTasks : Bool := false
  requireOverdue : Bool := false
  priority : Option Priority := none
  minProgress : Option Float := none
  dueBefore : Option Moment := none
  textTerms : List Text := []
  semanticTerms : List Text := []
  deriving DecidableEq

namespace Descriptor

def isSemantic (d : Descriptor) : Bool := !d.semanticTerms.isEmpty

def ofFields (fields : Keyed Json) : Checked Descriptor :=
  Descriptor.mk <$> Fields.defaulted "required_tags" [] (Fields.list Fields.text) fields
    <*> Fields.defaulted "tag_mode" .all (Fields.choice TagMode.ofName?) fields
    <*> Fields.defaulted "require_favorite" false Fields.flag fields
    <*> Fields.defaulted "require_tasks" false Fields.flag fields
    <*> Fields.defaulted "require_overdue" false Fields.flag fields
    <*> Fields.defaulted "priority" none (Fields.option (Fields.choice Priority.ofName?)) fields
    <*> Fields.defaulted "min_progress" none (Fields.option Fields.number) fields
    <*> Fields.defaulted "due_before" none (Fields.option Fields.moment) fields
    <*> Fields.defaulted "text_terms" [] (Fields.list Fields.text) fields
    <*> Fields.defaulted "semantic_terms" [] (Fields.list Fields.text) fields

def ofJson : Json → Checked Descriptor
  | .obj fields => ofFields (Keyed.ofPairs fields)
  | _ => .fault .notRecord

def toRecord (d : Descriptor) : Json :=
  .obj
    [("required_tags", .strings d.requiredTags),
     ("tag_mode", .str d.tagMode.name),
     ("require_favorite", .bool d.requireFavorite),
     ("require_tasks", .bool d.requireTasks),
     ("require_overdue", .bool d.requireOverdue),
     ("priority", .ofOption (fun p => .str p.name) d.priority),
     ("min_progress", .ofOption .float d.minProgress),
     ("due_before", .ofOption (fun t => .str t.isoText) d.dueBefore),
     ("text_terms", .strings d.textTerms),
     ("semantic_terms", .strings d.semanticTerms)]

end Descriptor

end Notebook
