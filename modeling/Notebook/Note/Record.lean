import Notebook.Fields.Read
import Notebook.Note.Basic

/-!
# Notes as records

`Note.ofJson` checks a JSON record and fills in what it leaves out, `Note.assign` checks a new
value for one field, and `Note.toRecord` writes a note down.
-/

namespace Notebook

namespace Task

def ofFields (fields : Keyed Json) : Checked Task :=
  Task.mk <$> Fields.required "text" Fields.text fields
    <*> Fields.defaulted "completed" false Fields.flag fields

def ofJson : Json → Checked Task
  | .obj fields => ofFields (Keyed.ofPairs fields)
  | _ => .fault .notRecord

def toRecord (t : Task) : Json := .obj [("text", .str t.text), ("completed", .bool t.completed)]

end Task

namespace Note

inductive Field
  | id
  | title
  | body
  | tags
  | favorite
  | archived
  | system
  | priority
  | progress
  | dueDate
  | tasks
  | embedding
  | suggestedTags
  | tagConfidences
  | lastAnalyzed
  | created
  | modified
  deriving DecidableEq, Repr

namespace Field

def name : Field → Text
  | .id => "id"
  | .title => "title"
  | .body => "body"
  | .tags => "tags"
  | .favorite => "favorite"
  | .archived => "archived"
  | .system => "system"
  | .priority => "priority"
  | .progress => "progress"
  | .dueDate => "due_date"
  | .tasks => "tasks"
  | .embedding => "content_embedding"
  | .suggestedTags => "suggested_tags"
  | .tagConfidences => "tag_confidences"
  | .lastAnalyzed => "last_analyzed"
  | .created => "created"
  | .modified => "modified"

/-- The fields in the order in which a record has them. -/
def all : List Field :=
  [id, title, body, tags, favorite, archived, system, priority, progress, dueDate, tasks,
    embedding, suggestedTags, tagConfidences, lastAnalyzed, created, modified]

def ofName? (s : Text) : Option Field := all.find? (·.name = s)

theorem ofName?_name (f : Field) : ofName? f.name = some f := by cases f <;> decide

end Field

/-! ### Reading -/

/-- A note from the fields of a record.  One without times was made at the moment `now`. -/
def ofFields (now : Moment) (fields : Keyed Json) : Checked Note :=
  Note.mk <$> Fields.required "id" Fields.text fields
    <*> Fields.defaulted "title" "" Fields.text fields
    <*> Fields.defaulted "body" "" Fields.text fields
    <*> Fields.defaulted "tags" [] (Fields.list Fields.text) fields
    <*> Fields.defaulted "favorite" false Fields.flag fields
    <*> Fields.defaulted "archived" false Fields.flag fields
    <*> Fields.defaulted "system" false Fields.flag fields
    <*> Fields.defaulted "priority" .normal (Fields.choice Priority.ofName?) fields
    <*> Fields.defaulted "progress" 0.0 Fields.ratio fields
    <*> Fields.defaulted "due_date" none (Fields.option Fields.zonedMoment) fields
    <*> Fields.defaulted "tasks" [] (Fields.list Task.ofJson) fields
    <*> Fields.defaulted "content_embedding" none (Fields.option Fields.grid) fields
    <*> Fields.defaulted "suggested_tags" [] (Fields.list Fields.text) fields
    <*> Fields.defaulted "tag_confidences" [] (Fields.list Fields.number) fields
    <*> Fields.defaulted "last_analyzed" none (Fields.option Fields.zonedMoment) fields
    <*> Fields.defaulted "created" now.zoned Fields.zonedMoment fields
    <*> Fields.defaulted "modified" now.zoned Fields.zonedMoment fields

def ofJson (now : Moment) : Json → Checked Note
  | .obj fields => ofFields now (Keyed.ofPairs fields)
  | _ => .fault .notRecord

/-- The note with a new value in one field, if the field takes it. -/
def setField (f : Field) (v : Json) (n : Note) : Checked Note :=
  match f with
  | .id => (Fields.text v).map fun x => { n with id := x }
  | .title => (Fields.text v).map fun x => { n with title := x }
  | .body => (Fields.text v).map fun x => { n with body := x }
  | .tags => (Fields.list Fields.text v).map fun x => { n with tags := x }
  | .favorite => (Fields.flag v).map fun x => { n with favorite := x }
  | .archived => (Fields.flag v).map fun x => { n with archived := x }
  | .system => (Fields.flag v).map fun x => { n with system := x }
  | .priority => (Fields.choice Priority.ofName? v).map fun x => { n with priority := x }
  | .progress => (Fields.ratio v).map fun x => { n with progress := x }
  | .dueDate => (Fields.option Fields.zonedMoment v).map fun x => { n with dueDate := x }
  | .tasks => (Fields.list Task.ofJson v).map fun x => { n with tasks := x }
  | .embedding => (Fields.option Fields.grid v).map fun x => { n with embedding := x }
  | .suggestedTags => (Fields.list Fields.text v).map fun x => { n with suggestedTags := x }
  | .tagConfidences => (Fields.list Fields.number v).map fun x => { n with tagConfidences := x }
  | .lastAnalyzed => (Fields.option Fields.zonedMoment v).map fun x => { n with lastAnalyzed := x }
  | .created => (Fields.zonedMoment v).map fun x => { n with created := x }
  | .modified => (Fields.zonedMoment v).map fun x => { n with modified := x }

/-- Names under which every record tells something about itself. -/
def readOnlyNames : List Text := ["model_extra", "model_fields_set"]

/-- The same for a field given by name.  What is put under a name with an underscore in front is
no part of the note. -/
def assign (name : Text) (v : Json) (n : Note) : Checked Note :=
  match Field.ofName? name with
  | some f => (n.setField f v).under name
  | none =>
    if name ∈ readOnlyNames then .broken .readOnly
    else if name.toList.head? = some (.char '_') then .ok n
    else Checked.under name (.fault .noSuchField)

/-! ### Writing -/

/-- An entry of an embedding; one that is no finite number is left out. -/
def entryRecord (x : Float) : Json := if Decimal.isFinite x then .float x else .null

def momentRecord (t : Moment) : Json := .str t.text

def fieldRecord (n : Note) : Field → Json
  | .id => .str n.id
  | .title => .str n.title
  | .body => .str n.body
  | .tags => .strings n.tags
  | .favorite => .bool n.favorite
  | .archived => .bool n.archived
  | .system => .bool n.system
  | .priority => .str n.priority.name
  | .progress => .float n.progress
  | .dueDate => .ofOption momentRecord n.dueDate
  | .tasks => .arr (n.tasks.map Task.toRecord)
  | .embedding => .ofOption (Grid.toJson entryRecord) n.embedding
  | .suggestedTags => .strings n.suggestedTags
  | .tagConfidences => .floats n.tagConfidences
  | .lastAnalyzed => .ofOption momentRecord n.lastAnalyzed
  | .created => momentRecord n.created
  | .modified => momentRecord n.modified

def toRecord (n : Note) : Json := .obj (Field.all.map fun f => (f.name, n.fieldRecord f))

/-! ### Plain notes -/

/-- A note with an id and a title, made at the moment `t`. -/
def plain (id title : Text) (t : Moment) : Note where
  id := id
  title := title
  body := ""
  tags := []
  favorite := false
  archived := false
  system := false
  priority := .normal
  progress := 0.0
  dueDate := none
  tasks := []
  embedding := none
  suggestedTags := []
  tagConfidences := []
  lastAnalyzed := none
  created := t.zoned
  modified := t.zoned

theorem ofJson_plain (t : Moment) (id title : Text) :
    ofJson t (.obj [("id", .str id), ("title", .str title)]) = .ok (plain id title t) := rfl

end Note

end Notebook
