import Notebook.Note.Basic
import Notebook.Text.Blank
import Notebook.Text.Lowercase

/-!
# Tokens of a query

Every word of a query is a token of exactly one class.  A word that begins like an operator and
goes on with something the operator does not take is invalid; it is never a free term.
-/

namespace Notebook

inductive Token
  /-- `#tag`, in small letters. -/
  | tag (tag : Text)
  /-- `~term` -/
  | semantic (term : Text)
  /-- `is:fav`, `is:favorite` -/
  | favorite
  /-- `has:task`, `has:tasks` -/
  | tasks
  /-- `is:overdue` -/
  | overdue
  /-- `priority:high` -/
  | priority (p : Priority)
  /-- `progress:>40`, as a ratio. -/
  | progress (ratio : Float)
  /-- `due:2024-06-15` -/
  | due (date : Date)
  /-- `tag:any` -/
  | anyTag
  | free (term : Text)
  | invalid (word : Text)
  deriving DecidableEq

namespace Token

open Text

/-! ### Dates -/

/-- A month in one or two plain digits. -/
def monthOf? : List Char → Option Nat
  | [t, c] =>
    if t = '1' then
      if c = '0' ∨ c = '1' ∨ c = '2' then some (10 + (c.toNat - '0'.toNat)) else none
    else if t = '0' then
      if '1' ≤ c ∧ c ≤ '9' then some (c.toNat - '0'.toNat) else none
    else none
  | [c] => if '1' ≤ c ∧ c ≤ '9' then some (c.toNat - '0'.toNat) else none
  | _ => none

/-- A day in one or two digits.  Behind 1 and 2 a digit of any script may stand. -/
def dayOf? : List Char → Option Nat
  | [t, c] =>
    if t = '3' then if c = '0' ∨ c = '1' then some (30 + (c.toNat - '0'.toNat)) else none
    else if t = '2' then (digitValue? c).map (20 + ·)
    else if t = '1' then (digitValue? c).map (10 + ·)
    else if t = '0' then if '1' ≤ c ∧ c ≤ '9' then some (c.toNat - '0'.toNat) else none
    else none
  | [c] => if '1' ≤ c ∧ c ≤ '9' then some (c.toNat - '0'.toNat) else none
  | _ => none

/-- Four digits of any script. -/
def yearOf? (cs : List Char) : Option Nat :=
  if cs.length = 4 then
    (cs.mapM digitValue?).map fun ds => ds.foldl (fun n d => 10 * n + d) 0
  else none

/-- A day written as `2024-6-5` or `2024-06-05`. -/
def dateOf? (cs : List Letter) : Option Date :=
  (chars? cs).bind fun cs =>
    match pieces '-' cs with
    | [y, m, d] =>
      match yearOf? y, monthOf? m, dayOf? d with
      | some y, some m, some d => Date.of? y m d
      | _, _, _ => none
    | _ => none

/-! ### Numbers -/

/-- A percentage as a ratio. -/
def ratioOf? (cs : List Letter) : Option Float :=
  match Decimal.readLetters? cs with
  | some x => if Decimal.isFinite x then some (x / 100.0) else none
  | none => none

/-! ### Classes -/

/-- What stands behind `start`, if the text begins with it. -/
def after? (start : Text) (cs : List Letter) : Option (List Letter) :=
  if start.toList.isPrefixOf cs then some (cs.drop start.length) else none

/-- The class of a word that is neither a tag nor a semantic term.  The names of the operators
may be written in any case. -/
def ofOperator (word : Text) : Token :=
  let cs := word.toList
  let low := lowerChars cs
  if low = ("is:fav" : Text).toList ∨ low = ("is:favorite" : Text).toList then favorite
  else if low = ("has:task" : Text).toList ∨ low = ("has:tasks" : Text).toList then tasks
  else if low = ("is:overdue" : Text).toList then overdue
  else if let some name := after? "priority:" low then
    match Priority.ofName? (ofList name) with
    | some p => priority p
    | none => invalid word
  else if ("progress:>" : Text).toList.isPrefixOf low then
    match ratioOf? (cs.drop (Text.length "progress:>")) with
    | some x => progress x
    | none => invalid word
  else if ("due:" : Text).toList.isPrefixOf low then
    match dateOf? (cs.drop (Text.length "due:")) with
    | some a => due a
    | none => invalid word
  else if low = ("tag:any" : Text).toList then anyTag
  else free word

/-- The class of a word. -/
def ofWord (word : Text) : Token :=
  match word.toList with
  | .char '#' :: r => if r.isEmpty then invalid word else tag (ofList (lowerChars r))
  | .char '~' :: r => if r.isEmpty then invalid word else semantic (ofList r)
  | _ => ofOperator word

end Token

end Notebook
