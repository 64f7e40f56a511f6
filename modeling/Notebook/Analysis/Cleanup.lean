import Notebook.Text.Blank

/-!
# Cleaning up a text

Runs of spaces and of line breaks are cut down, and spaces next to a line break or before a
punctuation mark are taken out.  Every step reads what the step before it has left.
-/

namespace Notebook

namespace Cleanup

/-- Of every run of spaces one is left. -/
def singleSpaces : List Letter → List Letter
  | [] => []
  | c :: r =>
    if c = ' ' ∧ r.head? = some (.char ' ') then singleSpaces r else c :: singleSpaces r

/-- Of every run of line breaks no more than two are left; `seen` have been read. -/
def twoBreaks (seen : Nat) : List Letter → List Letter
  | [] => []
  | c :: r =>
    if c = '\n' then if seen < 2 then c :: twoBreaks (seen + 1) r else twoBreaks seen r
    else c :: twoBreaks 0 r

/-- No space is left before a line break. -/
def noSpaceBeforeBreak (cs : List Letter) : List Letter :=
  cs.foldr (fun (c : Letter) r => if c = ' ' ∧ r.head? = some (.char '\n') then r else c :: r) []

/-- No space is left behind a line break; `behind` tells whether only spaces have been read since
the last one. -/
def noSpaceAfterBreak (behind : Bool) : List Letter → List Letter
  | [] => []
  | c :: r =>
    if behind ∧ c = ' ' then noSpaceAfterBreak true r
    else c :: noSpaceAfterBreak (c = '\n') r

def isPunctuation (c : Letter) : Bool := c == ',' || c == '.' || c == '!' || c == '?'

/-- The space right before a punctuation mark is taken out. -/
def noSpaceBeforeMark : List Letter → List Letter
  | [] => []
  | c :: r =>
    if c = ' ' ∧ r.head?.any isPunctuation then noSpaceBeforeMark r
    else c :: noSpaceBeforeMark r

end Cleanup

open Cleanup in
def cleanup (cs : List Letter) : List Letter :=
  Text.trim (noSpaceBeforeMark (noSpaceAfterBreak false (noSpaceBeforeBreak
    (twoBreaks 0 (singleSpaces cs)))))

end Notebook
