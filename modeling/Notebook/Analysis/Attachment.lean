import Notebook.Note.Basic

/-!
# Attachment markers

A marker `[[ATTACH:name]]` stands in the body of a note where a file is attached.  The plain text
of a note is its title and its body without them.
-/

namespace Notebook

namespace Attachment

def opening : List Letter := ("[[ATTACH:" : Text).toList

/-- What stands behind the marker with which the text begins, if it begins with one.  The name in
it has at least one character and no closing bracket. -/
def afterMarker? (cs : List Letter) : Option (List Letter) :=
  if opening.isPrefixOf cs then
    let r := cs.drop opening.length
    match r.takeWhile (· ≠ .char ']'), r.dropWhile (· ≠ .char ']') with
    | _ :: _, .char ']' :: .char ']' :: rest => some rest
    | _, _ => none
  else none

theorem length_afterMarker?_lt {cs rest : List Letter} (h : afterMarker? cs = some rest) :
    rest.length < cs.length := by
  unfold afterMarker? at h
  split at h
  · simp only at h
    split at h
    · next heq =>
      cases h
      have h₁ := (List.dropWhile_suffix (· ≠ .char ']') (l := cs.drop opening.length)).length_le
      rw [heq] at h₁
      simp only [List.length_cons, List.length_drop] at h₁
      omega
    · cases h
  · cases h

/-- The text with its markers taken out, from left to right. -/
def removeMarkers : List Letter → List Letter
  | [] => []
  | c :: r =>
    match _h : afterMarker? (c :: r) with
    | some rest => removeMarkers rest
    | none => c :: removeMarkers r
termination_by cs => cs.length
decreasing_by
  · exact length_afterMarker?_lt ‹_›
  · simp

@[simp] theorem removeMarkers_nil : removeMarkers [] = [] := by simp [removeMarkers]

end Attachment

/-- The title, and the body without attachment markers on the lines below. -/
def plainText (title body : Text) : Text :=
  title ++ "\n" ++ Text.ofList (Attachment.removeMarkers body.toList)

end Notebook
