import Notebook.Text.CaseTable

/-!
# Small letters

`lower` gives the small letters of a text.  Two characters are no matter of a table: the capital
I with a dot becomes two characters, and a capital sigma that ends a word becomes a final sigma.
-/

namespace Notebook.Text

/-- The small letter of one character, where it is one character. -/
def lowerChar (c : Letter) : Letter :=
  if c.toNat < 0x80 then
    if 'A' ≤ c && c ≤ 'Z' then Letter.ofNat (c.toNat + 0x20) else c
  else
    match caseRuns.find? (·.holds c.toNat) with
    | some r => Letter.ofNat (c.toNat + r.shift).toNat
    | none => c

/-- Is the first letter ahead one with a case?  Marks and the like are passed over. -/
def casedAhead (cs : List Letter) : Bool := ((cs.find? (! isPassedOver ·)).map isCased).getD false

/-- The small letters of `c`, between what stood before it (`cased`: the last letter had a case)
and what follows. -/
def lowerAt (cased : Bool) (c : Letter) (rest : List Letter) : List Letter :=
  if c = 'Σ' then [if cased && !casedAhead rest then 'ς' else 'σ']
  else if c = 'İ' then ['i', '\u0307']
  else [lowerChar c]

/-- Does the last letter have a case, once `c` has been read? -/
def casedAfter (cased : Bool) (c : Letter) : Bool := if isPassedOver c then cased else isCased c

def lowerFrom (cased : Bool) : List Letter → List Letter
  | [] => []
  | c :: rest => lowerAt cased c rest ++ lowerFrom (casedAfter cased c) rest

/-- The small letters of a text. -/
def lowerChars (cs : List Letter) : List Letter := lowerFrom false cs

def lower (s : Text) : Text := ofList (lowerChars s.toList)

@[simp] theorem lowerChars_nil : lowerChars [] = [] := rfl

theorem lowerFrom_cons (cased : Bool) (c : Letter) (rest : List Letter) :
    lowerFrom cased (c :: rest) =
      lowerAt cased c rest ++ lowerFrom (casedAfter cased c) rest := rfl

end Notebook.Text
