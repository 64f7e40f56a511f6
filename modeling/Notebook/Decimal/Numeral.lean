import Notebook.Decimal.Binary
import Notebook.Text.Blank
import Notebook.Text.WordChar

/-!
# Decimal numerals

A numeral is digits with a decimal point somewhere among them and a power of ten.  `read?` knows
the spellings `1`, `1.`, `.5`, `1.5e-3` with an optional sign, and the names of infinity and of no
number.  `readTyped?` is for text that people type: digits of any script, single underscores
between digits, blanks around.
-/

namespace Notebook.Decimal

-- Powers are those of the core library here, whatever is imported besides.
attribute [local instance (high)] instPowNat

/-- The digits before and behind the point, and a power of ten. -/
structure Numeral where
  whole : List Char
  fraction : List Char
  exponent : Int
  deriving DecidableEq, Repr

/-- The number that a row of decimal digits stands for. -/
def natOfDigits (ds : List Char) : Nat := ds.foldl (fun n c => 10 * n + (c.toNat - '0'.toNat)) 0

namespace Numeral

/-- The double next to the numeral.  Beyond `10 ^ 400` that is infinity, and below `10 ^ -400`
zero, whatever the digits are. -/
def toFloat (n : Numeral) : Float :=
  let m := natOfDigits (n.whole ++ n.fraction)
  let e := n.exponent - n.fraction.length
  if m = 0 then assemble false 0 0
  else
    let size := e + (Nat.toDigits 10 m).length
    if 400 < size then infinity false
    else if size < -400 then assemble false 0 0
    else nearest (m * 10 ^ e.toNat) (10 ^ (-e).toNat)

end Numeral

/-- The double next to a whole number. -/
def ofNat (n : Nat) : Float := Numeral.toFloat ⟨Nat.toDigits 10 n, [], 0⟩

def withSign (negative : Bool) (x : Float) : Float := if negative then -x else x

def ofInt (i : Int) : Float := withSign (i < 0) (ofNat i.natAbs)

/-! ### Reading -/

/-- A sign, if there is one, and the rest. -/
def splitSign : List Char → Bool × List Char
  | '-' :: r => (true, r)
  | '+' :: r => (false, r)
  | r => (false, r)

/-- The digits of an exponent with its sign. -/
def exponent? (cs : List Char) : Option Int :=
  let (negative, ds) := splitSign cs
  if ds.isEmpty || !ds.all Char.isDigit then none
  else some (if negative then -(natOfDigits ds : Int) else natOfDigits ds)

/-- A numeral without a sign. -/
def numeral? (cs : List Char) : Option Numeral :=
  let whole := cs.takeWhile Char.isDigit
  let (fraction, r) := match cs.dropWhile Char.isDigit with
    | '.' :: r => (r.takeWhile Char.isDigit, r.dropWhile Char.isDigit)
    | r => ([], r)
  if whole.isEmpty && fraction.isEmpty then none
  else match r with
    | [] => some ⟨whole, fraction, 0⟩
    | c :: r => if c = 'e' ∨ c = 'E' then (exponent? r).map (⟨whole, fraction, ·⟩) else none

def asciiLower (cs : List Char) : List Char := cs.map Char.toLower

/-- A number without blanks around it. -/
def read? (cs : List Char) : Option Float :=
  let (negative, r) := splitSign cs
  let name := asciiLower r
  if name = "nan".toList then some nan
  else if name = "inf".toList ∨ name = "infinity".toList then some (infinity negative)
  else (numeral? r).map fun n => withSign negative n.toFloat

/-- Take out the underscores, each of which has to stand between two digits. -/
def dropUnderscores? (afterDigit : Bool) : List Char → Option (List Char)
  | [] => some []
  | '_' :: d :: r =>
    if afterDigit && d.isDigit then (dropUnderscores? true r).map (d :: ·) else none
  | c :: r => if c = '_' then none else (dropUnderscores? c.isDigit r).map (c :: ·)

/-- Decimal digits of any script as plain digits. -/
def plainDigit (c : Char) : Char :=
  match Text.digitValue? c with
  | some d => Text.asciiDigit d
  | none => c

/-- A number as it may be typed. -/
def readTyped? (cs : List Char) : Option Float :=
  (dropUnderscores? false ((Text.trimBy (fun c : Char => Text.isSpace c) cs).map plainDigit)).bind
    read?

/-- The same for letters, all of which have to be characters. -/
def readLetters? (ls : List Letter) : Option Float := (Text.chars? ls).bind readTyped?

end Notebook.Decimal
