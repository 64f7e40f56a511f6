import Notebook.Json.Basic
import Notebook.Decimal.Numeral
import Notebook.Text.Quoted

/-!
# Reading JSON

`ofText` reads one value with blanks around it.  `NaN`, `Infinity` and `-Infinity` are numbers.
When an object has a key twice, the later value stands at the place of the first.  Of several
faults in a text the first one counts.
-/

namespace Notebook.Json

/-- Why a text is not read. -/
inductive ReadError
  | malformed
  /-- A whole number of so many digits. -/
  | tooLong (digits : Nat)
  /-- A list, or a record, inside too many others. -/
  | tooDeep (inRecord : Bool)
  deriving DecidableEq, Repr

/-- The most digits that a whole number may have. -/
def maxDigits : Nat := 4300

/-- The most lists and records that may stand inside one another. -/
def maxDepth : Nat := 985

def ReadError.message : ReadError → String
  | .malformed => "the text is no JSON"
  | .tooLong digits =>
    "Exceeds the limit (" ++ toString maxDigits ++ " digits) for integer string conversion: " ++
      "value has " ++ toString digits ++ " digits; " ++
      "use sys.set_int_max_str_digits() to increase the limit"
  | .tooDeep inRecord =>
    "maximum recursion depth exceeded while decoding a JSON " ++
      (if inRecord then "object" else "array") ++ " from a unicode string"

def orMalformed {α : Type} : Option α → Except ReadError α
  | some a => .ok a
  | none => .error .malformed

def isBlank (c : Char) : Bool := c == ' ' || c == '\t' || c == '\n' || c == '\r'

def skip (cs : List Char) : List Char := cs.dropWhile isBlank

/-- The rest of a text that begins with `word`. -/
def after? (word : String) (cs : List Char) : Option (List Char) :=
  if word.toList.isPrefixOf cs then some (cs.drop word.length) else none

/-! ### Texts -/

def hexValue? (c : Char) : Option Nat :=
  if '0' ≤ c && c ≤ '9' then some (c.toNat - '0'.toNat)
  else if 'a' ≤ c && c ≤ 'f' then some (c.toNat - 'a'.toNat + 10)
  else if 'A' ≤ c && c ≤ 'F' then some (c.toNat - 'A'.toNat + 10)
  else none

def unit? (a b c d : Char) : Option Nat := do
  return (← hexValue? a) * 0x1000 + (← hexValue? b) * 0x100 + (← hexValue? c) * 0x10 +
    (← hexValue? d)

def isHigh (n : Nat) : Bool := 0xD800 ≤ n && n ≤ 0xDBFF

def isLow (n : Nat) : Bool := 0xDC00 ≤ n && n ≤ 0xDFFF

def simpleEscape? (c : Char) : Option Char :=
  match c with
  | '"' => some '"'
  | '\\' => some '\\'
  | '/' => some '/'
  | 'b' => some '\x08'
  | 'f' => some '\x0c'
  | 'n' => some '\n'
  | 'r' => some '\r'
  | 't' => some '\t'
  | _ => none

def join (high low : Nat) : Nat := 0x10000 + (high - 0xD800) * 0x400 + (low - 0xDC00)

/-- The code points up to the closing quotation mark, and what follows it.  `pending` is a high
surrogate that may join the next one. -/
def codes : (pending : Option Nat) → List Char → Option (List Nat × List Char)
  | _, [] => none
  | p, '"' :: r => some (p.toList, r)
  | p, '\\' :: 'u' :: a :: b :: c :: d :: r => do
    let n ← unit? a b c d
    match p with
    | some h =>
      if isLow n then
        let (ns, r) ← codes none r
        return (join h n :: ns, r)
      else if isHigh n then
        let (ns, r) ← codes (some n) r
        return (h :: ns, r)
      else
        let (ns, r) ← codes none r
        return (h :: n :: ns, r)
    | none =>
      if isHigh n then codes (some n) r
      else
        let (ns, r) ← codes none r
        return (n :: ns, r)
  | p, '\\' :: c :: r => do
    let e ← simpleEscape? c
    let (ns, r) ← codes none r
    return (p.toList ++ e.toNat :: ns, r)
  | p, c :: r => do
    if c.toNat < 0x20 ∨ c = '\\' then none
    else
      let (ns, r) ← codes none r
      return (p.toList ++ c.toNat :: ns, r)

def textOfCodes (ns : List Nat) : Text := .ofList (ns.map Letter.ofNat)

/-- A text behind its first quotation mark, and what follows it. -/
def quotedText (cs : List Char) : Except ReadError (Text × List Char) :=
  (orMalformed (codes none cs)).map fun (ns, r) => (textOfCodes ns, r)

/-! ### Numbers -/

/-- The digits of a fraction behind its point, if there is one. -/
def fraction : List Char → List Char × List Char
  | '.' :: d :: r =>
    if d.isDigit then (d :: r.takeWhile Char.isDigit, r.dropWhile Char.isDigit)
    else ([], '.' :: d :: r)
  | r => ([], r)

/-- The exponent, if there is one. -/
def exponent (cs : List Char) : Option Int × List Char :=
  match cs with
  | [] => (none, cs)
  | e :: r =>
    if e = 'e' ∨ e = 'E' then
      let (negative, ds) := Decimal.splitSign r
      let power := ds.takeWhile Char.isDigit
      if power.isEmpty then (none, cs)
      else
        let n : Int := Decimal.natOfDigits power
        (some (if negative then -n else n), ds.dropWhile Char.isDigit)
    else (none, cs)

/-- The digits before the point: a zero, or digits that begin with another one. -/
def whole? : List Char → Option (List Char × List Char)
  | [] => none
  | c :: r =>
    if c = '0' then some (['0'], r)
    else if c.isDigit then some (c :: r.takeWhile Char.isDigit, r.dropWhile Char.isDigit)
    else none

/-- A number behind its sign. -/
def number (negative : Bool) (cs : List Char) : Except ReadError (Json × List Char) := do
  let (whole, r) ← orMalformed (whole? cs)
  let (places, r) := fraction r
  let (power, r) := exponent r
  if places.isEmpty && power.isNone then
    if maxDigits < whole.length then .error (.tooLong whole.length)
    else
      let n : Int := Decimal.natOfDigits whole
      return (.int (if negative then -n else n), r)
  else
    let x := Decimal.Numeral.toFloat ⟨whole, places, power.getD 0⟩
    return (.float (Decimal.withSign negative x), r)

/-! ### Values -/

/-- A value that has a name. -/
def named? (cs : List Char) : Option (Json × List Char) :=
  (after? "null" cs).map (.null, ·) <|>
  (after? "true" cs).map (.bool true, ·) <|>
  (after? "false" cs).map (.bool false, ·) <|>
  (after? "NaN" cs).map (.float Decimal.nan, ·) <|>
  (after? "Infinity" cs).map (.float (Decimal.infinity false), ·) <|>
  (after? "-Infinity" cs).map (.float (Decimal.infinity true), ·)

/-- A value that has no parts, except texts. -/
def atom (cs : List Char) : Except ReadError (Json × List Char) :=
  match named? cs with
  | some v => .ok v
  | none =>
    match cs with
    | '-' :: r => number true r
    | _ => number false cs

mutual

/-- One value and what follows it.  Every step into a part costs one unit of `fuel`; `room` tells
how many lists and records may still open. -/
def value : (fuel room : Nat) → List Char → Except ReadError (Json × List Char)
  | 0, _, _ => .error .malformed
  | fuel + 1, room, cs =>
    match cs, room with
    | '"' :: r, _ => (quotedText r).map fun (s, r) => (.str s, r)
    | '[' :: _, 0 => .error (.tooDeep false)
    | '[' :: r, room + 1 =>
      match skip r with
      | ']' :: r => .ok (.arr [], r)
      | r => (items fuel room r).map fun (vs, r) => (.arr vs, r)
    | '{' :: _, 0 => .error (.tooDeep true)
    | '{' :: r, room + 1 =>
      match skip r with
      | '}' :: r => .ok (.obj [], r)
      | r => (fields fuel room r).map fun (ps, r) => (.obj (Keyed.ofPairs ps), r)
    | cs, _ => atom cs

/-- The items of an array up to its closing bracket. -/
def items : (fuel room : Nat) → List Char → Except ReadError (List Json × List Char)
  | 0, _, _ => .error .malformed
  | fuel + 1, room, cs =>
    match value fuel room cs with
    | .error e => .error e
    | .ok (v, r) =>
      match skip r with
      | ']' :: r => .ok ([v], r)
      | ',' :: r => (items fuel room (skip r)).map fun (vs, r) => (v :: vs, r)
      | _ => .error .malformed

/-- The fields of an object up to its closing brace. -/
def fields : (fuel room : Nat) → List Char → Except ReadError (List (Text × Json) × List Char)
  | 0, _, _ => .error .malformed
  | fuel + 1, room, cs =>
    match cs with
    | '"' :: r =>
      match quotedText r with
      | .error e => .error e
      | .ok (key, r) =>
        match skip r with
        | ':' :: r =>
          match value fuel room (skip r) with
          | .error e => .error e
          | .ok (v, r) =>
            match skip r with
            | '}' :: r => .ok ([(key, v)], r)
            | ',' :: r => (fields fuel room (skip r)).map fun (ps, r) => ((key, v) :: ps, r)
            | _ => .error .malformed
        | _ => .error .malformed
    | _ => .error .malformed

end

/-- The value of a whole text.  Twice its length is more than the steps into its parts. -/
def ofChars (cs : List Char) : Except ReadError Json :=
  match value (2 * cs.length + 2) maxDepth (skip cs) with
  | .error e => .error e
  | .ok (v, r) => if (skip r).isEmpty then .ok v else .error .malformed

def ofText (s : String) : Except ReadError Json := ofChars s.toList

end Notebook.Json
