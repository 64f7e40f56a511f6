import Notebook.Json.Basic
import Notebook.Decimal.Shortest
import Notebook.Text.Quoted

/-!
# Writing JSON

A blank follows every comma and colon.  Everything outside printable ASCII is written by its
UTF-16 units, and a double by its shortest decimal.
-/

namespace Notebook.Json

/-- Doubles from `10 ^ -4` up to `10 ^ 16` have a plain point. -/
def numberStyle : Decimal.Style := ⟨-4, 16, "Infinity", "NaN"⟩

def escapeUnit (n : Nat) : List Char := ['\\', 'u'] ++ Text.hexDigits 4 n

/-- One letter of a text. -/
def escape : Letter → List Char
  | .half n => escapeUnit (0xD800 + n)
  | .char c =>
    if c = '"' then ['\\', '"']
    else if c = '\\' then ['\\', '\\']
    else if c = '\n' then ['\\', 'n']
    else if c = '\r' then ['\\', 'r']
    else if c = '\t' then ['\\', 't']
    else if c = '\x08' then ['\\', 'b']
    else if c = '\x0c' then ['\\', 'f']
    else if 0x20 ≤ c.toNat ∧ c.toNat < 0x7F then [c]
    else if c.toNat < 0x10000 then escapeUnit c.toNat
    else
      let n := c.toNat - 0x10000
      escapeUnit (0xD800 + n / 0x400) ++ escapeUnit (0xDC00 + n % 0x400)

def text (s : Text) : List Char := '"' :: s.toList.flatMap escape ++ ['"']

def integer (i : Int) : List Char :=
  (if i < 0 then ['-'] else []) ++ Nat.toDigits 10 i.natAbs

mutual

/-- The text of a value. -/
def render : Json → List Char
  | .null => "null".toList
  | .bool b => (if b then "true" else "false").toList
  | .int i => integer i
  | .float x => numberStyle.text x
  | .str s => text s
  | .arr items => '[' :: renderItems items ++ [']']
  | .obj fields => '{' :: renderFields fields ++ ['}']

def renderItems : List Json → List Char
  | [] => []
  | [v] => render v
  | v :: w :: r => render v ++ [',', ' '] ++ renderItems (w :: r)

def renderFields : List (Text × Json) → List Char
  | [] => []
  | [(k, v)] => text k ++ [':', ' '] ++ render v
  | (k, v) :: w :: r => text k ++ [':', ' '] ++ render v ++ [',', ' '] ++ renderFields (w :: r)

end

def toText (v : Json) : String := String.ofList (render v)

end Notebook.Json
