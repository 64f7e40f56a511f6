/-!
# Text in bytes and in lines

`decode` reads a text from its bytes in UTF-8.  Bytes that are no text are told apart by where the
fault lies: inside, or at the very end, where a character has begun and its rest is missing.
Bytes are taken in blocks, and of a block with a fault inside nothing is read.

A line ends with a line feed, a carriage return, or the two together.
-/

namespace Notebook.Text

/-- How the bytes of a text ended. -/
inductive Ending
  | complete
  | cutShort
  | broken
  deriving DecidableEq, Repr

/-- A text read from bytes: what could be read, and how the bytes ended. -/
structure Decoded where
  text : List Char
  ending : Ending
  deriving DecidableEq

/-- What the first byte of a character asks for: the bits it gives, how many bytes follow, and
the range of the next one. -/
def leadByte? (b : UInt8) : Option (Nat × Nat × Nat × Nat) :=
  let n := b.toNat
  if n < 0x80 then some (n, 0, 0, 0)
  else if n < 0xC2 then none
  else if n < 0xE0 then some (n - 0xC0, 1, 0x80, 0xBF)
  else if n = 0xE0 then some (0, 2, 0xA0, 0xBF)
  else if n = 0xED then some (0xD, 2, 0x80, 0x9F)
  else if n < 0xF0 then some (n - 0xE0, 2, 0x80, 0xBF)
  else if n = 0xF0 then some (0, 3, 0x90, 0xBF)
  else if n < 0xF4 then some (n - 0xF0, 3, 0x80, 0xBF)
  else if n = 0xF4 then some (4, 3, 0x80, 0x8F)
  else none

/-- What comes of reading bytes up to the first that does not fit, and how many are left then. -/
structure Scan where
  text : List Char
  ending : Ending
  left : Nat

def Scan.cons (c : Char) (r : Scan) : Scan := { r with text := c :: r.text }

/-- Read on inside a character: `bits` so far, `missing` bytes to come, the next one between `low`
and `high`. -/
def scanFrom (bits missing low high : Nat) : List UInt8 → Scan
  | [] => ⟨[], if missing = 0 then .complete else .cutShort, 0⟩
  | b :: bs =>
    if missing = 0 then
      match leadByte? b with
      | none => ⟨[], .broken, bs.length + 1⟩
      | some (n, 0, _, _) => (scanFrom 0 0 0 0 bs).cons (Char.ofNat n)
      | some (n, k + 1, lo, hi) => scanFrom n (k + 1) lo hi bs
    else if low ≤ b.toNat ∧ b.toNat ≤ high then
      let n := bits * 64 + (b.toNat - 0x80)
      if missing = 1 then (scanFrom 0 0 0 0 bs).cons (Char.ofNat n)
      else scanFrom n (missing - 1) 0x80 0xBF bs
    else ⟨[], .broken, bs.length + 1⟩

def scan (bytes : List UInt8) : Scan := scanFrom 0 0 0 0 bytes

/-- The number of bytes in a block. -/
def blockSize : Nat := 8192

/-- The text of the bytes. -/
def decode (bytes : List UInt8) : Decoded :=
  let r := scan bytes
  if r.ending = .broken then
    ⟨(scan (bytes.take ((bytes.length - r.left) / blockSize * blockSize))).text, .broken⟩
  else ⟨r.text, r.ending⟩

@[simp] theorem decode_nil : decode [] = ⟨[], .complete⟩ := rfl

/-- A text in bytes that could be read to the end. -/
def Decoded.ofString (s : String) : Decoded := ⟨s.toList, .complete⟩

/-! ### Lines -/

/-- The lines that have come to their end, and what stands behind the last of them.  `returned`
tells whether the last character was a carriage return. -/
def linesFrom (returned : Bool) : List Char → List (List Char) × List Char
  | [] => ([], [])
  | c :: r =>
    if c = '\n' ∧ returned then linesFrom false r
    else
      let (ls, rest) := linesFrom (c = '\r') r
      if c = '\n' ∨ c = '\r' then ([] :: ls, rest)
      else
        match ls with
        | [] => ([], c :: rest)
        | l :: ls => ((c :: l) :: ls, rest)

def lines (cs : List Char) : List (List Char) × List Char := linesFrom false cs

@[simp] theorem lines_nil : lines [] = ([], []) := rfl

/-- The lines of a text that breaks off.  A carriage return at its end ends no line, as a line feed
may have come behind it. -/
def settledLines (cs : List Char) : List (List Char) :=
  (lines (if cs.getLast? = some '\r' then cs.dropLast else cs)).1

/-- All lines; the last one need not come to an end. -/
def allLines (cs : List Char) : List (List Char) :=
  let (ls, rest) := lines cs
  if rest.isEmpty then ls else ls ++ [rest]

end Notebook.Text
