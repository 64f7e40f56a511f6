/-!
# Doubles taken apart

A finite double is `mantissa · 2 ^ exponent` with a sign.  `nearest` rounds a ratio to a double, and
`toSingle` a double to single precision, which is given as a double again.  Of two equally near
neighbours the even one is taken.
-/

namespace Notebook.Decimal

-- Powers are those of the core library here, whatever is imported besides.
attribute [local instance (high)] instPowNat

inductive Parts
  | nan
  | infinite (negative : Bool)
  | finite (negative : Bool) (mantissa : Nat) (exponent : Int)
  deriving DecidableEq, Repr

def parts (x : Float) : Parts :=
  let b := x.toBits.toNat
  let negative := 2 ^ (63 : Nat) ≤ b
  let e : Nat := b / 2 ^ (52 : Nat) % 2 ^ (11 : Nat)
  let f : Nat := b % 2 ^ (52 : Nat)
  if e = 2047 then if f = 0 then .infinite negative else .nan
  else if e = 0 then .finite negative f (-1074)
  else .finite negative (f + 2 ^ (52 : Nat)) ((e : Int) - 1075)

def nan : Float := Float.ofBits 0x7FF8000000000000

def infinity (negative : Bool) : Float :=
  Float.ofBits (if negative then 0xFFF0000000000000 else 0x7FF0000000000000)

def isFinite (x : Float) : Bool :=
  match parts x with
  | .finite .. => true
  | _ => false

/-- `mantissa · 2 ^ exponent`, for a mantissa of at most 53 bits and a value that is no smaller
than the smallest normal double and no larger than the largest. -/
def assemble (negative : Bool) (mantissa : Nat) (exponent : Int) : Float :=
  let sign := if negative then 2 ^ (63 : Nat) else 0
  if mantissa = 0 then Float.ofBits (UInt64.ofNat sign) else
    let top := mantissa.log2
    let biased := (exponent + top + 1023).toNat
    Float.ofBits (UInt64.ofNat
      (sign + biased * 2 ^ (52 : Nat) + (mantissa * 2 ^ (52 - top) - 2 ^ (52 : Nat))))

/-- The whole number next to `n / d`; of two equally near the even one. -/
def divEven (n d : Nat) : Nat :=
  let q := n / d
  let r := n % d
  if 2 * r < d then q
  else if d < 2 * r then q + 1
  else if q % 2 = 0 then q else q + 1

/-! ### Rounding -/

/-- The weight of the highest bit of the positive number `num / den`, as a power of two. -/
def topBit (num den : Nat) : Int :=
  let k : Int := num.log2 - den.log2
  if den * 2 ^ k.toNat ≤ num * 2 ^ (-k).toNat then k else k - 1

/-- The exponent of the last place that a double keeps of a value whose highest bit has weight
`2 ^ top`. -/
def doublePlace (top : Int) : Int := max (top - 52) (-1074)

/-- The double next to the positive number `num / den`; beyond the largest one that is infinity.
Mantissa and exponent stand side by side in the bits of a double, so a mantissa that is rounded up
to the next power of two runs over into the exponent. -/
def nearest (num den : Nat) : Float :=
  let place := doublePlace (topBit num den)
  let n := divEven (num * 2 ^ (-place).toNat) (den * 2 ^ place.toNat)
  Float.ofBits (UInt64.ofNat
    (min ((place + 1074).toNat * 2 ^ (52 : Nat) + n) (2047 * 2 ^ (52 : Nat))))

/-- The exponent of the last place that a single keeps of a value whose highest bit has weight
`2 ^ top`. -/
def singlePlace (top : Int) : Int := max (top - 23) (-149)

/-- Rounded to single precision. -/
def toSingle (x : Float) : Float :=
  match parts x with
  | .nan => nan
  | .infinite negative => infinity negative
  | .finite negative m e =>
    let place := singlePlace (e + m.log2)
    if place ≤ e then x
    else
      let n := divEven m (2 ^ (place - e).toNat)
      if 104 < place ∨ (place = 104 ∧ 2 ^ (24 : Nat) ≤ n) then infinity negative
      else assemble negative n place

/-! ### Whole and fractional part -/

/-- The whole part, toward zero; zero for what is no finite number. -/
def wholePart (x : Float) : Int :=
  match parts x with
  | .finite negative m e =>
    let n : Int := if 0 ≤ e then m * 2 ^ e.toNat else m / 2 ^ (-e).toNat
    if negative then -n else n
  | _ => 0

/-- The largest whole number that is not above. -/
def floor (x : Float) : Int :=
  match parts x with
  | .finite negative m e =>
    if 0 ≤ e then (if negative then -1 else 1) * (m * 2 ^ e.toNat)
    else Int.fdiv ((if negative then -1 else 1) * m) (2 ^ (-e).toNat)
  | _ => 0

/-- Is it a finite number without a fractional part? -/
def isWhole (x : Float) : Bool :=
  match parts x with
  | .finite _ m e => 0 ≤ e || m % 2 ^ (-e).toNat == 0
  | _ => false

/-- What is left of the size of a number without its whole part; places beyond the range of
normal doubles are dropped. -/
def fractionPart (x : Float) : Float :=
  match parts x with
  | .finite _ m e =>
    if 0 ≤ e then assemble false 0 0
    else
      let r := m % 2 ^ (-e).toNat
      if (r.log2 : Int) + e < -1022 then assemble false 0 0 else assemble false r e
  | _ => assemble false 0 0

/-- The nearest whole number, ties to the even one. -/
def roundEven (x : Float) : Int :=
  match parts x with
  | .finite negative m e =>
    let n : Int := if 0 ≤ e then m * 2 ^ e.toNat else divEven m (2 ^ (-e).toNat)
    if negative then -n else n
  | _ => 0

/-- The nearest whole number, ties away from zero. -/
def roundAway (x : Float) : Int :=
  match parts x with
  | .finite negative m e =>
    let n : Int := if 0 ≤ e then m * 2 ^ e.toNat
      else (2 * m + 2 ^ (-e).toNat) / (2 * 2 ^ (-e).toNat)
    if negative then -n else n
  | _ => 0

end Notebook.Decimal
