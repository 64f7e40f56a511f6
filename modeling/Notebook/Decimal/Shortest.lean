import Notebook.Decimal.Binary

/-!
# The shortest decimal of a double

Of all decimals that are read back as a given double the one with the fewest digits is written,
and of those the nearest.  A grid of `k` digits holds such a decimal only if one of the two
neighbours of the double on it is one, so it is enough to look at these, from one digit to
seventeen.
-/

namespace Notebook.Decimal

-- Powers are those of the core library here, whatever is imported besides.
attribute [local instance (high)] instPowNat

/-- A positive number `num / den`. -/
structure Ratio where
  num : Nat
  den : Nat
  deriving DecidableEq, Repr

/-- `n · 2 ^ e` as a ratio. -/
def Ratio.ofBinary (n : Nat) (e : Int) : Ratio :=
  if 0 ≤ e then ⟨n * 2 ^ e.toNat, 1⟩ else ⟨n, 2 ^ (-e).toNat⟩

/-- The quotient by `10 ^ e`. -/
def Ratio.scaled (r : Ratio) (e : Int) : Ratio :=
  if 0 ≤ e then ⟨r.num, r.den * 10 ^ e.toNat⟩ else ⟨r.num * 10 ^ (-e).toNat, r.den⟩

/-- The power of ten of the first digit, for a ratio that is no smaller than `10 ^ -k`. -/
def Ratio.magnitudeFrom (k : Nat) (r : Ratio) : Int :=
  ((Nat.toDigits 10 (r.num * 10 ^ k / r.den)).length : Int) - (k + 1)

/-- The same for any ratio that is written as a double. -/
def Ratio.magnitude (r : Ratio) : Int := r.magnitudeFrom 340

/-- The numbers that round to `m · 2 ^ e`, on a scale four times as fine: the lower end, the upper
end, and whether the ends are among them. -/
def interval (m : Nat) (e : Int) : Nat × Nat × Bool :=
  (4 * m - (if m = 2 ^ (52 : Nat) ∧ -1074 < e then 1 else 2), 4 * m + 2, m % 2 = 0)

/-- Is `c · 10 ^ place` one of the numbers that round to `m · 2 ^ e`? -/
def roundsTo (m : Nat) (e : Int) (c : Nat) (place : Int) : Bool :=
  let (low, high, ends) := interval m e
  let l := (Ratio.ofBinary low (e - 2)).scaled place
  let h := (Ratio.ofBinary high (e - 2)).scaled place
  (if ends then l.num ≤ c * l.den else l.num < c * l.den) &&
    (if ends then c * h.den ≤ h.num else c * h.den < h.num)

/-- The nearer neighbour of the ratio among whole numbers first, the other one second. -/
def neighbours (r : Ratio) : Nat × Nat :=
  let q := r.num / r.den
  let rest := 2 * (r.num % r.den)
  if rest < r.den ∨ (rest = r.den ∧ q % 2 = 0) then (q, q + 1) else (q + 1, q)

/-- A decimal of `m · 2 ^ e` whose last digit is at `place`. -/
def decimalAt? (m : Nat) (e : Int) (place : Int) : Option (Nat × Int) :=
  let (near, far) := neighbours ((Ratio.ofBinary m e).scaled place)
  if roundsTo m e near place then some (near, place)
  else if roundsTo m e far place then some (far, place)
  else none

/-- The shortest decimal `c · 10 ^ place` of `m · 2 ^ e`, for `m` not zero. -/
def shortest (m : Nat) (e : Int) : Nat × Int :=
  let top := (Ratio.ofBinary m e).magnitude
  ((List.range 17).findSome? fun (k : Nat) => decimalAt? m e (top - k)).getD
    ((neighbours ((Ratio.ofBinary m e).scaled (top - 16))).1, top - 16)

/-! ### Writing -/

/-- How a double is written: the powers of ten for which it is written with a plain point, and the
names of what is no finite number. -/
structure Style where
  firstPlain : Int
  firstScientific : Int
  infinity : String
  nan : String

def zeros (n : Nat) : List Char := List.replicate n '0'

/-- Digits with a point behind the first `whole` of them, filled up with zeros. -/
def pointed (ds : List Char) (whole : Int) : List Char :=
  if whole ≤ 0 then '0' :: '.' :: zeros (-whole).toNat ++ ds
  else if ds.length ≤ whole.toNat then ds ++ zeros (whole.toNat - ds.length) ++ ['.', '0']
  else ds.take whole.toNat ++ '.' :: ds.drop whole.toNat

/-- One digit before the point, and the power of ten in at least two digits. -/
def scientific (ds : List Char) (power : Int) : List Char :=
  let mantissa := match ds with
    | [] => ['0']
    | [d] => [d]
    | d :: r => d :: '.' :: r
  let p := Nat.toDigits 10 power.natAbs
  mantissa ++ ['e', if power < 0 then '-' else '+'] ++ (if p.length < 2 then '0' :: p else p)

namespace Style

def digits (s : Style) (c : Nat) (place : Int) : List Char :=
  let all := Nat.toDigits 10 c
  let power := place + all.length - 1
  let ds := (all.reverse.dropWhile (· == '0')).reverse
  if s.firstPlain ≤ power ∧ power < s.firstScientific then pointed ds (power + 1)
  else scientific ds power

/-- The text of a double. -/
def text (s : Style) (x : Float) : List Char :=
  match parts x with
  | .nan => s.nan.toList
  | .infinite negative => (if negative then ['-'] else []) ++ s.infinity.toList
  | .finite negative m e =>
    (if negative then ['-'] else []) ++
      if m = 0 then ['0', '.', '0'] else let (c, place) := shortest m e; s.digits c place

end Style

end Notebook.Decimal
