import Bindery.Number.Binary64

/-!
# The shortest text of a double

A double is written with the fewest digits that read back as the same double; of two such numbers
the nearer is taken, and of two equally near the even one.

* `Magnitude.shortest`: these digits as an integer and a decimal exponent.
* `FloatStyle`: where positional notation begins and ends.
* `Binary64.text`: the text, always with a point or an exponent.
-/

namespace Bindery.Number

/-- A positive number as a quotient. -/
structure Ratio where
  num : Nat
  den : Nat

/-- Whether one quotient is below another. -/
def Ratio.lt (a b : Ratio) : Bool :=
  a.num * b.den < b.num * a.den

/-- An integer times a power of a base, as a quotient. -/
def Ratio.scaled (n base : Nat) (exp : Int) : Ratio :=
  ⟨timesPower n base exp, timesPower 1 base (-exp)⟩

namespace Magnitude

/-- The value in units of a quarter of the last place, as a quotient. -/
def quarters (a : Magnitude) (n : Nat) : Ratio :=
  Ratio.scaled n 2 (a.exp - 2)

/-- Where the numbers begin that round to this double. -/
def lower (a : Magnitude) : Ratio :=
  if a.coeff = leastFull ∧ minExp < a.exp then a.quarters (4 * a.coeff - 1)
  else a.quarters (4 * a.coeff - 2)

/-- Where the numbers end that round to this double. -/
def upper (a : Magnitude) : Ratio :=
  a.quarters (4 * a.coeff + 2)

/-- Whether a quotient rounds to this double. The two ends do if the coefficient is even. -/
def readsFrom (a : Magnitude) (r : Ratio) : Bool :=
  if a.coeff % 2 = 0 then !r.lt a.lower && !a.upper.lt r else a.lower.lt r && r.lt a.upper

/-- The largest power of ten that is not above a quotient, found from a guess above it. -/
def floorLog (r : Ratio) : Nat → Int → Int
  | 0, t => t
  | tries + 1, t => if r.lt (Ratio.scaled 1 10 t) then floorLog r tries (t - 1) else t

/-- The largest power of ten that is not above a positive double. -/
def decimalExponent (a : Magnitude) : Int :=
  let r := a.quarters (4 * a.coeff)
  let bits : Int := (r.num.log2 : Int) - (r.den.log2 : Int)
  floorLog r 8 (bits * 30103 / 100000 + 3)

/-- A number on a decimal grid that reads back as this double, if there is one. -/
def onGrid (a : Magnitude) (exp : Int) : Option Nat :=
  let value := a.quarters (4 * a.coeff)
  let unit := Ratio.scaled 1 10 exp
  let below := value.num * unit.den / (value.den * unit.num)
  let rest := value.num * unit.den % (value.den * unit.num)
  let lowFits := 0 < below && a.readsFrom (Ratio.scaled below 10 exp)
  let highFits := a.readsFrom (Ratio.scaled (below + 1) 10 exp)
  let half := value.den * unit.num
  match lowFits, highFits with
  | false, false => none
  | true, false => some below
  | false, true => some (below + 1)
  | true, true =>
    if half < 2 * rest ∨ (2 * rest = half ∧ below % 2 = 1) then some (below + 1) else some below

/-- The first grid, from the coarsest on, with a number that reads back. -/
def firstGrid (a : Magnitude) : Nat → Int → Nat × Int
  | 0, exp => ((a.onGrid exp).getD 0, exp)
  | more + 1, exp =>
    match a.onGrid exp with
    | some digits => (digits, exp)
    | none => firstGrid a more (exp - 1)

/-- The fewest digits that read back as a positive double, with their decimal exponent. -/
def shortest (a : Magnitude) : Nat × Int :=
  firstGrid a 17 a.decimalExponent

end Magnitude

/-- Digits without the zeros at their end, which move into the exponent. -/
def trimZeros : Nat → Nat × Int → Nat × Int
  | 0, d => d
  | more + 1, (digits, exp) =>
    if digits ≠ 0 ∧ digits % 10 = 0 then trimZeros more (digits / 10, exp + 1) else (digits, exp)

/-- Where positional notation begins and ends, as powers of ten; the upper end is excluded. -/
structure FloatStyle where
  low : Int
  high : Int

/-- Numbers of the description are written positionally from 1e-5 on and below 1e16. -/
def FloatStyle.description : FloatStyle := ⟨-5, 16⟩

/-- The decimal digits of a natural number. -/
def decimal (n : Nat) : List Char :=
  Nat.toDigits 10 n

/-- Digits and a decimal exponent in positional notation, with at least one digit on each side of
the point. -/
def positional (digits : List Char) (exp : Int) : List Char :=
  let point := (digits.length : Int) + exp
  if 0 ≤ exp then digits ++ List.replicate exp.toNat '0' ++ ['.', '0']
  else if 0 < point then digits.take point.toNat ++ ['.'] ++ digits.drop point.toNat
  else ['0', '.'] ++ List.replicate (-point).toNat '0' ++ digits

/-- Digits and a decimal exponent with one digit before the point and a signed exponent. -/
def exponential (digits : List Char) (exp : Int) : List Char :=
  let power := (digits.length : Int) + exp - 1
  let mantissa :=
    match digits with
    | [] => []
    | [d] => [d]
    | d :: ds => d :: '.' :: ds
  mantissa ++ ['e', if power < 0 then '-' else '+'] ++ decimal power.natAbs

/-- The text of a non-negative double. -/
def Magnitude.text (style : FloatStyle) (a : Magnitude) : List Char :=
  if a.coeff = 0 then ['0', '.', '0']
  else
    let (n, exp) := trimZeros 17 a.shortest
    let digits := decimal n
    let power := (digits.length : Int) + exp - 1
    if style.low ≤ power ∧ power < style.high then positional digits exp
    else exponential digits exp

/-- The text of a finite double. -/
def Binary64.text (x : Binary64) : String :=
  String.ofList ((if x.negative then ['-'] else []) ++ x.magnitude.text FloatStyle.description)

end Bindery.Number
