/-!
# Doubles

Finite numbers of the binary64 format, kept as an integer coefficient times a power of two, so that
rounding is a statement about natural numbers.

* `roundDiv`: a quotient rounded to the nearest integer, ties to even.
* `Magnitude.nearest`: the double nearest to a quotient, if it is not too large for the format.
* `Magnitude.mul`, `Magnitude.div`: correctly rounded product and quotient.
* `Magnitude.ofScaled`: the double read from digits and a decimal exponent.
-/

namespace Bindery.Number

/-- A non-negative double: `coeff` times two to the power `exp`. -/
structure Magnitude where
  coeff : Nat
  exp : Int
deriving DecidableEq, Repr, Inhabited

/-- A finite double. Zero has two signs. -/
structure Binary64 where
  negative : Bool
  magnitude : Magnitude
deriving DecidableEq, Repr, Inhabited

/-- A natural number times a power of a base. A negative power counts as none. -/
def timesPower (n base : Nat) (power : Int) : Nat :=
  n * Nat.pow base power.toNat

/-- The quotient rounded to the nearest integer; halfway it goes to the even neighbour. -/
def roundDiv (num den : Nat) : Nat :=
  let q := num / den
  let r := num % den
  if den < 2 * r ∨ (2 * r = den ∧ q % 2 = 1) then q + 1 else q

namespace Magnitude

/-- The exponent of the smallest double. -/
def minExp : Int := -1074

/-- The exponent of the largest doubles. -/
def maxExp : Int := 971

/-- The least coefficient with 53 binary digits. -/
def leastFull : Nat := 0x10000000000000

/-- Zero. -/
def zero : Magnitude := ⟨0, minExp⟩

/-- A positive quotient in units of two to the power `exp`, rounded. -/
def roundAt (num den : Nat) (exp : Int) : Nat :=
  roundDiv (timesPower num 2 (-exp)) (timesPower den 2 exp)

/-- The unit in which a positive quotient has 53 binary digits, or the smallest unit there is. -/
def unitOf (num den : Nat) : Int :=
  let guess : Int := (num.log2 : Int) - (den.log2 : Int) - 52
  let fits := leastFull * timesPower den 2 guess ≤ timesPower num 2 (-guess)
  max (if fits then guess else guess - 1) minExp

/-- The double nearest to a quotient, ties to even; none if the quotient is out of range. -/
def nearest (num den : Nat) : Option Magnitude :=
  if num = 0 then some zero
  else
    let exp := unitOf num den
    let coeff := roundAt num den exp
    let result : Magnitude := if coeff = 2 * leastFull then ⟨leastFull, exp + 1⟩ else ⟨coeff, exp⟩
    if maxExp < result.exp then none else some result

/-- The product of two doubles, rounded. -/
def mul (a b : Magnitude) : Option Magnitude :=
  let exp := a.exp + b.exp
  nearest (timesPower (a.coeff * b.coeff) 2 exp) (timesPower 1 2 (-exp))

/-- The quotient of two doubles, rounded. -/
def div (a b : Magnitude) : Option Magnitude :=
  let exp := a.exp - b.exp
  nearest (timesPower a.coeff 2 exp) (timesPower b.coeff 2 (-exp))

/-- The largest power of ten that is a double. -/
def maxPower : Nat := 308

/-- A power of ten as a double. -/
def tenTo (n : Nat) : Magnitude :=
  (nearest (timesPower 1 10 n) 1).getD zero

/-- A double divided several times by the largest power of ten, until nothing is left of it. -/
def divideOften (a : Magnitude) : Nat → Option Magnitude
  | 0 => some a
  | times + 1 =>
    if a.coeff = 0 then some a
    else
      match a.div (tenTo maxPower) with
      | some b => divideOften b times
      | none => none

/-- A double divided by a power of ten, in steps of at most `maxPower` powers. -/
def scaleDown (a : Magnitude) (n : Nat) : Option Magnitude :=
  match a.divideOften (n / maxPower) with
  | some b => b.div (tenTo (n % maxPower))
  | none => none

/-- A double multiplied by a power of ten. Past `maxPower` only zero is in range. -/
def scaleUp (a : Magnitude) (n : Nat) : Option Magnitude :=
  if n ≤ maxPower then a.mul (tenTo n)
  else if a.coeff = 0 then some a
  else none

/-- The double read from digits and a decimal exponent: the digits are rounded to a double first,
which is then multiplied or divided by a power of ten. -/
def ofScaled (digits : Nat) (exponent : Int) : Option Magnitude :=
  match nearest digits 1 with
  | none => none
  | some a => if 0 ≤ exponent then a.scaleUp exponent.toNat else a.scaleDown (-exponent).toNat

end Magnitude

end Bindery.Number
