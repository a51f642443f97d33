/-! # Decimal numbers

A decimal number is given by its digits and a power of ten. Such a number
may be compared with a bound although its exponent is too large for the
power to be written out. -/

namespace MemberOrder.Toml

/-- The number `digits · 10 ^ exponent`. -/
structure Decimal where
  digits : Nat
  exponent : Int
deriving DecidableEq, Repr

namespace Decimal

/-- Whether a number is at least a bound. The powers of ten stop growing
where they have decided the comparison. -/
def reaches (bound : Nat) (d : Decimal) : Bool :=
  bound * Nat.pow 10 (min (-d.exponent).toNat (d.digits.log2 + 1)) ≤
    d.digits * Nat.pow 10 (min d.exponent.toNat (bound.log2 + 1))

/-- The numbers below this bound lie nearest to a finite number of 64 bits.
It stands half way between the largest of them, `2 ^ 1024 - 2 ^ 971`, and
`2 ^ 1024`, and half way is too far. -/
def finiteBound : Nat := Nat.pow 2 1024 - Nat.pow 2 970

/-- Whether a number can be held in 64 bits. -/
def isFinite (d : Decimal) : Bool := !d.reaches finiteBound

end Decimal
end MemberOrder.Toml
