namespace AgentHost

abbrev Binary64.magnitudes : Nat := 2047 * Nat.pow 2 52

/-- A finite double: its sign, and the rank of its magnitude among all magnitudes in increasing
    order. -/
structure Binary64 where
  negative : Bool
  rank : Fin Binary64.magnitudes
deriving DecidableEq

namespace Binary64

def zero (negative : Bool) : Binary64 := ⟨negative, ⟨0, by decide⟩⟩

def isZero (x : Binary64) : Bool := x.rank.val == 0

def significand (x : Binary64) : Nat :=
  if x.rank.val < Nat.pow 2 52 then x.rank.val else Nat.pow 2 52 + x.rank.val % Nat.pow 2 52

def exponent (x : Binary64) : Int :=
  if x.rank.val < Nat.pow 2 52 then -1074 else ((x.rank.val / Nat.pow 2 52 : Nat) : Int) - 1075

def bits (x : Binary64) : Nat := x.rank.val + if x.negative then Nat.pow 2 63 else 0

def magnitude (x : Binary64) : Nat × Nat :=
  if 0 ≤ x.exponent then (x.significand * Nat.pow 2 x.exponent.toNat, 1)
  else (x.significand, Nat.pow 2 (-x.exponent).toNat)

def withSign (x : Binary64) (negative : Bool) : Binary64 := { x with negative }

def scaled (num den : Nat) (e : Int) : Nat × Nat :=
  if 0 ≤ e then (num, den * Nat.pow 2 e.toNat) else (num * Nat.pow 2 (-e).toNat, den)

def exponentFor (num den : Nat) : Int :=
  let guess := (Nat.log2 num : Int) - Nat.log2 den - 52
  let (n, d) := scaled num den guess
  max (if n / d < Nat.pow 2 52 then guess - 1 else guess) (-1074)

def divNearest (num den : Nat) : Nat :=
  let q := num / den
  let r := num % den
  if den < 2 * r ∨ (den = 2 * r ∧ q % 2 = 1) then q + 1 else q

def round (negative : Bool) (num den : Nat) : Option Binary64 :=
  if num = 0 then some (zero negative)
  else
    let e := exponentFor num den
    let (n, d) := scaled num den e
    let place := (e + 1074).toNat * Nat.pow 2 52 + divNearest n d
    if h : place < magnitudes then some ⟨negative, ⟨place, h⟩⟩ else none

def mul (x y : Binary64) : Option Binary64 :=
  let (a, b) := x.magnitude
  let (c, d) := y.magnitude
  round (x.negative != y.negative) (a * c) (b * d)

def div (x y : Binary64) : Option Binary64 :=
  let (a, b) := x.magnitude
  let (c, d) := y.magnitude
  round (x.negative != y.negative) (a * d) (b * c)

def ofInt (n : Int) : Option Binary64 := round (n < 0) n.natAbs 1

end Binary64

end AgentHost
