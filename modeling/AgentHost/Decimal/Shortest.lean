import AgentHost.Decimal.Binary64

namespace AgentHost.Decimal

structure Scaled where
  digits : Nat
  scale : Int
deriving Repr, DecidableEq

/-- The magnitude of a double and the ends of the interval that rounds to it, in quarters of its
    last place. The ends are part of the interval if `even`. -/
structure Neighbourhood where
  low : Nat
  value : Nat
  high : Nat
  even : Bool
  exponent : Int
deriving Repr, DecidableEq

def neighbourhood (x : Binary64) : Neighbourhood :=
  let s := x.significand
  let narrow := s == Nat.pow 2 52 && x.exponent != -1074
  ⟨4 * s - (if narrow then 1 else 2), 4 * s, 4 * s + 2, s % 2 == 0, x.exponent - 2⟩

def unit (scale exponent : Int) : Nat × Nat :=
  (Nat.pow 10 scale.toNat * Nat.pow 2 (-exponent).toNat,
    Nat.pow 10 (-scale).toNat * Nat.pow 2 exponent.toNat)

inductive Halfway where
  | upward
  | toEven
deriving Repr, DecidableEq

def Halfway.falls : Halfway → (below : Nat) → Bool
  | .upward, _ => false
  | .toEven, below => below % 2 == 0

def gridPoint (halfway : Halfway) (n : Neighbourhood) (scale : Int) : Option Nat :=
  let (num, den) := unit scale n.exponent
  let below := n.value * den / num
  let above := below + 1
  let reaches : Bool :=
    if n.even then n.low * den ≤ below * num else n.low * den < below * num
  let stays : Bool :=
    if n.even then above * num ≤ n.high * den else above * num < n.high * den
  let past := n.value * den - below * num
  let short := above * num - n.value * den
  let nearer : Bool := past < short || (past == short && halfway.falls below)
  match 0 < below && reaches, stays with
  | true, true => some (if nearer then below else above)
  | true, false => some below
  | false, true => some above
  | false, false => none

def coarsest (halfway : Halfway) (n : Neighbourhood) : Nat → Int → Scaled
  | 0, scale => ⟨0, scale⟩
  | fuel + 1, scale =>
    match gridPoint halfway n scale with
    | some digits => ⟨digits, scale⟩
    | none => coarsest halfway n fuel (scale - 1)

/-- The fewest digits that read back as the double, and of those the nearest to it. -/
def shortest (halfway : Halfway) (x : Binary64) : Scaled :=
  if x.isZero then ⟨0, 0⟩ else coarsest halfway (neighbourhood x) 700 309

def digitChars (n : Nat) : List Char := (Nat.toDigits 10 n)

def plain (d : Scaled) : List Char :=
  let ds := digitChars d.digits
  if 0 ≤ d.scale then ds ++ List.replicate d.scale.toNat '0'
  else
    let places := (-d.scale).toNat
    let padded := List.replicate (places + 1 - ds.length) '0' ++ ds
    padded.take (padded.length - places) ++ '.' :: padded.drop (padded.length - places)

def exponential (d : Scaled) : List Char :=
  let ds := digitChars d.digits
  let leading := d.scale + ds.length - 1
  if -5 ≤ leading ∧ leading ≤ 15 then
    if 0 ≤ d.scale then plain d ++ ['.', '0'] else plain d
  else
    let mantissa := match ds with
      | [] => []
      | [c] => [c]
      | c :: rest => c :: '.' :: rest
    mantissa ++ 'e' :: (toString leading).toList

def signed (x : Binary64) (body : List Char) : String :=
  String.ofList (if x.negative then '-' :: body else body)

def amount (x : Binary64) : String := signed x (plain (shortest .upward x))

def jsonText (x : Binary64) : String := signed x (exponential (shortest .toEven x))

end AgentHost.Decimal
