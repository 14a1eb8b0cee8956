import AgentHost.Json.Basic

namespace AgentHost.Json

def wordLimit : Nat := Nat.pow 2 64

def digitValue? (c : Char) : Option Nat :=
  if '0' ≤ c ∧ c ≤ '9' then some (c.toNat - 48) else none

def takeDigits : List Char → List Nat × List Char
  | [] => ([], [])
  | c :: rest =>
    match digitValue? c with
    | some d => let (ds, after) := takeDigits rest; (d :: ds, after)
    | none => ([], c :: rest)

/-- Appends digits to a significand as long as it stays below 2^64, and returns the digits that did
    not fit. -/
def absorb : Nat → List Nat → Nat × List Nat
  | significand, [] => (significand, [])
  | significand, d :: ds =>
    if 10 * significand + d < wordLimit then absorb (10 * significand + d) ds
    else (significand, d :: ds)

structure Numeral where
  negative : Bool
  whole : List Nat
  fraction : Option (List Nat)
  exponent : Option Int
deriving Repr, DecidableEq

def stopped : List Char → Fault
  | [] => .ended
  | _ => .malformed

def readFraction : List Char → Except Fault (Option (List Nat) × List Char)
  | '.' :: rest =>
    match takeDigits rest with
    | ([], after) => .error (stopped after)
    | (ds, after) => .ok (some ds, after)
  | text => .ok (none, text)

def ofDigits (ds : List Nat) : Nat := ds.foldl (fun n d => 10 * n + d) 0

def readExponentDigits (negative : Bool) (text : List Char) : Except Fault (Option Int × List Char) :=
  match takeDigits text with
  | ([], after) => .error (stopped after)
  | (ds, after) => .ok (some (if negative then -(ofDigits ds : Int) else ofDigits ds), after)

def readExponent : List Char → Except Fault (Option Int × List Char)
  | 'e' :: '-' :: rest | 'E' :: '-' :: rest => readExponentDigits true rest
  | 'e' :: '+' :: rest | 'E' :: '+' :: rest => readExponentDigits false rest
  | 'e' :: rest | 'E' :: rest => readExponentDigits false rest
  | text => .ok (none, text)

def readUnsigned (negative : Bool) (text : List Char) : Except Fault (Numeral × List Char) :=
  match takeDigits text with
  | ([], after) => .error (stopped after)
  | (0 :: _ :: _, _) => .error .malformed
  | (whole, after) => do
    let (fraction, after) ← readFraction after
    let (exponent, after) ← readExponent after
    return (⟨negative, whole, fraction, exponent⟩, after)

def readNumeral : List Char → Except Fault (Numeral × List Char)
  | '-' :: rest => readUnsigned true rest
  | text => readUnsigned false text

def shrink (x : Binary64) (places : Nat) : Binary64 :=
  match Binary64.round false (Nat.pow 10 (min places 308)) 1 with
  | none => x
  | some unit =>
    let y := (x.div unit).getD x
    if places ≤ 308 ∨ y.isZero then y else shrink y (places - 308)
termination_by places

/-- `significand * 10 ^ scale`, rounded once for the significand and once for each scaling, or
    `none` on overflow. -/
def scale (significand : Nat) (scale : Int) : Option Binary64 := do
  let x ← Binary64.round false significand 1
  if scale < 0 then return shrink x (-scale).toNat
  else if x.isZero then return x
  else if 308 < scale then none
  else x.mul (← Binary64.round false (Nat.pow 10 scale.toNat) 1)

namespace Numeral

def real? (n : Numeral) : Option Binary64 := do
  let (significand, dropped) := absorb 0 n.whole
  let (significand, unused) := absorb significand (n.fraction.getD [])
  let places := (n.fraction.getD []).length - unused.length
  let x ← scale significand (dropped.length - places + n.exponent.getD 0)
  return x.withSign n.negative

/-- The integer, if it is written as one and is in range. A negative zero is not an integer. -/
def int? (n : Numeral) : Option Int :=
  match n.fraction, n.exponent, absorb 0 n.whole with
  | none, none, (significand, []) =>
    if !n.negative then some significand
    else if 0 < significand ∧ significand ≤ Nat.pow 2 63 then some (-significand)
    else none
  | _, _, _ => none

def number? (n : Numeral) : Option Number :=
  match n.int? with
  | some value => some (.int value)
  | none => n.real?.map .real

end Numeral

def readNumber (text : List Char) : Except Fault (Number × List Char) := do
  let (numeral, rest) ← readNumeral text
  match numeral.number? with
  | some n => return (n, rest)
  | none => .error .malformed

/-- Checks only the form. Unlike in `readNumber`, a number that stops early is malformed even at the
    end of the text. -/
def skipNumber (text : List Char) : Except Fault (Unit × List Char) :=
  match readNumeral text with
  | .ok (_, rest) => .ok ((), rest)
  | .error _ => .error .malformed

end AgentHost.Json
