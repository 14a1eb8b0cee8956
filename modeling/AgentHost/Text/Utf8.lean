namespace AgentHost.Text.Utf8

structure Open where
  due : Nat
  low : Nat
  high : Nat
  bits : Nat
deriving Repr, DecidableEq

def lead (b : Nat) : Option Open :=
  if 0xC2 ≤ b ∧ b ≤ 0xDF then some ⟨1, 0x80, 0xBF, b - 0xC0⟩
  else if b = 0xE0 then some ⟨2, 0xA0, 0xBF, 0⟩
  else if b = 0xED then some ⟨2, 0x80, 0x9F, 0xD⟩
  else if 0xE1 ≤ b ∧ b ≤ 0xEF then some ⟨2, 0x80, 0xBF, b - 0xE0⟩
  else if b = 0xF0 then some ⟨3, 0x90, 0xBF, 0⟩
  else if 0xF1 ≤ b ∧ b ≤ 0xF3 then some ⟨3, 0x80, 0xBF, b - 0xF0⟩
  else if b = 0xF4 then some ⟨3, 0x80, 0x8F, 4⟩
  else none

/-- A decoded character, or `none` for an ill-formed stretch of bytes. -/
abbrev Piece := Option Char

def start (b : Nat) : List Piece × Option Open :=
  if b < 0x80 then ([some (Char.ofNat b)], none)
  else match lead b with
    | some o => ([], some o)
    | none => ([none], none)

def feed : Option Open → Nat → List Piece × Option Open
  | none, b => start b
  | some o, b =>
    if o.low ≤ b ∧ b ≤ o.high then
      let bits := o.bits * 64 + (b - 0x80)
      if o.due = 1 then ([some (Char.ofNat bits)], none)
      else ([], some ⟨o.due - 1, 0x80, 0xBF, bits⟩)
    else
      let (pieces, next) := start b
      (none :: pieces, next)

def finish : Option Open → List Piece
  | none => []
  | some _ => [none]

def piecesFrom : Option Open → List UInt8 → List Piece
  | o, [] => finish o
  | o, b :: rest =>
    let (pieces, next) := feed o b.toNat
    pieces ++ piecesFrom next rest

def pieces (bytes : List UInt8) : List Piece := piecesFrom none bytes

def decodeLossy (bytes : List UInt8) : String :=
  String.ofList ((pieces bytes).map (·.getD '\uFFFD'))

def decode? (bytes : List UInt8) : Option String :=
  ((pieces bytes).mapM id).map String.ofList

def encode (s : String) : List UInt8 := s.toList.flatMap String.utf8EncodeChar

end AgentHost.Text.Utf8
