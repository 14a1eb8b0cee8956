namespace AgentHost.Text.Hex

def digit (n : Nat) : Char := if n < 10 then Char.ofNat (48 + n) else Char.ofNat (87 + n)

def value? (c : Char) : Option Nat :=
  if '0' ≤ c ∧ c ≤ '9' then some (c.toNat - 48)
  else if 'a' ≤ c ∧ c ≤ 'f' then some (c.toNat - 87)
  else if 'A' ≤ c ∧ c ≤ 'F' then some (c.toNat - 55)
  else none

def digits : Nat → Nat → List Char
  | 0, _ => []
  | width + 1, n => digits width (n / 16) ++ [digit (n % 16)]

def ofBytes (bytes : List UInt8) : String := String.ofList (bytes.flatMap fun b => digits 2 b.toNat)

def pairs? : List Char → Option (List UInt8)
  | [] => some []
  | [_] => none
  | high :: low :: rest => do
    let h ← value? high
    let l ← value? low
    let bytes ← pairs? rest
    return UInt8.ofNat (16 * h + l) :: bytes

def toBytes? (s : String) : Option (List UInt8) := pairs? s.toList

theorem value?_digit {n : Nat} (small : n < 16) : value? (digit n) = some n := by
  have all : ∀ n : Fin 16, value? (digit n) = some n.val := by decide
  exact all ⟨n, small⟩

theorem pairs?_digits (byte : UInt8) (rest : List Char) : pairs? (digits 2 byte.toNat ++ rest) =
    (pairs? rest).map (byte :: ·) := by
  have high := value?_digit (Nat.mod_lt (byte.toNat / 16) (by decide : 0 < 16))
  have low := value?_digit (Nat.mod_lt byte.toNat (by decide : 0 < 16))
  have bound := byte.toNat_lt
  have whole : 16 * (byte.toNat / 16 % 16) + byte.toNat % 16 = byte.toNat := by omega
  simp only [digits, List.nil_append, List.cons_append, pairs?, high, low, bind, Option.bind]
  rw [whole, UInt8.ofNat_toNat]
  cases pairs? rest <;> rfl

/-- Bytes are read back from their digits. -/
theorem toBytes?_ofBytes (bytes : List UInt8) : toBytes? (ofBytes bytes) = some bytes := by
  rw [toBytes?, ofBytes, String.toList_ofList]
  induction bytes with
  | nil => rfl
  | cons byte rest ih =>
    rw [List.flatMap_cons, pairs?_digits, ih]
    rfl

theorem ofBytes_injective : Function.Injective ofBytes := by
  intro bytes others same
  have read := congrArg toBytes? same
  rw [toBytes?_ofBytes, toBytes?_ofBytes] at read
  exact Option.some.inj read

end AgentHost.Text.Hex
