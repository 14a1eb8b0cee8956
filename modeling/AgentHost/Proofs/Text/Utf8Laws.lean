import AgentHost.Text.LineBuffer

namespace AgentHost.Text.Utf8

section Lead

variable {b d : Nat}

theorem lead_two (low : 2 ≤ b) (high : b < 32) : lead (b + 192) = some ⟨1, 0x80, 0xBF, b⟩ := by
  rw [lead, if_pos (by omega), Nat.add_sub_cancel]

/-- The second byte is restricted so as to exclude overlong forms and surrogates. -/
theorem lead_three (high : b < 16) (small : d < 64) (shortest : b = 0 → 32 ≤ d)
    (scalar : b = 13 → d < 32) :
    ∃ least most, lead (b + 224) = some ⟨2, least, most, b⟩ ∧
      least ≤ d + 128 ∧ d + 128 ≤ most := by
  rw [lead, if_neg (by omega)]
  by_cases first : b = 0
  · have bound := shortest first
    subst first
    exact ⟨0xA0, 0xBF, rfl, by omega⟩
  · rw [if_neg (by omega)]
    by_cases surrogates : b = 13
    · have bound := scalar surrogates
      subst surrogates
      exact ⟨0x80, 0x9F, rfl, by omega⟩
    · rw [if_neg (by omega), if_pos (by omega), Nat.add_sub_cancel]
      exact ⟨0x80, 0xBF, rfl, by omega⟩

theorem lead_four (high : b < 5) (small : d < 64) (shortest : b = 0 → 16 ≤ d)
    (inside : b = 4 → d < 16) :
    ∃ least most, lead (b + 240) = some ⟨3, least, most, b⟩ ∧
      least ≤ d + 128 ∧ d + 128 ≤ most := by
  rw [lead, if_neg (by omega), if_neg (by omega), if_neg (by omega), if_neg (by omega)]
  by_cases first : b = 0
  · have bound := shortest first
    subst first
    exact ⟨0x90, 0xBF, rfl, by omega⟩
  · rw [if_neg (by omega)]
    by_cases last : b = 4
    · have bound := inside last
      subst last
      exact ⟨0x80, 0x8F, rfl, by omega⟩
    · rw [if_pos (by omega), Nat.add_sub_cancel]
      exact ⟨0x80, 0xBF, rfl, by omega⟩

end Lead

section Pieces

variable {n digit : Nat} {rest : List UInt8}

theorem toNat_ofNat (byte : n < 256) : (UInt8.ofNat n).toNat = n := by
  rw [UInt8.toNat_ofNat']
  omega

theorem piecesFrom_ascii (small : n < 128) :
    piecesFrom none (UInt8.ofNat n :: rest) = some (Char.ofNat n) :: piecesFrom none rest := by
  rw [piecesFrom, toNat_ofNat (by omega), feed, start, if_pos small]
  rfl

theorem piecesFrom_lead {o : Open} (opens : lead n = some o) (large : 128 ≤ n) (byte : n < 256) :
    piecesFrom none (UInt8.ofNat n :: rest) = piecesFrom (some o) rest := by
  rw [piecesFrom, toNat_ofNat byte, feed, start, if_neg (by omega), opens]
  rfl

theorem piecesFrom_more {due least most bits : Nat} (small : digit < 64)
    (inside : least ≤ digit + 128 ∧ digit + 128 ≤ most) :
    piecesFrom (some ⟨due + 2, least, most, bits⟩) (UInt8.ofNat (digit + 128) :: rest) =
      piecesFrom (some ⟨due + 1, 0x80, 0xBF, bits * 64 + digit⟩) rest := by
  have more : ¬ due + 2 = 1 := by omega
  rw [piecesFrom, toNat_ofNat (by omega), feed, if_pos inside]
  dsimp only
  rw [if_neg more, Nat.add_sub_cancel]
  rfl

theorem piecesFrom_last {bits : Nat} (small : digit < 64) :
    piecesFrom (some ⟨1, 0x80, 0xBF, bits⟩) (UInt8.ofNat (digit + 128) :: rest) =
      some (Char.ofNat (bits * 64 + digit)) :: piecesFrom none rest := by
  rw [piecesFrom, toNat_ofNat (by omega), feed, if_pos (by dsimp only; omega)]
  dsimp only
  rw [if_pos rfl, Nat.add_sub_cancel]
  rfl

theorem piecesFrom_char (c : Char) (rest : List UInt8) :
    piecesFrom none (String.utf8EncodeChar c ++ rest) = some c :: piecesFrom none rest := by
  have valid : c.toNat < 0xD800 ∨ 0xDFFF < c.toNat ∧ c.toNat < 0x110000 := c.valid
  have same := Char.ofNat_toNat c
  unfold String.utf8EncodeChar
  rw [show c.val.toNat = c.toNat from rfl]
  generalize c.toNat = v at valid same
  dsimp only
  split
  · rw [List.cons_append, piecesFrom_ascii (by omega), same]
    rfl
  split
  · have leads := lead_two (b := v / 64 % 32) (by omega) (by omega)
    have whole : v / 64 % 32 * 64 + v % 64 = v := by omega
    simp only [List.cons_append, List.nil_append]
    rw [piecesFrom_lead leads (by omega) (by omega), piecesFrom_last (by omega), whole, same]
  split
  · obtain ⟨least, most, leads, inside⟩ := lead_three (b := v / 4096 % 16) (d := v / 64 % 64)
      (by omega) (by omega) (by omega) (by omega)
    have whole : (v / 4096 % 16 * 64 + v / 64 % 64) * 64 + v % 64 = v := by omega
    simp only [List.cons_append, List.nil_append]
    rw [piecesFrom_lead leads (by omega) (by omega), piecesFrom_more (by omega) inside,
      piecesFrom_last (by omega), whole, same]
  · obtain ⟨least, most, leads, inside⟩ := lead_four (b := v / 262144 % 8) (d := v / 4096 % 64)
      (by omega) (by omega) (by omega) (by omega)
    have whole : ((v / 262144 % 8 * 64 + v / 4096 % 64) * 64 + v / 64 % 64) * 64 + v % 64 = v := by
      omega
    simp only [List.cons_append, List.nil_append]
    rw [piecesFrom_lead leads (by omega) (by omega), piecesFrom_more (by omega) inside,
      piecesFrom_more (by omega) (by omega), piecesFrom_last (by omega), whole, same]

end Pieces

theorem pieces_encode (s : String) : pieces (encode s) = s.toList.map some := by
  have read : ∀ cs : List Char, pieces (cs.flatMap String.utf8EncodeChar) = cs.map some := by
    intro cs
    induction cs with
    | nil => rfl
    | cons c cs ih =>
      rw [List.flatMap_cons, pieces, piecesFrom_char]
      exact congrArg (some c :: ·) ih
  exact read s.toList

theorem decodeLossy_encode (s : String) : decodeLossy (encode s) = s := by
  rw [decodeLossy, pieces_encode, List.map_map]
  exact (congrArg String.ofList (List.map_id _)).trans String.ofList_toList

theorem decode?_encode (s : String) : decode? (encode s) = some s := by
  have whole : (s.toList.map some).mapM id = some s.toList := by
    induction s.toList with
    | nil => rfl
    | cons c cs ih => rw [List.map_cons, List.mapM_cons, ih]; rfl
  rw [decode?, pieces_encode, whole, Option.map_some, String.ofList_toList]

theorem encode_injective : Function.Injective encode :=
  Function.LeftInverse.injective decodeLossy_encode

theorem encode_append (s t : String) : encode (s ++ t) = encode s ++ encode t := by
  rw [encode, String.toList_append, List.flatMap_append]
  rfl

/-- Only the line end characters have a byte that ends a line. -/
theorem isLineEnd_byte {c : Char} {b : UInt8} (member : b ∈ String.utf8EncodeChar c)
    (ends : isLineEnd b = true) : c.toNat = 10 ∨ c.toNat = 13 := by
  have ascii : b.toNat = 10 ∨ b.toNat = 13 := by
    unfold isLineEnd at ends
    rw [Bool.or_eq_true, beq_iff_eq, beq_iff_eq] at ends
    rcases ends with rfl | rfl
    · left; rfl
    · right; rfl
  have valid : c.toNat < 0xD800 ∨ 0xDFFF < c.toNat ∧ c.toNat < 0x110000 := c.valid
  unfold String.utf8EncodeChar at member
  rw [show c.val.toNat = c.toNat from rfl] at member
  generalize c.toNat = v at valid member ⊢
  dsimp only at member
  by_cases small : v ≤ 127
  · rw [if_pos small] at member
    rw [List.mem_singleton.mp member, toNat_ofNat (by omega)] at ascii
    exact ascii
  · -- all bytes of longer sequences are above those of ASCII
    have large : 128 ≤ b.toNat := by
      rw [if_neg small] at member
      split at member
      · simp only [List.mem_cons, List.not_mem_nil, or_false] at member
        rcases member with rfl | rfl <;> (rw [toNat_ofNat (by omega)]; omega)
      split at member
      · simp only [List.mem_cons, List.not_mem_nil, or_false] at member
        rcases member with rfl | rfl | rfl <;> (rw [toNat_ofNat (by omega)]; omega)
      · simp only [List.mem_cons, List.not_mem_nil, or_false] at member
        rcases member with rfl | rfl | rfl | rfl <;> (rw [toNat_ofNat (by omega)]; omega)
    omega

end AgentHost.Text.Utf8
