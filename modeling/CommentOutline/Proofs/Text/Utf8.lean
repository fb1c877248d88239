import CommentOutline.Text.Utf8

set_option autoImplicit false

/-! UTF-8 in both directions. The bytes of a character are read as that character, whatever bytes
follow them, so the bytes of a text are read as the text. -/

namespace CommentOutline.Text.Utf8

theorem toNat_byte {n : Nat} (small : n < 256) : (byte n).toNat = n := by
  unfold byte
  rw [UInt8.toNat_ofNat']
  exact Nat.mod_eq_of_lt small

theorem isContinuation_of_bounds {b : Nat} (low : 0x80 ≤ b) (high : b < 0xC0) :
    isContinuation b = true := by
  unfold isContinuation
  simp only [low, high, decide_true, Bool.and_self]

variable {c : Char} (rest : List UInt8)

/-! ### Steps -/

theorem step_one (small : c.toNat < 0x80) : step (byte c.toNat) rest = .char c 1 := by
  unfold step
  rw [toNat_byte (by omega), if_pos small, Char.ofNat_toNat]

theorem step_two (low : 0x80 ≤ c.toNat) (high : c.toNat < 0x800) :
    step (byte (0xC0 + c.toNat / 0x40)) (byte (0x80 + c.toNat % 0x40) :: rest) = .char c 2 := by
  have value : (0xC0 + c.toNat / 0x40 - 0xC0) * 0x40 + (0x80 + c.toNat % 0x40 - 0x80) =
      c.toNat := by omega
  unfold step stepTwo
  simp only [List.take_succ_cons, List.map_cons]
  rw [toNat_byte (by omega), toNat_byte (by omega), if_neg (by omega), if_neg (by omega),
    if_pos (by omega), if_pos (isContinuation_of_bounds (by omega) (by omega)), value,
    Char.ofNat_toNat]

theorem isSecond_three (valid : c.toNat < 0xD800 ∨ 0xDFFF < c.toNat) (low : 0x800 ≤ c.toNat)
    (high : c.toNat < 0x10000) :
    isSecond (0xE0 + c.toNat / 0x1000) (0x80 + c.toNat / 0x40 % 0x40) = true := by
  unfold isSecond
  rw [isContinuation_of_bounds (by omega) (by omega), Bool.true_and]
  split
  · exact decide_eq_true (by omega)
  · split
    · exact decide_eq_true (by omega)
    · rw [if_neg (by omega), if_neg (by omega)]

theorem isSecond_four (low : 0x10000 ≤ c.toNat) (high : c.toNat < 0x110000) :
    isSecond (0xF0 + c.toNat / 0x40000) (0x80 + c.toNat / 0x1000 % 0x40) = true := by
  unfold isSecond
  rw [isContinuation_of_bounds (by omega) (by omega), Bool.true_and, if_neg (by omega),
    if_neg (by omega)]
  split
  · exact decide_eq_true (by omega)
  · split
    · exact decide_eq_true (by omega)
    · rfl

theorem step_three (valid : c.toNat < 0xD800 ∨ 0xDFFF < c.toNat) (low : 0x800 ≤ c.toNat)
    (high : c.toNat < 0x10000) :
    step (byte (0xE0 + c.toNat / 0x1000))
      (byte (0x80 + c.toNat / 0x40 % 0x40) :: byte (0x80 + c.toNat % 0x40) :: rest) =
        .char c 3 := by
  have value : (0xE0 + c.toNat / 0x1000 - 0xE0) * 0x1000 +
      (0x80 + c.toNat / 0x40 % 0x40 - 0x80) * 0x40 + (0x80 + c.toNat % 0x40 - 0x80) =
        c.toNat := by omega
  unfold step stepThree
  simp only [List.take_succ_cons, List.map_cons]
  rw [toNat_byte (by omega), toNat_byte (by omega), toNat_byte (by omega), if_neg (by omega),
    if_neg (by omega), if_neg (by omega), if_pos (by omega), isSecond_three valid low high,
    Bool.not_true, if_neg Bool.false_ne_true,
    if_pos (isContinuation_of_bounds (by omega) (by omega)), value, Char.ofNat_toNat]

theorem step_four (low : 0x10000 ≤ c.toNat) (high : c.toNat < 0x110000) :
    step (byte (0xF0 + c.toNat / 0x40000))
      (byte (0x80 + c.toNat / 0x1000 % 0x40) :: byte (0x80 + c.toNat / 0x40 % 0x40) ::
        byte (0x80 + c.toNat % 0x40) :: rest) = .char c 4 := by
  have value : (0xF0 + c.toNat / 0x40000 - 0xF0) * 0x40000 +
      (0x80 + c.toNat / 0x1000 % 0x40 - 0x80) * 0x1000 +
      (0x80 + c.toNat / 0x40 % 0x40 - 0x80) * 0x40 + (0x80 + c.toNat % 0x40 - 0x80) =
        c.toNat := by omega
  unfold step stepFour
  simp only [List.take_succ_cons, List.map_cons]
  rw [toNat_byte (by omega), toNat_byte (by omega), toNat_byte (by omega), toNat_byte (by omega),
    if_neg (by omega), if_neg (by omega), if_neg (by omega), if_neg (by omega),
    if_pos (by omega), isSecond_four low high, Bool.not_true, if_neg Bool.false_ne_true,
    isContinuation_of_bounds (by omega) (by omega), Bool.not_true, if_neg Bool.false_ne_true,
    if_pos (isContinuation_of_bounds (by omega) (by omega)), value, Char.ofNat_toNat]

/-- The first byte of a character tells how many more there are, and together they are read as the
character. -/
theorem step_encodeChar (c : Char) : ∃ first more, encodeChar c = first :: more ∧
    ∀ rest, step first (more ++ rest) = .char c (more.length + 1) := by
  have valid : c.toNat < 0xD800 ∨ 0xDFFF < c.toNat ∧ c.toNat < 0x110000 := c.valid
  unfold encodeChar
  dsimp only
  split
  · rename_i one
    exact ⟨_, _, rfl, fun rest => step_one rest one⟩
  · split
    · rename_i low two
      exact ⟨_, _, rfl, fun rest => step_two rest (Nat.le_of_not_lt low) two⟩
    · split
      · rename_i low three
        exact ⟨_, _, rfl, fun rest =>
          step_three rest (valid.imp_right And.left) (Nat.le_of_not_lt low) three⟩
      · rename_i low
        exact ⟨_, _, rfl, fun rest => step_four rest (Nat.le_of_not_lt low) (by omega)⟩

/-! ### Whole texts -/

theorem decodeFrom_passing (offset : Nat) (passed rest : List UInt8) :
    decodeFrom offset passed.length (passed ++ rest) =
      decodeFrom (offset + passed.length) 0 rest := by
  induction passed generalizing offset with
  | nil => rfl
  | cons byte passed ih =>
      rw [List.length_cons, List.cons_append, decodeFrom, ih, Nat.add_assoc,
        Nat.add_comm 1]

theorem decodeFrom_encodeChar (offset : Nat) (c : Char) (rest : List UInt8) :
    decodeFrom offset 0 (encodeChar c ++ rest) =
      (decodeFrom (offset + (encodeChar c).length) 0 rest).map (c :: ·) := by
  obtain ⟨first, more, written, read⟩ := step_encodeChar c
  rw [written, List.cons_append, decodeFrom, read rest]
  dsimp only
  rw [Nat.add_sub_cancel, decodeFrom_passing, List.length_cons, Nat.add_assoc, Nat.add_comm 1]

theorem decodeFrom_encode (offset : Nat) (cs : List Char) :
    decodeFrom offset 0 (encode cs) = .ok cs := by
  induction cs generalizing offset with
  | nil => rfl
  | cons c cs ih =>
      unfold encode at ih ⊢
      rw [List.flatMap_cons, decodeFrom_encodeChar, ih]
      rfl

theorem decode_encode (cs : List Char) : decode (encode cs) = .ok cs :=
  decodeFrom_encode 0 cs

end CommentOutline.Text.Utf8
