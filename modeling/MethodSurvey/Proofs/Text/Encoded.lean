import MethodSurvey.Proofs.Text.WellFormed

/-! A text is read back from its encoding: each character is read from its own bytes, whatever
bytes follow. -/

namespace MethodSurvey.Text.Utf8

theorem toNat_byte {n : Nat} (h : n < 256) : (UInt8.ofNat n).toNat = n :=
  UInt8.toNat_ofNat_of_lt' h

/-- The character `n` can go on from what has been read: its first bits have that value, and its
next six lie in the range. -/
structure Expects (u : Unfinished) (n : Nat) : Prop where
  value : u.value = n / 64 ^ (u.later + 1)
  low : u.low.toNat ≤ n / 64 ^ u.later % 64 + 0x80
  high : n / 64 ^ u.later % 64 + 0x80 ≤ u.high.toNat

theorem expects_later (n later : Nat) :
    Expects ⟨n / 64 ^ (later + 1), later, 0x80, 0xBF⟩ n := by
  have hdigit : n / 64 ^ later % 64 < 64 := Nat.mod_lt _ (by decide)
  exact ⟨rfl, Nat.le_add_left _ _, by simp only [UInt8.reduceToNat]; omega⟩

/-- The next byte of the character gives its next six bits. -/
theorem Expects.next {u : Unfinished} {n : Nat} (h : Expects u n) {b : UInt8}
    (hb : b = UInt8.ofNat (n / 64 ^ u.later % 64 + 0x80)) :
    (u.low ≤ b ∧ b ≤ u.high) ∧ u.value * 64 + (b.toNat - 0x80) = n / 64 ^ u.later := by
  have hdigit : n / 64 ^ u.later % 64 < 64 := Nat.mod_lt _ (by decide)
  have hbyte : b.toNat = n / 64 ^ u.later % 64 + 0x80 := hb ▸ toNat_byte (by omega)
  have hvalue := h.value
  rw [Nat.pow_succ, ← Nat.div_div_eq_div_mul] at hvalue
  refine ⟨⟨UInt8.le_iff_toNat_le.mpr ?_, UInt8.le_iff_toNat_le.mpr ?_⟩, by omega⟩
  · exact hbyte ▸ h.low
  · exact hbyte ▸ h.high

theorem Expects.readFrom_continuation {u : Unfinished} {n : Nat} (h : Expects u n)
    (rest : List UInt8) :
    readFrom (some u) (continuation (u.later + 1) n ++ rest) =
      some (Char.ofNat n) :: readFrom none rest := by
  obtain ⟨value, later, low, high⟩ := u
  induction later generalizing value low high with
  | zero =>
    obtain ⟨hrange, hvalue⟩ := h.next rfl
    simp only [Nat.pow_zero, Nat.div_one] at hrange hvalue
    simp only [continuation, List.cons_append, List.nil_append, readFrom, step, Nat.pow_zero,
      Nat.div_one, hrange, and_self, if_true, hvalue]
  | succ later ih =>
    obtain ⟨hrange, hvalue⟩ := h.next rfl
    have hrest := ih _ _ _ (expects_later n later)
    dsimp only at hrange hvalue hrest ⊢
    rw [continuation, List.cons_append, readFrom, step, if_pos hrange, hvalue]
    exact hrest

theorem start_one {b : UInt8} (h : b.toNat < 0x80) :
    start b = ([some (Char.ofNat b.toNat)], none) := by
  rw [start, if_pos (UInt8.lt_iff_toNat_lt.mpr h)]

theorem start_two {b : UInt8} (hlow : 0xC2 ≤ b.toNat) (hhigh : b.toNat < 0xE0) :
    start b = ([], some ⟨b.toNat - 0xC0, 0, 0x80, 0xBF⟩) := by
  rw [start]
  simp only [UInt8.lt_iff_toNat_lt, UInt8.reduceToNat]
  rw [if_neg (by omega), if_neg (by omega), if_pos hhigh]

/-- Only after 0xE0 and 0xED the range of the next byte is narrower. -/
theorem start_three {b : UInt8} (hlow : 0xE0 ≤ b.toNat) (hhigh : b.toNat < 0xF0) :
    ∃ low high : UInt8, start b = ([], some ⟨b.toNat - 0xE0, 1, low, high⟩) ∧
      (low.toNat ≤ 0x80 ∨ b.toNat = 0xE0 ∧ low.toNat ≤ 0xA0) ∧
      (0xBF ≤ high.toNat ∨ b.toNat = 0xED ∧ 0x9F ≤ high.toNat) := by
  rw [start]
  simp only [UInt8.lt_iff_toNat_lt, ← UInt8.toNat_inj, UInt8.reduceToNat]
  rw [if_neg (by omega), if_neg (by omega), if_neg (by omega)]
  split_ifs with hE0 hED
  · exact ⟨0xA0, 0xBF, by rw [hE0], by simp [hE0], by simp⟩
  · exact ⟨0x80, 0x9F, by rw [hED], by simp, by simp [hED]⟩
  · exact ⟨0x80, 0xBF, rfl, by simp, by simp⟩

/-- Only after 0xF0 and 0xF4 the range of the next byte is narrower. -/
theorem start_four {b : UInt8} (hlow : 0xF0 ≤ b.toNat) (hhigh : b.toNat ≤ 0xF4) :
    ∃ low high : UInt8, start b = ([], some ⟨b.toNat - 0xF0, 2, low, high⟩) ∧
      (low.toNat ≤ 0x80 ∨ b.toNat = 0xF0 ∧ low.toNat ≤ 0x90) ∧
      (0xBF ≤ high.toNat ∨ b.toNat = 0xF4 ∧ 0x8F ≤ high.toNat) := by
  rw [start]
  simp only [UInt8.lt_iff_toNat_lt, ← UInt8.toNat_inj, UInt8.reduceToNat]
  rw [if_neg (by omega), if_neg (by omega), if_neg (by omega), if_neg (by omega),
    if_neg (by omega), if_neg (by omega)]
  split_ifs with hF0 hF4 h4
  · exact ⟨0x90, 0xBF, by rw [hF0], by simp [hF0], by simp⟩
  · exact ⟨0x80, 0xBF, rfl, by simp, by simp⟩
  · exact ⟨0x80, 0x8F, by rw [h4], by simp, by simp [h4]⟩
  · omega

section Lead

variable {n : Nat} (rest : List UInt8)

theorem readFrom_one (h : n < 0x80) :
    readFrom none (String.utf8EncodeChar (Char.ofNat n) ++ rest) =
      some (Char.ofNat n) :: readFrom none rest := by
  have hb := toNat_byte (show n < 256 by omega)
  rw [encode_one h, List.singleton_append, readFrom, step, start_one (by omega), hb]
  rfl

theorem readFrom_lead {b low high : UInt8} {value later : Nat}
    (hstart : start b = ([], some ⟨value, later, low, high⟩))
    (h : Expects ⟨value, later, low, high⟩ n) :
    readFrom none (b :: continuation (later + 1) n ++ rest) =
      some (Char.ofNat n) :: readFrom none rest := by
  rw [List.cons_append, readFrom, step, hstart, List.nil_append]
  exact h.readFrom_continuation rest

theorem readFrom_two (hlow : 0x80 ≤ n) (hhigh : n < 0x800) :
    readFrom none (String.utf8EncodeChar (Char.ofNat n) ++ rest) =
      some (Char.ofNat n) :: readFrom none rest := by
  have hb := toNat_byte (show n / 64 + 0xC0 < 256 by omega)
  rw [encode_two hlow hhigh]
  refine readFrom_lead rest (start_two (by omega) (by omega)) ⟨?_, ?_, ?_⟩ <;>
    simp only [hb, UInt8.reduceToNat, Nat.pow_zero, Nat.zero_add, Nat.pow_one] <;> omega

theorem readFrom_three (hlow : 0x800 ≤ n) (hhigh : n < 0x10000) (hv : n.isValidChar) :
    readFrom none (String.utf8EncodeChar (Char.ofNat n) ++ rest) =
      some (Char.ofNat n) :: readFrom none rest := by
  have hb := toNat_byte (show n / 4096 + 0xE0 < 256 by omega)
  have hsurrogate : n < 0xD800 ∨ 0xDFFF < n := hv.imp_right And.left
  obtain ⟨low, high, hstart, hl, hh⟩ := start_three (b := UInt8.ofNat (n / 4096 + 0xE0))
    (by omega) (by omega)
  rw [encode_three hlow hhigh hv]
  refine readFrom_lead rest hstart ⟨?_, ?_, ?_⟩ <;>
    simp only [hb, Nat.reduceAdd, Nat.reducePow, Nat.pow_one] at hl hh ⊢ <;> omega

theorem readFrom_four (hlow : 0x10000 ≤ n) (hhigh : n < 0x110000) :
    readFrom none (String.utf8EncodeChar (Char.ofNat n) ++ rest) =
      some (Char.ofNat n) :: readFrom none rest := by
  have hb := toNat_byte (show n / 262144 + 0xF0 < 256 by omega)
  obtain ⟨low, high, hstart, hl, hh⟩ := start_four (b := UInt8.ofNat (n / 262144 + 0xF0))
    (by omega) (by omega)
  rw [encode_four hlow hhigh]
  refine readFrom_lead rest hstart ⟨?_, ?_, ?_⟩ <;>
    simp only [hb, Nat.reduceAdd, Nat.reducePow] at hl hh ⊢ <;> omega

end Lead

theorem readFrom_encodeChar (c : Char) (rest : List UInt8) :
    readFrom none (String.utf8EncodeChar c ++ rest) = some c :: readFrom none rest := by
  have hv : c.toNat.isValidChar := c.valid
  have hbound : c.toNat < 0x110000 := by
    rcases hv with hlt | hlt <;> omega
  rw [← Char.ofNat_toNat c]
  generalize c.toNat = n at hv hbound
  by_cases h80 : n < 0x80
  · exact readFrom_one rest h80
  by_cases h800 : n < 0x800
  · exact readFrom_two rest (by omega) h800
  by_cases h10000 : n < 0x10000
  · exact readFrom_three rest (by omega) h10000 hv
  · exact readFrom_four rest (by omega) hbound

theorem read_encode (s : List Char) : read (encode s) = s.map some := by
  induction s with
  | nil => rfl
  | cons c s ih =>
    rw [encode, List.flatMap_cons, read, readFrom_encodeChar]
    exact congrArg (some c :: ·) ih

theorem decode?_encode (s : List Char) : decode? (encode s) = some s :=
  decode?_eq_some_iff.mpr (read_encode s)

theorem decodeLossy_encode (s : List Char) : decodeLossy (encode s) = s :=
  decodeLossy_of_decode? (decode?_encode s)

end MethodSurvey.Text.Utf8
