import MethodSurvey.Text.Utf8

/-! What the first byte of a longer character says: how many bytes follow, and in which
range the next one lies. -/

namespace MethodSurvey.Text.Utf8

/-- A byte begins a character of two, three or four bytes. Where its own bits are all zero
the next byte makes up for them, so that no shorter encoding exists; after 0xED it keeps
clear of the surrogates, and after 0xF4 of values above the last character. -/
inductive Leads (b : UInt8) : Unfinished → Prop where
  | two : 0xC2 ≤ b.toNat → b.toNat < 0xE0 → Leads b ⟨b.toNat - 0xC0, 0, 0x80, 0xBF⟩
  | three {value : Nat} {low high : UInt8} : b.toNat = value + 0xE0 → value < 16 →
      0x80 ≤ low.toNat → high.toNat ≤ 0xBF → (value = 0 → 0xA0 ≤ low.toNat) →
      (value = 0xD → high.toNat ≤ 0x9F) → Leads b ⟨value, 1, low, high⟩
  | four {value : Nat} {low high : UInt8} : b.toNat = value + 0xF0 → value ≤ 4 →
      0x80 ≤ low.toNat → high.toNat ≤ 0xBF → (value = 0 → 0x90 ≤ low.toNat) →
      (value = 4 → high.toNat ≤ 0x8F) → Leads b ⟨value, 2, low, high⟩

theorem toNat_le_of_not_lt {b n : UInt8} (h : ¬ b < n) : n.toNat ≤ b.toNat :=
  UInt8.le_iff_toNat_le.mp (UInt8.not_lt.mp h)

theorem toNat_ne_of_ne {b n : UInt8} (h : ¬ b = n) : b.toNat ≠ n.toNat :=
  fun he => h (UInt8.toNat_inj.mp he)

theorem leads_three {b : UInt8} (hlow : 0xE0 ≤ b.toNat) (hhigh : b.toNat < 0xF0)
    (hE0 : b.toNat ≠ 0xE0) (hED : b.toNat ≠ 0xED) :
    Leads b ⟨b.toNat - 0xE0, 1, 0x80, 0xBF⟩ :=
  .three (by omega) (by omega) (Nat.le_refl _) (Nat.le_refl _) (by omega) (by omega)

theorem leads_four {b : UInt8} (hlow : 0xF0 ≤ b.toNat) (hhigh : b.toNat < 0xF4)
    (hF0 : b.toNat ≠ 0xF0) : Leads b ⟨b.toNat - 0xF0, 2, 0x80, 0xBF⟩ :=
  .four (by omega) (by omega) (Nat.le_refl _) (Nat.le_refl _) (by omega) (by omega)

/-- A byte where a character may begin: it is one, it is malformed, or it begins one. -/
theorem start_cases (b : UInt8) :
    (b.toNat < 0x80 ∧ start b = ([some (Char.ofNat b.toNat)], none)) ∨
      start b = ([none], none) ∨ ∃ u, start b = ([], some u) ∧ Leads b u := by
  rw [start]
  by_cases h80 : b < 0x80
  · exact .inl ⟨UInt8.lt_iff_toNat_lt.mp h80, if_pos h80⟩
  rw [if_neg h80]
  refine .inr ?_
  by_cases hC2 : b < 0xC2
  · exact .inl (if_pos hC2)
  rw [if_neg hC2]
  by_cases hE0 : b < 0xE0
  · rw [if_pos hE0]
    exact .inr ⟨_, rfl, .two (toNat_le_of_not_lt hC2) (UInt8.lt_iff_toNat_lt.mp hE0)⟩
  rw [if_neg hE0]
  by_cases heE0 : b = 0xE0
  · subst heE0
    exact .inr ⟨_, rfl, .three rfl (by decide) (by decide) (by decide) (by decide) (by decide)⟩
  rw [if_neg heE0]
  by_cases heED : b = 0xED
  · subst heED
    exact .inr ⟨_, rfl, .three rfl (by decide) (by decide) (by decide) (by decide) (by decide)⟩
  rw [if_neg heED]
  by_cases hF0 : b < 0xF0
  · rw [if_pos hF0]
    exact .inr ⟨_, rfl, leads_three (toNat_le_of_not_lt hE0) (UInt8.lt_iff_toNat_lt.mp hF0)
      (toNat_ne_of_ne heE0) (toNat_ne_of_ne heED)⟩
  rw [if_neg hF0]
  by_cases heF0 : b = 0xF0
  · subst heF0
    exact .inr ⟨_, rfl, .four rfl (by decide) (by decide) (by decide) (by decide) (by decide)⟩
  rw [if_neg heF0]
  by_cases hF4 : b < 0xF4
  · rw [if_pos hF4]
    exact .inr ⟨_, rfl, leads_four (toNat_le_of_not_lt hF0) (UInt8.lt_iff_toNat_lt.mp hF4)
      (toNat_ne_of_ne heF0)⟩
  rw [if_neg hF4]
  by_cases heF4 : b = 0xF4
  · subst heF4
    exact .inr ⟨_, rfl, .four rfl (by decide) (by decide) (by decide) (by decide) (by decide)⟩
  · exact .inl (if_neg heF4)

end MethodSurvey.Text.Utf8
