import Mathlib.Algebra.Ring.Nat
import Mathlib.Data.List.Basic
import MethodSurvey.Proofs.Text.LeadBytes

/-! Bytes that are well-formed throughout are the encoding of the text that they are read
as, so that no two byte sequences have one text. -/

namespace MethodSurvey.Text.Utf8

theorem mapM_id_eq_some_iff {α : Type} {l : List (Option α)} {s : List α} :
    l.mapM id = some s ↔ l = s.map some := by
  induction l generalizing s with
  | nil => cases s <;> simp
  | cons a l ih =>
    cases a with
    | none => cases s <;> simp
    | some a =>
      have hcons : (some a :: l).mapM id = (l.mapM id).map (a :: ·) := by
        rw [List.mapM_cons]
        cases l.mapM id <;> rfl
      rw [hcons, Option.map_eq_some_iff]
      constructor
      · rintro ⟨s, hs, rfl⟩
        rw [ih.mp hs]
        rfl
      · intro h
        cases s with
        | nil => simp at h
        | cons c s =>
          obtain ⟨ha, hl⟩ := List.cons.inj h
          exact ⟨s, ih.mpr hl, by rw [Option.some.inj ha]⟩

theorem decode?_eq_some_iff {bytes : List UInt8} {s : List Char} :
    decode? bytes = some s ↔ read bytes = s.map some :=
  mapM_id_eq_some_iff

theorem decodeLossy_of_decode? {bytes : List UInt8} {s : List Char} (h : decode? bytes = some s) :
    decodeLossy bytes = s := by
  rw [decodeLossy, decode?_eq_some_iff.mp h, List.map_map]
  exact List.map_id s

/-- The last `k` bytes of a longer character: six bits each, the highest first. -/
def continuation : (k n : Nat) → List UInt8
  | 0, _ => []
  | k + 1, n => UInt8.ofNat (n / 64 ^ k % 64 + 0x80) :: continuation k n

section Layout

variable {n : Nat}

theorem toNat_ofNat (h : n.isValidChar) : (Char.ofNat n).val.toNat = n := by
  rw [Char.ofNat, dif_pos h]
  exact UInt32.toNat_ofNatLT ..

theorem encode_one (h : n < 0x80) : String.utf8EncodeChar (Char.ofNat n) = [UInt8.ofNat n] := by
  have hv : n.isValidChar := .inl (by omega)
  simp only [String.utf8EncodeChar, toNat_ofNat hv, if_pos (show n ≤ 127 by omega)]

theorem encode_two (hlow : 0x80 ≤ n) (hhigh : n < 0x800) :
    String.utf8EncodeChar (Char.ofNat n) = UInt8.ofNat (n / 64 + 0xC0) :: continuation 1 n := by
  have hv : n.isValidChar := .inl (by omega)
  have hlead : n / 64 % 32 = n / 64 := by omega
  simp only [String.utf8EncodeChar, toNat_ofNat hv, if_neg (show ¬ n ≤ 127 by omega),
    if_pos (show n ≤ 2047 by omega), hlead, continuation, Nat.pow_zero, Nat.div_one]

theorem encode_three (hlow : 0x800 ≤ n) (hhigh : n < 0x10000) (hv : n.isValidChar) :
    String.utf8EncodeChar (Char.ofNat n) = UInt8.ofNat (n / 4096 + 0xE0) :: continuation 2 n := by
  have hlead : n / 4096 % 16 = n / 4096 := by omega
  simp only [String.utf8EncodeChar, toNat_ofNat hv, if_neg (show ¬ n ≤ 127 by omega),
    if_neg (show ¬ n ≤ 2047 by omega), if_pos (show n ≤ 65535 by omega), hlead, continuation,
    Nat.pow_zero, Nat.pow_one, Nat.div_one]

theorem encode_four (hlow : 0x10000 ≤ n) (hhigh : n < 0x110000) :
    String.utf8EncodeChar (Char.ofNat n) = UInt8.ofNat (n / 262144 + 0xF0) :: continuation 3 n := by
  have hv : n.isValidChar := .inr ⟨by omega, by omega⟩
  have hlead : n / 262144 % 8 = n / 262144 := by omega
  simp only [String.utf8EncodeChar, toNat_ofNat hv, if_neg (show ¬ n ≤ 127 by omega),
    if_neg (show ¬ n ≤ 2047 by omega), if_neg (show ¬ n ≤ 65535 by omega), hlead, continuation,
    Nat.pow_zero, Nat.pow_one, Nat.reducePow, Nat.div_one]

end Layout

/-- The bytes `read` have begun the character `u`: a character whose first bits have the
value of `u`, and whose next six lie in its range, is encoded by these bytes and the
continuation. -/
structure Begins (read : List UInt8) (u : Unfinished) : Prop where
  low : 0x80 ≤ u.low.toNat
  high : u.high.toNat ≤ 0xBF
  encodes : ∀ n, n / 64 ^ (u.later + 1) = u.value →
    u.low.toNat ≤ n / 64 ^ u.later % 64 + 0x80 → n / 64 ^ u.later % 64 + 0x80 ≤ u.high.toNat →
      String.utf8EncodeChar (Char.ofNat n) = read ++ continuation (u.later + 1) n

theorem Leads.begins {b : UInt8} {u : Unfinished} (h : Leads b u) : Begins [b] u := by
  cases h with
  | two hlow hhigh =>
    refine ⟨Nat.le_refl _, Nat.le_refl _, fun n hn _ _ => ?_⟩
    simp only [Nat.zero_add, Nat.pow_one] at hn
    have hb : n / 64 + 0xC0 = b.toNat := by omega
    rw [encode_two (by omega) (by omega), hb, UInt8.ofNat_toNat]
    rfl
  | three hb hvalue hlow hhigh hshort hsurrogate =>
    refine ⟨hlow, hhigh, fun n hn hl hh => ?_⟩
    simp only [Nat.reduceAdd, Nat.reducePow, Nat.pow_one] at hn hl hh
    have hv : n.isValidChar := by
      by_cases hd : n < 0xD800
      · exact .inl hd
      · exact .inr ⟨by omega, by omega⟩
    have he : n / 4096 + 0xE0 = b.toNat := by omega
    rw [encode_three (by omega) (by omega) hv, he, UInt8.ofNat_toNat]
    rfl
  | four hb hvalue hlow hhigh hshort hbound =>
    refine ⟨hlow, hhigh, fun n hn hl hh => ?_⟩
    simp only [Nat.reduceAdd, Nat.reducePow] at hn hl hh
    have he : n / 262144 + 0xF0 = b.toNat := by omega
    rw [encode_four (by omega) (by omega), he, UInt8.ofNat_toNat]
    rfl

/-- What a step yields on well-formed bytes: the character that the bytes read so far
encode, or a character that they have begun. -/
def Reads (read : List UInt8) (result : List (Option Char) × Option Unfinished) : Prop :=
  (∃ c, result = ([some c], none) ∧ String.utf8EncodeChar c = read) ∨
    ∃ u, result = ([], some u) ∧ Begins read u

theorem start_reads {b : UInt8} (h : none ∉ (start b).1) : Reads [b] (start b) := by
  rcases start_cases b with ⟨hb, hs⟩ | hs | ⟨u, hs, hu⟩ <;> rw [hs] at h ⊢
  · exact .inl ⟨_, rfl, by rw [encode_one hb, UInt8.ofNat_toNat]⟩
  · exact absurd List.mem_cons_self h
  · exact .inr ⟨u, rfl, hu.begins⟩

/-- A byte in range gives the next six bits of the character that has been begun. -/
theorem Begins.encodes_next {read : List UInt8} {u : Unfinished} {b : UInt8} {n : Nat}
    (h : Begins read u) (hb : u.low ≤ b ∧ b ≤ u.high)
    (hn : n / 64 ^ u.later = u.value * 64 + (b.toNat - 0x80)) :
    String.utf8EncodeChar (Char.ofNat n) = read ++ b :: continuation u.later n := by
  have hlow : u.low.toNat ≤ b.toNat := UInt8.le_iff_toNat_le.mp hb.1
  have hhigh : b.toNat ≤ u.high.toNat := UInt8.le_iff_toNat_le.mp hb.2
  have hl := h.low
  have hh := h.high
  have hdigit : n / 64 ^ u.later % 64 + 0x80 = b.toNat := by omega
  have hvalue : n / 64 ^ (u.later + 1) = u.value := by
    rw [Nat.pow_succ, ← Nat.div_div_eq_div_mul]
    omega
  have he := h.encodes n hvalue (by omega) (by omega)
  rw [continuation, hdigit, UInt8.ofNat_toNat] at he
  exact he

theorem Begins.step_reads {read : List UInt8} {u : Unfinished} {b : UInt8} (h : Begins read u)
    (hb : none ∉ (step (some u) b).1) : Reads (read ++ [b]) (step (some u) b) := by
  rw [step] at hb ⊢
  by_cases hrange : u.low ≤ b ∧ b ≤ u.high
  · rw [if_pos hrange]
    cases hlater : u.later with
    | zero =>
      have he := h.encodes_next (n := u.value * 64 + (b.toNat - 0x80)) hrange
        (by rw [hlater, Nat.pow_zero, Nat.div_one])
      rw [hlater] at he
      exact .inl ⟨_, rfl, he⟩
    | succ later =>
      refine .inr ⟨_, rfl, Nat.le_refl _, Nat.le_refl _, fun n hn _ _ => ?_⟩
      have he := h.encodes_next (n := n) hrange (by rw [hlater]; exact hn)
      rw [hlater] at he
      rw [List.append_assoc]
      exact he
  · simp [hrange] at hb

/-- The reader's state after some bytes of which the last ones make no whole character yet. -/
def Holds (read : List UInt8) : Option Unfinished → Prop
  | none => read = []
  | some u => Begins read u

theorem Holds.step_reads {read : List UInt8} {u : Option Unfinished} {b : UInt8}
    (h : Holds read u) (hb : none ∉ (step u b).1) : Reads (read ++ [b]) (step u b) := by
  cases u with
  | some u => exact Begins.step_reads h hb
  | none =>
    obtain rfl : read = [] := h
    exact start_reads hb

theorem encode_of_readFrom {read bytes : List UInt8} {u : Option Unfinished} {s : List Char}
    (h : Holds read u) (hr : readFrom u bytes = s.map some) : encode s = read ++ bytes := by
  -- `read` are the bytes of the unfinished character only, and empty again after a whole one.
  induction bytes generalizing read u s with
  | nil =>
    cases u with
    | some u => cases s <;> simp [readFrom] at hr
    | none =>
      obtain rfl : read = [] := h
      obtain rfl : s = [] := List.map_eq_nil_iff.mp hr.symm
      rfl
  | cons b bytes ih =>
    rw [readFrom] at hr
    have hb : none ∉ (step u b).1 := by
      intro hm
      have hs : none ∈ s.map some := hr ▸ List.mem_append_left _ hm
      simp at hs
    rcases h.step_reads hb with ⟨c, hstep, hc⟩ | ⟨v, hstep, hv⟩
    · rw [hstep, List.singleton_append] at hr
      obtain ⟨c', rest, rfl, hc', hrest⟩ := List.map_eq_cons_iff.mp hr.symm
      obtain rfl : c' = c := Option.some.inj hc'
      have he := ih (u := none) rfl hrest.symm
      rw [encode, List.flatMap_cons, hc, ← encode, he, List.nil_append, List.append_assoc,
        List.singleton_append]
    · rw [hstep, List.nil_append] at hr
      rw [ih (u := some v) hv hr, List.append_assoc, List.singleton_append]

theorem encode_of_decode? {bytes : List UInt8} {s : List Char} (h : decode? bytes = some s) :
    encode s = bytes :=
  encode_of_readFrom (u := none) rfl (decode?_eq_some_iff.mp h)

theorem decode?_inj {bytes bytes' : List UInt8} {s : List Char} (h : decode? bytes = some s)
    (h' : decode? bytes' = some s) : bytes = bytes' :=
  (encode_of_decode? h).symm.trans (encode_of_decode? h')

end MethodSurvey.Text.Utf8
