import MethodSurvey.Proofs.Text.LeadBytes
import MethodSurvey.Proofs.Text.Pieces
import MethodSurvey.Text.Blank

/-! Cutting bytes at line feeds and decoding each piece gives the lines of the decoded
text, also where a line feed breaks off a character. -/

namespace MethodSurvey.Text

namespace Utf8

/-- What has been read of a character, so that a line feed cannot continue it and the
next byte takes its value beyond that of a line feed. -/
structure Unfinished.Sound (u : Unfinished) : Prop where
  low : 0x80 ≤ u.low.toNat
  value : 0x8A < u.value * 64 + u.low.toNat

theorem Leads.sound {b : UInt8} {u : Unfinished} (h : Leads b u) : u.Sound := by
  cases h with
  | two hlow hhigh =>
    exact ⟨Nat.le_refl _, by simp only [UInt8.reduceToNat]; omega⟩
  | three hb hvalue hlow hhigh hshort hsurrogate =>
    exact ⟨hlow, by dsimp only; omega⟩
  | four hb hvalue hlow hhigh hshort hbound =>
    exact ⟨hlow, by dsimp only; omega⟩

theorem start_sound (b : UInt8) : ∀ u ∈ (start b).2, u.Sound := by
  intro u hu
  rcases start_cases b with ⟨-, h⟩ | h | ⟨v, h, hv⟩ <;> rw [h] at hu
  · cases hu
  · cases hu
  · cases hu
    exact hv.sound

theorem ofNat_ne_lineFeed {n : Nat} (h : n ≠ 10) : Char.ofNat n ≠ '\n' := by
  intro he
  by_cases hv : n.isValidChar
  · rw [Char.ofNat, dif_pos hv] at he
    exact h (congrArg Char.toNat he)
  · rw [Char.ofNat, dif_neg hv] at he
    exact absurd (congrArg Char.toNat he) (by decide)

theorem lineFeed_not_mem_start {b : UInt8} (hb : b ≠ 10) : some '\n' ∉ (start b).1 := by
  have hn : b.toNat ≠ 10 := fun he => hb (UInt8.toNat_inj.mp he)
  rcases start_cases b with ⟨-, h⟩ | h | ⟨u, h, _⟩
  · simpa [h] using (ofNat_ne_lineFeed hn).symm
  · simp [h]
  · simp [h]

theorem step_sound {u : Option Unfinished} (hu : ∀ v ∈ u, v.Sound) (b : UInt8) :
    ∀ v ∈ (step u b).2, v.Sound := by
  cases u with
  | none => exact start_sound b
  | some u =>
    have hs := hu u rfl
    by_cases hb : u.low ≤ b ∧ b ≤ u.high
    · have hlow : u.low.toNat ≤ b.toNat := UInt8.le_iff_toNat_le.mp hb.1
      have hv := hs.value
      have hl := hs.low
      cases hlater : u.later with
      | zero => simp [step, hb, hlater]
      | succ later =>
        intro v hm
        simp only [step, hb, hlater, and_self, if_true, Option.mem_def, Option.some.injEq] at hm
        subst hm
        exact ⟨by simp only [UInt8.reduceToNat]; omega, by simp only [UInt8.reduceToNat]; omega⟩
    · simpa only [step, hb, if_false] using start_sound b

theorem lineFeed_not_mem_step {u : Option Unfinished} (hu : ∀ v ∈ u, v.Sound) {b : UInt8}
    (hb : b ≠ 10) :
    some '\n' ∉ (step u b).1 := by
  cases u with
  | none => exact lineFeed_not_mem_start hb
  | some u =>
    have hs := hu u rfl
    by_cases hr : u.low ≤ b ∧ b ≤ u.high
    · have hlow : u.low.toNat ≤ b.toNat := UInt8.le_iff_toNat_le.mp hr.1
      have hv := hs.value
      have hl := hs.low
      cases hlater : u.later with
      | zero =>
        have hn : u.value * 64 + (b.toNat - 0x80) ≠ 10 := by omega
        simpa [step, hr, hlater] using (ofNat_ne_lineFeed hn).symm
      | succ later => simp [step, hr, hlater]
    · simpa [step, hr] using lineFeed_not_mem_start hb

theorem step_lineFeed {u : Option Unfinished} (hu : ∀ v ∈ u, v.Sound) :
    step u 10 = ((u.map fun _ => none).toList ++ [some '\n'], none) := by
  cases u with
  | none => rfl
  | some u =>
    have hr : ¬ (u.low ≤ 10 ∧ 10 ≤ u.high) := by
      intro hr
      have hlow : u.low.toNat ≤ 10 := UInt8.le_iff_toNat_le.mp hr.1
      have hl := (hu u rfl).low
      omega
    simp only [step, hr, if_false]
    rfl

/-- What reading goes on to, with U+FFFD for each malformed piece. -/
def lossyFrom (u : Option Unfinished) (bytes : List UInt8) : List Char :=
  (readFrom u bytes).map (·.getD '\uFFFD')

theorem lossyFrom_cons (u : Option Unfinished) (b : UInt8) (bytes : List UInt8) :
    lossyFrom u (b :: bytes) =
      (step u b).1.map (·.getD '\uFFFD') ++ lossyFrom (step u b).2 bytes := by
  simp [lossyFrom, readFrom]

theorem lineFeed_not_mem_lossy {chars : List (Option Char)} (h : some '\n' ∉ chars) :
    '\n' ∉ chars.map (·.getD '\uFFFD') := by
  intro hm
  obtain ⟨c, hc, he⟩ := List.mem_map.mp hm
  cases c with
  | none => exact absurd he (by decide)
  | some c => exact h (he ▸ hc)

theorem lossyFrom_lineFeed {u : Option Unfinished} (hu : ∀ v ∈ u, v.Sound) (bytes : List UInt8) :
    lossyFrom u (10 :: bytes) = lossyFrom u [] ++ '\n' :: decodeLossy bytes := by
  rw [lossyFrom_cons, step_lineFeed hu]
  cases u <;> rfl

theorem lineFeed_not_mem_lossyFrom_nil (u : Option Unfinished) : '\n' ∉ lossyFrom u [] := by
  cases u <;> simp [lossyFrom, readFrom]

/-- Decoding from `u` on and then cutting: the first piece starts from `u`, the others
start afresh. -/
theorem pieces_lossyFrom {u : Option Unfinished} (hu : ∀ v ∈ u, v.Sound) {bytes piece : List UInt8}
    {others : List (List UInt8)} (h : pieces 10 bytes = piece :: others) :
    pieces '\n' (lossyFrom u bytes) = lossyFrom u piece :: others.map decodeLossy := by
  induction bytes generalizing u piece others with
  | nil =>
    obtain ⟨rfl, rfl⟩ := List.cons.inj h.symm
    simpa [pieces] using pieces_append_of_not_mem (lineFeed_not_mem_lossyFrom_nil u) []
  | cons b bytes ih =>
    obtain ⟨piece', others', hp⟩ := List.exists_cons_of_ne_nil (pieces_ne_nil 10 bytes)
    rw [pieces_cons, hp] at h
    by_cases hb : b = 10
    · subst b
      obtain ⟨rfl, rfl⟩ := List.cons.inj h.symm
      have hh := ih (u := none) (fun v hv => absurd hv (Option.not_mem_none v)) hp
      rw [lossyFrom_lineFeed hu, pieces_append_of_not_mem (lineFeed_not_mem_lossyFrom_nil u),
        pieces_cons]
      simpa [decodeLossy, read, lossyFrom] using hh
    · simp only [beq_iff_eq, hb, if_false, List.modifyHead_cons] at h
      obtain ⟨rfl, rfl⟩ := List.cons.inj h.symm
      have hs := step_sound hu b
      have hh := ih hs hp
      have hno := lineFeed_not_mem_lossy (lineFeed_not_mem_step hu hb)
      rw [lossyFrom_cons, pieces_append_of_not_mem hno, hh, lossyFrom_cons]
      rfl

theorem pieces_decodeLossy (bytes : List UInt8) :
    pieces '\n' (decodeLossy bytes) = (pieces 10 bytes).map decodeLossy := by
  obtain ⟨piece, others, hp⟩ := List.exists_cons_of_ne_nil (pieces_ne_nil 10 bytes)
  rw [hp]
  exact pieces_lossyFrom (u := none) (fun v hv => absurd hv (Option.not_mem_none v)) hp

theorem step_progress (u : Option Unfinished) (b : UInt8) :
    (step u b).1 ≠ [] ∨ (step u b).2 ≠ none := by
  have hs : (start b).1 ≠ [] ∨ (start b).2 ≠ none := by
    rcases start_cases b with ⟨-, h⟩ | h | ⟨u, h, _⟩ <;> simp [h]
  cases u with
  | none => exact hs
  | some u =>
    by_cases hr : u.low ≤ b ∧ b ≤ u.high
    · cases hlater : u.later <;> simp [step, hr, hlater]
    · simp [step, hr]

theorem lossyFrom_eq_nil {u : Option Unfinished} {bytes : List UInt8} (h : lossyFrom u bytes = []) :
    u = none ∧ bytes = [] := by
  induction bytes generalizing u with
  | nil =>
    cases u with
    | none => exact ⟨rfl, rfl⟩
    | some u => simp [lossyFrom, readFrom] at h
  | cons b bytes ih =>
    rw [lossyFrom_cons, List.append_eq_nil_iff, List.map_eq_nil_iff] at h
    rcases step_progress u b with hp | hp
    · exact absurd h.1 hp
    · exact absurd (ih h.2).1 hp

theorem decodeLossy_eq_nil_iff (bytes : List UInt8) : decodeLossy bytes = [] ↔ bytes = [] :=
  ⟨fun h => (lossyFrom_eq_nil (u := none) h).2, fun h => h ▸ rfl⟩

/-- The lines of a decoded text are the decoded lines of the bytes. -/
theorem allPieces_decodeLossy (bytes : List UInt8) :
    allPieces '\n' (decodeLossy bytes) = (allPieces 10 bytes).map decodeLossy := by
  have hc : completePieces '\n' (decodeLossy bytes) = (completePieces 10 bytes).map decodeLossy := by
    rw [completePieces, completePieces, pieces_decodeLossy, List.map_dropLast]
  have hl : lastPiece '\n' (decodeLossy bytes) = decodeLossy (lastPiece 10 bytes) := by
    rw [lastPiece, lastPiece, pieces_decodeLossy, List.getLast?_map]
    cases (pieces 10 bytes).getLast? <;> rfl
  rw [allPieces, allPieces, hc, hl]
  cases hp : lastPiece 10 bytes with
  | nil => simp [decodeLossy, read, readFrom]
  | cons b piece =>
    have hn : decodeLossy (b :: piece) ≠ [] := by
      intro h
      simpa using (decodeLossy_eq_nil_iff _).mp h
    simp [hn]

end Utf8

end MethodSurvey.Text
