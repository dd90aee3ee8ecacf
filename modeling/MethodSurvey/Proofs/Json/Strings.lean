import MethodSurvey.Json
import MethodSurvey.Proofs.Json.Grammar
import MethodSurvey.Proofs.Toml.Reader

/-! Strings between quotes are read as they were written, whatever characters they have,
and no control character stands between the quotes. -/

namespace MethodSurvey.Json

open Toml.Reader

variable {c : Char} {s : List Char}

theorem isDigitOf_hexDigit : ∀ n < 16, Numeral.isDigitOf 16 (hexDigit n) = true := by
  decide

theorem digitValue_hexDigit : ∀ n < 16, Numeral.digitValue (hexDigit n) = n := by
  decide

theorem isPrintable_hexDigit : ∀ n < 16, 0x20 ≤ (hexDigit n).toNat := by
  decide

theorem codeUnit_of_lt (n : Nat) (h : n < 0x20) :
    Grammar.codeUnit ('0' :: '0' :: hexDigit (n / 16) :: hexDigit (n % 16) :: s) =
      some (n, s) := by
  have hzero : Numeral.isDigitOf 16 '0' = true := by decide
  have hhigh := isDigitOf_hexDigit (n / 16) (by omega)
  have hlow := isDigitOf_hexDigit (n % 16) (by omega)
  have hvalue : Numeral.value 16 ['0', '0', hexDigit (n / 16), hexDigit (n % 16)] = n := by
    have hhigh := digitValue_hexDigit (n / 16) (by omega)
    have hlow := digitValue_hexDigit (n % 16) (by omega)
    have hzero : Numeral.digitValue '0' = 0 := by decide
    simp only [Numeral.value, List.foldl_cons, List.foldl_nil, hzero, hhigh, hlow]
    omega
  simp only [Grammar.codeUnit, bind_run, one_cons hzero, one_cons hhigh, one_cons hlow,
    Option.bind_some, pure_run, hvalue]

theorem unicode_of_lt (n : Nat) (h : n < 0x20) :
    Grammar.unicode ('0' :: '0' :: hexDigit (n / 16) :: hexDigit (n % 16) :: s) =
      some (Char.ofNat n, s) := by
  have hunit : ¬(0xD800 ≤ n ∧ n < 0xE000) := by omega
  rw [Grammar.unicode, bind_run, codeUnit_of_lt n h, Option.bind_some, if_neg hunit, pure_run]

theorem character?_letter {letter : Char} (hletter : letter ≠ 'u')
    (hc : Grammar.escapes.lookup letter = some c) :
    Grammar.character? ('\\' :: letter :: s) = some (some c, s) := by
  have hone : one (fun a => (Grammar.escapes.lookup a).isSome) (letter :: s) =
      some (letter, s) := one_cons (by rw [hc]; rfl)
  have hquote : accept ['\x22'] ('\\' :: letter :: s) = some (false, '\\' :: letter :: s) :=
    accept_of_head_ne (by decide)
  simp only [Grammar.character?, bind_run, hquote, accept_cons, accept_of_head_ne hletter.symm,
    Option.bind_some, Bool.false_eq_true, if_false, if_true, hone, pure_run, hc]

theorem character?_plain (hquote : c ≠ '\x22') (hbackslash : c ≠ '\\') (hc : 0x20 ≤ c.toNat) :
    Grammar.character? (c :: s) = some (some c, s) := by
  have hone : one (fun a => decide (0x20 ≤ a.toNat)) (c :: s) = some (c, s) :=
    one_cons (decide_eq_true hc)
  simp only [Grammar.character?, bind_run, accept_of_head_ne hquote.symm,
    accept_of_head_ne hbackslash.symm, Option.bind_some, Bool.false_eq_true, if_false,
    hone, pure_run]

theorem character?_unicode (n : Nat) (h : n < 0x20) :
    Grammar.character?
        ('\\' :: 'u' :: '0' :: '0' :: hexDigit (n / 16) :: hexDigit (n % 16) :: s) =
      some (some (Char.ofNat n), s) := by
  have hquote : ∀ t, accept ['\x22'] ('\\' :: t) = some (false, '\\' :: t) :=
    fun t => accept_of_head_ne (by decide)
  simp only [Grammar.character?, bind_run, hquote, accept_cons, Option.bind_some,
    Bool.false_eq_true, if_false, if_true, unicode_of_lt n h, pure_run]

theorem escape_ne_nil (c : Char) : escape c ≠ [] := by
  unfold escape
  split_ifs <;> exact List.cons_ne_nil _ _

/-- Each character is read back from the way it is written. -/
theorem character?_escape (c : Char) (s : List Char) :
    Grammar.character? (escape c ++ s) = some (some c, s) := by
  unfold escape
  split_ifs with hquote hbackslash hbackspace hformFeed hlineFeed hreturn htab hcontrol
  · subst hquote; exact character?_letter (by decide) rfl
  · subst hbackslash; exact character?_letter (by decide) rfl
  · subst hbackspace; exact character?_letter (by decide) rfl
  · subst hformFeed; exact character?_letter (by decide) rfl
  · subst hlineFeed; exact character?_letter (by decide) rfl
  · subst hreturn; exact character?_letter (by decide) rfl
  · subst htab; exact character?_letter (by decide) rfl
  · simpa [Char.ofNat_toNat] using character?_unicode (s := s) c.toNat hcontrol
  · exact character?_plain hquote hbackslash (Nat.not_lt.mp hcontrol)

theorem character?_quote : Grammar.character? ('\x22' :: s) = some (none, s) := by
  rw [Grammar.character?, bind_run, accept_cons]
  rfl

theorem string_quote (t : String) (s : List Char) :
    Grammar.string (quote t ++ s) = some (t, s) := by
  have hcharacters : collect Grammar.character? (t.toList.flatMap escape ++ '\x22' :: s) =
      some (t.toList.map id, s) :=
    collect_flatMap (P := fun _ => True) (fun c _ u _ => character?_escape c u)
      (fun _ _ _ => trivial) (fun c _ => escape_ne_nil c) trivial character?_quote
  simp only [Grammar.string, quote, List.cons_append, List.append_assoc, List.nil_append, bind_run,
    expect_cons, Option.bind_some, hcharacters, pure_run, List.map_id, String.ofList_toList]

theorem printable_escape (c : Char) : ∀ d ∈ escape c, 0x20 ≤ d.toNat := by
  have hhex (h : c.toNat < 0x20) : 0x20 ≤ (hexDigit (c.toNat / 16)).toNat ∧
      0x20 ≤ (hexDigit (c.toNat % 16)).toNat :=
    ⟨isPrintable_hexDigit _ (by omega), isPrintable_hexDigit _ (by omega)⟩
  unfold escape
  split_ifs with _ _ _ _ _ _ _ hcontrol
  iterate 7 (· simp)
  · simpa using hhex hcontrol
  · simpa using hcontrol

theorem printable_quote (t : String) : ∀ d ∈ quote t, 0x20 ≤ d.toNat := by
  have hescaped : ∀ d ∈ t.toList.flatMap escape, 0x20 ≤ d.toNat := by
    intro d hd
    obtain ⟨c, _, hd⟩ := List.mem_flatMap.mp hd
    exact printable_escape c d hd
  simp only [quote, List.forall_mem_append, List.forall_mem_cons]
  exact ⟨⟨by decide, hescaped⟩, by simp⟩

end MethodSurvey.Json
