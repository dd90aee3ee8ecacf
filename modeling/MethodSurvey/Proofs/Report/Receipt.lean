import MethodSurvey.Proofs.Json.RoundTrip
import MethodSurvey.Proofs.Numeric.ReadBack
import MethodSurvey.Report.Receipt

/-! A receipt is one line that says what the run was given and what it found. -/

namespace MethodSurvey.Report

open Json (Term)

variable (r : Report) (summary : Summary) (context : ReceiptContext) (timestamp : Nat)

def recordTerm (method : MethodRecord) : Term :=
  .object [("name", .text method.name), ("file", .text method.file),
    ("complexity", .natural method.complexity)]

def receiptFields : List (String × Term) :=
  [("schema_version", .natural 1),
    ("generated_at_ms", .natural timestamp),
    ("tool", .object [("name", .text Tool.name), ("version", .text Tool.version)]),
    ("status", .text summary.status.name),
    ("root", .text context.root),
    ("args", .object
      [("declarations", .text context.declarations.name),
        ("key_mode", .text context.keying.label), ("top", .natural context.top)]),
    ("files_scanned", .natural summary.scanned),
    ("files_failed", .natural summary.failed),
    ("totals", .object
      [("total_methods", .natural r.totals.declarations),
        ("non_conforming_methods", .natural r.totals.nonConforming)]),
    ("non_conforming_pct", r.percentage?.elim .null fun p => (Json.real (Percentage.rounded p)).term),
    ("top", .array (r.top.map recordTerm)),
    ("warnings", .array (summary.warnings.map .text))]

theorem term_receipt : (r.receipt summary context timestamp).term =
    .object (r.receiptFields summary context timestamp) := by
  have htop : Json.terms (r.top.map recordFields) = r.top.map recordTerm := by
    rw [Json.terms_eq_map, List.map_map]
    rfl
  have hwarnings : Json.terms (summary.warnings.map .text) = summary.warnings.map .text := by
    rw [Json.terms_eq_map, List.map_map]
    rfl
  cases hpercentage : r.percentage? <;>
    simp only [receipt, receiptFields, Json.term, Json.fieldTerms, htop, hwarnings, hpercentage,
      Option.elim_none, Option.elim_some]

theorem keys_receiptFields : (r.receiptFields summary context timestamp).map Prod.fst =
    ["schema_version", "generated_at_ms", "tool", "status", "root", "args", "files_scanned",
      "files_failed", "totals", "non_conforming_pct", "top", "warnings"] := rfl

theorem status_name_eq_partial_iff : summary.status.name = "partial" ↔ 0 < summary.failed := by
  unfold Summary.status
  split_ifs with hfailed
  · exact iff_of_false (by decide) (by omega)
  · exact iff_of_true rfl (by omega)

theorem read?_receipt (spaces : List Char)
    (hspaces : ∀ c ∈ spaces, Json.Grammar.isSpace c = true) :
    Json.read? ((r.receipt summary context timestamp).compact ++ spaces) =
      some (.object (r.receiptFields summary context timestamp)) := by
  rw [Json.read?_compact _ hspaces, term_receipt]

theorem recordTerm_injective : Function.Injective recordTerm := by
  rintro ⟨name, file, complexity⟩ ⟨name', file', complexity'⟩ h
  simpa [recordTerm, Term.natural] using h

theorem name_injective : Function.Injective DeclarationStyle.name := by
  intro style style' h
  cases style <;> cases style' <;> simp_all [DeclarationStyle.name]

theorem label_injective : Function.Injective Keying.label := by
  intro keying keying' h
  cases keying <;> cases keying' <;> simp_all [Keying.label]

variable {r summary context timestamp} in
/-- Receipts of one text are of the same run, as far as a receipt tells of it. -/
theorem eq_of_receiptLine_eq {r' : Report} {summary' : Summary} {context' : ReceiptContext}
    {timestamp' : Nat}
    (h : r.receiptLine summary context timestamp = r'.receiptLine summary' context' timestamp') :
    r.top = r'.top ∧ r.totals = r'.totals ∧ summary = summary' ∧ context = context' ∧
      timestamp = timestamp' := by
  have hread := r.read?_receipt summary context timestamp ['\n'] (by simp [Json.Grammar.isSpace])
  rw [String.ofList_injective h, read?_receipt _ _ _ _ _ (by simp [Json.Grammar.isSpace])] at hread
  have hfields := Term.object.inj (Option.some.inj hread)
  simp only [receiptFields, List.cons.injEq, Prod.mk.injEq, Term.natural, Term.text.injEq,
    Term.object.injEq, Term.array.injEq, Term.number.injEq, Scientific.mk.injEq, true_and, and_true]
    at hfields
  obtain ⟨htimestamp, _, hroot, ⟨hstyle, hkeying, hlength⟩, hscanned, hfailed,
    ⟨hdeclarations, hnonConforming⟩, _, htop, hwarnings⟩ := hfields
  have hwarnings := List.map_injective_iff.mpr (fun _ _ => Term.text.inj) hwarnings
  refine ⟨(List.map_injective_iff.mpr recordTerm_injective htop).symm,
    congrArg₂ Totals.mk hdeclarations.symm hnonConforming.symm, ?_, ?_, htimestamp.symm⟩
  · cases summary
    cases summary'
    simp_all
  · cases context
    cases context'
    simp_all [name_injective.eq_iff, label_injective.eq_iff]

theorem lookup_percentage : (r.receiptFields summary context timestamp).lookup "non_conforming_pct" =
    some (r.percentage?.elim .null fun p => (Json.real (Percentage.rounded p)).term) := rfl

/-- The receipt is one line, and the line says one object: twelve fields with different
names, among them what the run was given and all it found, in order. The percentage is the number
that it rounds to, and no other run has this line. -/
theorem receiptLine_says : ∃ line fields,
    (r.receiptLine summary context timestamp).toList = line ++ ['\n'] ∧
    (∀ c ∈ line, 0x20 ≤ c.toNat) ∧
    Json.read? line = some (.object fields) ∧
    Json.read? (line ++ ['\n']) = some (.object fields) ∧
    fields.length = 12 ∧ (fields.map Prod.fst).Nodup ∧
    fields.lookup "root" = some (.text context.root) ∧
    fields.lookup "args" = some (.object
      [("declarations", .text (match context.declarations with
          | .leading => "prefix"
          | .strict => "strict")),
        ("key_mode", .text (match context.keying with
          | .name => "name"
          | .fileAndName => "file")),
        ("top", .natural context.top)]) ∧
    fields.lookup "files_scanned" = some (.natural summary.scanned) ∧
    fields.lookup "files_failed" = some (.natural summary.failed) ∧
    fields.lookup "totals" = some (.object
      [("total_methods", .natural r.totals.declarations),
        ("non_conforming_methods", .natural r.totals.nonConforming)]) ∧
    fields.lookup "top" = some (.array (r.top.map fun method => .object
      [("name", .text method.name), ("file", .text method.file),
        ("complexity", .natural method.complexity)])) ∧
    fields.lookup "warnings" = some (.array (summary.warnings.map .text)) ∧
    (fields.lookup "status" = some (.text "partial") ↔ 0 < summary.failed) ∧
    (r.percentage? = none → fields.lookup "non_conforming_pct" = some .null) ∧
    (∀ p, r.percentage? = some p → (Percentage.rounded p).isFinite = true →
      ∃ x, fields.lookup "non_conforming_pct" = some (.number x) ∧
        x.nearest = Percentage.rounded p) ∧
    ∀ r' summary' context' timestamp',
      receiptLine r' summary' context' timestamp' = r.receiptLine summary context timestamp →
        r'.top = r.top ∧ r'.totals = r.totals ∧ summary' = summary ∧ context' = context ∧
          timestamp' = timestamp := by
  have hline := r.read?_receipt summary context timestamp [] (by simp)
  have hended := r.read?_receipt summary context timestamp ['\n'] (by simp [Json.Grammar.isSpace])
  rw [List.append_nil] at hline
  refine ⟨(r.receipt summary context timestamp).compact,
    r.receiptFields summary context timestamp, String.toList_ofList, Json.printable_compact _,
    hline, hended, rfl, ?_, rfl, rfl, rfl, rfl, rfl, rfl, rfl, ?_, ?_, ?_,
    fun _ _ _ _ h => eq_of_receiptLine_eq h⟩
  · rw [keys_receiptFields]
    decide
  · have hstatus : (r.receiptFields summary context timestamp).lookup "status" =
        some (.text summary.status.name) := rfl
    rw [hstatus, Option.some.injEq, Term.text.injEq, status_name_eq_partial_iff]
  · intro hpercentage
    rw [lookup_percentage, hpercentage, Option.elim_none]
  · intro p hpercentage hfinite
    refine ⟨(Json.Lexeme.real (Percentage.rounded p)).value, ?_,
      Binary64.nearest_value_real hfinite⟩
    rw [lookup_percentage, hpercentage, Option.elim_some, Json.term, if_pos hfinite]

end MethodSurvey.Report
