import Mathlib.Data.List.Induction
import MethodSurvey.Proofs.Scan.CodeLines

/-! Braces counted once a line against braces counted one by one. On lines with at most
one brace of each kind the two agree, unless a closing brace stands before an opening
one at a depth where the order on the line decides. -/

namespace MethodSurvey.Nesting

/-- The opening braces of a text less its closing ones. -/
def depth (s : List Char) : Int :=
  s.count '{' - s.count '}'

theorem depth_append (s t : List Char) : depth (s ++ t) = depth s + depth t := by
  simp only [depth, List.count_append]
  omega

/-- A line with at most one brace of each kind; `before` is the depth in front of it. -/
structure LaidOut (before : Int) (line : List Char) : Prop where
  opening : line.count '{' ≤ 1
  closing : line.count '}' ≤ 1
  order : ['}', '{'].Sublist line → before ≠ 0 ∧ before ≠ 1

/-- A closing brace of the line takes the depth from 1 to 0. -/
def Closes (before : Int) (line : List Char) : Prop :=
  ∃ u v, line = u ++ '}' :: v ∧ before + depth u = 1

def AllLaidOut (code : List (List Char)) : Prop :=
  ∀ k, (hk : k < code.length) → LaidOut (depth (code.take k).flatten) code[k]

instance (before : Int) (line : List Char) : Decidable (LaidOut before line) :=
  decidable_of_iff (line.count '{' ≤ 1 ∧ line.count '}' ≤ 1 ∧
      (['}', '{'].Sublist line → before ≠ 0 ∧ before ≠ 1))
    ⟨fun h => ⟨h.1, h.2.1, h.2.2⟩, fun h => ⟨h.1, h.2, h.3⟩⟩

instance (code : List (List Char)) : Decidable (AllLaidOut code) :=
  inferInstanceAs (Decidable (∀ k, (hk : k < code.length) →
    LaidOut (depth (code.take k).flatten) code[k]))

def ClosesOn (code : List (List Char)) (k : Nat) : Prop :=
  ∃ line, code[k]? = some line ∧ Closes (depth (code.take k).flatten) line

theorem contains_of_count_eq_one {c : Char} {s : List Char} (h : s.count c = 1) :
    s.contains c = true :=
  List.contains_iff_mem.mpr (List.count_pos_iff.mp (by omega))

theorem count_of_contains {c : Char} {s : List Char} (h : s.count c ≤ 1) :
    (s.count c : Int) = if s.contains c then 1 else 0 := by
  by_cases hz : s.count c = 0
  · have hn : s.contains c = false := by simpa using List.count_eq_zero.mp hz
    rw [hz, hn]
    rfl
  · rw [contains_of_count_eq_one (by omega)]
    simp only [if_true]
    omega

/-- The depth at the closing brace is the one that counting the opening brace of the
line first gives, as far as being 1 goes. -/
theorem LaidOut.depth_eq_one_iff {before : Int} {u v : List Char}
    (h : LaidOut before (u ++ '}' :: v)) :
    before + depth u = 1 ↔ before + (if (u ++ '}' :: v).contains '{' then 1 else 0) = 1 := by
  have ho := h.opening
  have hc := h.closing
  have hb := count_of_contains ho
  have hne : '}' ≠ '{' := by decide
  simp only [List.count_append, List.count_cons_self, List.count_cons_of_ne hne] at ho hc hb
  have hu : u.count '}' = 0 := by omega
  rw [depth, ← hb, hu]
  by_cases hv : v.count '{' = 0
  · rw [hv]
    omega
  · have hs : ['}', '{'].Sublist (u ++ '}' :: v) :=
      ((List.singleton_sublist.mpr (List.count_pos_iff.mp (by omega))).cons_cons '}').trans
        (List.sublist_append_right u _)
    have hd := h.order hs
    omega

theorem LaidOut.closes_iff {before : Int} {line : List Char} (h : LaidOut before line) :
    Closes before line ↔
      line.contains '}' = true ∧ before + (if line.contains '{' then 1 else 0) = 1 := by
  constructor
  · rintro ⟨u, v, rfl, hd⟩
    exact ⟨by simp, h.depth_eq_one_iff.mp hd⟩
  · rintro ⟨hc, hd⟩
    obtain ⟨u, v, rfl⟩ := List.append_of_mem (List.contains_iff_mem.mp hc)
    exact ⟨u, v, rfl, h.depth_eq_one_iff.mpr hd⟩

theorem LaidOut.leave_of_closes {t : Tracker} {line : List Char} (h : LaidOut t.depth line)
    (hc : Closes t.depth line) :
    (t.enter line).leave line =
      ({}, t.current.map fun name => (name, (t.enter line).complexity)) := by
  obtain ⟨hm, hd⟩ := h.closes_iff.mp hc
  exact Tracker.leave_of_closing hm (by rw [Tracker.depth_enter, hd])

theorem LaidOut.leave_of_not_closes {t : Tracker} {line : List Char} (h : LaidOut t.depth line)
    (hc : ¬ Closes t.depth line) :
    (t.enter line).leave line =
      ({ t.enter line with depth := t.depth + depth line }, none) := by
  have hn : ¬ (line.contains '}' = true ∧ (t.enter line).depth = 1) := by
    rw [Tracker.depth_enter, ← h.closes_iff]
    exact hc
  rw [Tracker.leave_of_not_closing hn, Tracker.depth_enter, depth, count_of_contains h.opening,
    count_of_contains h.closing, Int.add_sub_assoc]

theorem AllLaidOut.of_append {code rest : List (List Char)} (h : AllLaidOut (code ++ rest)) :
    AllLaidOut code := by
  intro k hk
  have hl := h k (by rw [List.length_append]; omega)
  rwa [List.take_append_of_le_length (Nat.le_of_lt hk), List.getElem_append_left hk] at hl

theorem AllLaidOut.last {code : List (List Char)} {line : List Char}
    (h : AllLaidOut (code ++ [line])) :
    LaidOut (depth code.flatten) line := by
  have hl := h code.length (by simp)
  rwa [List.take_left, List.getElem_concat_length rfl] at hl

theorem closesOn_append_iff {code : List (List Char)} {line : List Char} {k : Nat} :
    ClosesOn (code ++ [line]) k ↔
      ClosesOn code k ∨ k = code.length ∧ Closes (depth code.flatten) line := by
  rcases Nat.lt_trichotomy k code.length with hk | rfl | hk
  · have ht : (code ++ [line]).take k = code.take k :=
      List.take_append_of_le_length (Nat.le_of_lt hk)
    simp only [ClosesOn, List.getElem?_append_left hk, ht]
    exact ⟨.inl, fun h => h.resolve_right fun hh => absurd hh.1 (by omega)⟩
  · simp [ClosesOn]
  · have hn : (code ++ [line])[k]? = none := List.getElem?_eq_none (by simp; omega)
    have hn' : code[k]? = none := List.getElem?_eq_none (by omega)
    simp only [ClosesOn, hn, hn', reduceCtorEq, false_and, exists_false, false_or, false_iff]
    omega

/-- The tracker and the methods given out, by the braces of the code lines from the
declaration on. -/
inductive Agrees (name : List Char) (file : String) (code : List (List Char)) :
    Tracker → List MethodRecord → Prop
  | inside {t : Tracker} (ho : ∀ k, ¬ ClosesOn code k) (hc : t.current = some name)
      (hd : t.depth = depth code.flatten) : Agrees name file code t []
  | ended {k complexity : Nat} (hk : ClosesOn code k) :
      Agrees name file code {} [⟨String.ofList name, file, complexity⟩]

theorem agrees_leave (file : String) {name : List Char} {code : List (List Char)} {line : List Char}
    {t : Tracker} (hlaid : LaidOut (depth code.flatten) line) (ho : ∀ k, ¬ ClosesOn code k)
    (hc : t.current = some name) (hd : t.depth = depth code.flatten) :
    Agrees name file (code ++ [line]) ((t.enter line).leave line).1
      (((t.enter line).leave line).2.map fun (name, complexity) =>
        MethodRecord.mk (String.ofList name) file complexity).toList := by
  rw [← hd] at hlaid
  by_cases hcl : Closes t.depth line
  · rw [hlaid.leave_of_closes hcl, hc]
    exact .ended (closesOn_append_iff.mpr (.inr ⟨rfl, hd ▸ hcl⟩))
  · rw [hlaid.leave_of_not_closes hcl]
    refine .inside (fun k hk => ?_) hc ?_
    · rcases closesOn_append_iff.mp hk with hk | ⟨_, hk⟩
      · exact ho k hk
      · exact hcl (hd ▸ hk)
    · simp [hd, depth_append]

variable {profile : Profile} {name : List Char}

theorem follow_agrees (file : String) (t : Tracker) {declaration : List Char}
    {body : List (List Char)}
    (hname : profile.declaredName? declaration = some name)
    (hbody : ∀ line ∈ body, profile.declaredName? line = none)
    (hlaid : AllLaidOut (declaration :: body)) :
    Agrees name file (declaration :: body) (Scanner.follow profile file t (declaration :: body)).1
      ((Scanner.follow profile file t (declaration :: body)).2.filterMap Event.record?) := by
  induction body using List.reverseRecOn with
  | nil =>
    have hl : LaidOut (depth ([] : List (List Char)).flatten) declaration := hlaid 0 (by simp)
    have hstep := agrees_leave file (t := Tracker.declare name) hl
      (fun k hk => by simp [ClosesOn] at hk) rfl rfl
    simpa [Scanner.follow, hname, Tracker.step_some, Scanner.filterMap_record?_eventsOf] using hstep
  | append_singleton body line ih =>
    rw [← List.cons_append] at hlaid ⊢
    have hline : profile.declaredName? line = none := hbody line (by simp)
    have hi := ih (fun l hl => hbody l (List.mem_append_left _ hl)) hlaid.of_append
    rw [Scanner.follow_append, List.filterMap_append]
    generalize Scanner.follow profile file t (declaration :: body) = r at hi ⊢
    obtain ⟨t, events⟩ := r
    simp only [Scanner.follow, hline, List.append_nil, Scanner.filterMap_record?_eventsOf]
    generalize events.filterMap Event.record? = records at hi
    cases hi with
    | inside ho hc hd =>
      rw [Tracker.step_none_of_open hc]
      exact agrees_leave file hlaid.last ho hc hd
    | ended hk =>
      rw [Tracker.step_none_atRest]
      exact .ended (closesOn_append_iff.mpr (.inl hk))

theorem Agrees.isOpen_iff {file : String} {code : List (List Char)} {t : Tracker}
    {methods : List MethodRecord} (h : Agrees name file code t methods) :
    t.isOpen = true ↔ ∀ k, ¬ ClosesOn code k := by
  cases h with
  | inside ho hc _ => exact ⟨fun _ => ho, fun _ => by simp [Tracker.isOpen, hc]⟩
  | ended hk => exact ⟨fun h => by simp [Tracker.isOpen] at h, fun h => absurd hk (h _)⟩

theorem Agrees.of_isOpen {file : String} {code : List (List Char)} {t : Tracker}
    {methods : List MethodRecord} (h : Agrees name file code t methods) (ho : t.isOpen = true) :
    t.depth = depth code.flatten ∧ methods = [] := by
  cases h with
  | inside _ _ hd => exact ⟨hd, rfl⟩
  | ended _ => simp [Tracker.isOpen] at ho

theorem Agrees.of_not_isOpen {file : String} {code : List (List Char)} {t : Tracker}
    {methods : List MethodRecord} (h : Agrees name file code t methods) (ho : t.isOpen = false) :
    ∃ complexity, methods = [⟨String.ofList name, file, complexity⟩] := by
  cases h with
  | inside _ hc _ => simp [Tracker.isOpen, hc] at ho
  | ended _ => exact ⟨_, rfl⟩

/-- On conventionally laid out lines the tracker follows the braces one by one. However
many of the lines have gone by: while the method is open, its depth is the one that the
characters give; it stays open until a closing brace takes that depth from 1 to 0, and
then it has been given out, once. -/
theorem tracker_agrees_with_characters {declaration : List Char} {body : List (List Char)}
    (file : String) (s : Scanner) (lines : List (List Char))
    (hcode : Scanner.codeLines s.insideComment lines = declaration :: body)
    (hname : profile.declaredName? declaration = some name)
    (hbody : ∀ line ∈ body, profile.declaredName? line = none)
    (hlaid : AllLaidOut (declaration :: body)) (p : Nat)
    (hp : Scanner.codeLines s.insideComment (lines.take p) ≠ []) :
    let seen := Scanner.codeLines s.insideComment (lines.take p)
    let tracker := (Scanner.scan profile file s (lines.take p)).1.tracker
    let methods := (Scanner.scan profile file s (lines.take p)).2.filterMap Event.record?
    (tracker.isOpen = true ↔ ∀ k, ¬ ClosesOn seen k) ∧
      (tracker.isOpen = true → tracker.depth = depth seen.flatten ∧ methods = []) ∧
      (tracker.isOpen = false →
        ∃ complexity, methods = [⟨String.ofList name, file, complexity⟩]) := by
  intro seen tracker methods
  obtain ⟨rest, hr⟩ := Scanner.codeLines_take s.insideComment lines p
  obtain ⟨first, before, hseen⟩ := List.exists_cons_of_ne_nil hp
  rw [hcode, hseen, List.cons_append] at hr
  obtain ⟨rfl, rfl⟩ := List.cons.inj hr
  have hfirst : AllLaidOut (first :: before) := hlaid.of_append
  have hbefore : ∀ line ∈ before, profile.declaredName? line = none :=
    fun l hl => hbody l (List.mem_append_left _ hl)
  have ha := follow_agrees file s.tracker hname hbefore hfirst
  have hs := Scanner.scan_eq_follow profile file s (lines.take p)
  rw [← hseen, ← hs.1, ← hs.2] at ha
  exact ⟨ha.isOpen_iff, ha.of_isOpen, ha.of_not_isOpen⟩

def elseLines : List (List Char) :=
  ["public void f() \x7b", "  if (a) \x7b", "  \x7d else \x7b // b", "  \x7d", "\x7d"].map
    String.toList

/-- The line `} else {` is laid out at depth 2, where the order of its braces is
immaterial. -/
theorem tracker_agrees_on_else_lines :
    Scanner.codeLines false elseLines = "public void f() \x7b".toList ::
        ["if (a) \x7b", "\x7d else \x7b // b", "\x7d", "\x7d"].map String.toList ∧
      (⟨.java, .leading⟩ : Profile).declaredName? "public void f() \x7b".toList = some ['f'] ∧
      (∀ line ∈ ["if (a) \x7b", "\x7d else \x7b // b", "\x7d", "\x7d"].map String.toList,
        (⟨.java, .leading⟩ : Profile).declaredName? line = none) ∧
      AllLaidOut (Scanner.codeLines false elseLines) ∧
      Scanner.codeLines false (elseLines.take 3) ≠ [] ∧
      (Scanner.scan ⟨.java, .leading⟩ "A.java" {} (elseLines.take 3)).1.tracker.depth =
        depth (Scanner.codeLines false (elseLines.take 3)).flatten := by
  have hcode : Scanner.codeLines false elseLines = "public void f() \x7b".toList ::
      ["if (a) \x7b", "\x7d else \x7b // b", "\x7d", "\x7d"].map String.toList := by decide
  have hname :
      (⟨.java, .leading⟩ : Profile).declaredName? "public void f() \x7b".toList = some ['f'] := by
    decide
  have hbody : ∀ line ∈ ["if (a) \x7b", "\x7d else \x7b // b", "\x7d", "\x7d"].map String.toList,
      (⟨.java, .leading⟩ : Profile).declaredName? line = none := by decide
  have hlaid : AllLaidOut (Scanner.codeLines false elseLines) := by decide
  have hp : Scanner.codeLines false (elseLines.take 3) ≠ [] := by decide
  exact ⟨hcode, hname, hbody, hlaid, hp,
    ((tracker_agrees_with_characters "A.java" {} elseLines hcode hname hbody
      (hcode ▸ hlaid) 3 hp).2.1 (by decide)).1⟩

end MethodSurvey.Nesting
