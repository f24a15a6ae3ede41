import CodeRetrieval.Proofs.Text.Lines
import Mathlib.Data.List.DropRight

/-!
Texts without the blanks at their ends. Line by line, nothing is lost by it but blank lines at the
end and blanks at the ends of lines.
-/

set_option autoImplicit false

namespace CodeRetrieval

section Lists

variable {α : Type} {p : α → Bool}

theorem rdropWhile_append (a b : List α) : (a ++ b).rdropWhile p =
    if (b.rdropWhile p).isEmpty then a.rdropWhile p else a ++ b.rdropWhile p := by
  simp only [List.rdropWhile, List.reverse_append, List.dropWhile_append, List.isEmpty_reverse]
  split
  · rfl
  · simp

theorem rdropWhile_cons (x : α) (xs : List α) : (x :: xs).rdropWhile p =
    if (xs.rdropWhile p).isEmpty then [x].rdropWhile p else x :: xs.rdropWhile p :=
  rdropWhile_append [x] xs

theorem rdropWhile_eq_take (xs : List α) : xs.rdropWhile p = xs.take (xs.rdropWhile p).length :=
  List.prefix_iff_eq_take.1 (List.rdropWhile_prefix p xs)

theorem getD_rdropWhile [DecidableEq α] (d : α) (xs : List α) (i : Nat) :
    (xs.rdropWhile (· == d)).getD i d = xs.getD i d := by
  induction xs generalizing i with
  | nil => rfl
  | cons x xs ih =>
    rw [rdropWhile_cons]
    split
    · next hnone =>
      rw [List.isEmpty_iff] at hnone
      have hrest := fun j => (ih j).symm
      simp only [hnone, List.getD_nil] at hrest
      rw [List.rdropWhile_singleton]
      cases i with
      | zero => by_cases hx : x = d <;> simp [hx]
      | succ i => by_cases hx : x = d <;> simpa [hx] using (hrest i).symm
    · cases i with
      | zero => rfl
      | succ i => simpa using ih i

end Lists

namespace Text

namespace Chars

theorem trimEnd_append (a b : List Char) :
    trimEnd (a ++ b) = if (trimEnd b).isEmpty then trimEnd a else a ++ trimEnd b :=
  rdropWhile_append a b

@[simp] theorem trimEnd_nil : trimEnd [] = [] := rfl

@[simp] theorem trimEnd_trimEnd (s : List Char) : trimEnd (trimEnd s) = trimEnd s :=
  List.rdropWhile_idempotent isBlank s

theorem trimEnd_eq_nil_iff {s : List Char} : trimEnd s = [] ↔ ∀ c ∈ s, isBlank c = true :=
  List.rdropWhile_eq_nil_iff

theorem trim_surrounded {lead trail : List Char} (hlead : ∀ c ∈ lead, isBlank c = true)
    (htrail : ∀ c ∈ trail, isBlank c = true) (s : List Char) :
    trim (lead ++ s ++ trail) = trim s := by
  have hend : trimEnd trail = [] := trimEnd_eq_nil_iff.2 htrail
  have hstart : trimStart (lead ++ s ++ trail) = trimStart (s ++ trail) := by
    simp [trimStart, List.dropWhile_append, List.dropWhile_eq_nil_iff.2 hlead]
  rw [trim, hstart, trim, trimStart, List.dropWhile_append]
  by_cases hs : s.dropWhile isBlank = []
  · rw [hs, List.dropWhile_eq_nil_iff.2 htrail, trimStart, hs]
    rfl
  · rw [if_neg (by simpa using hs), trimEnd_append, hend]
    rfl

theorem trimEnd_newline_cons (s : List Char) :
    trimEnd ('\n' :: s) = if (trimEnd s).isEmpty then [] else '\n' :: trimEnd s :=
  trimEnd_append ['\n'] s

theorem trimEnd_dropReturn (s : List Char) : trimEnd (dropReturn s) = trimEnd s := by
  unfold dropReturn
  split
  · next h =>
    obtain ⟨front, rfl⟩ := List.getLast?_eq_some_iff.1 h
    have hreturn : trimEnd ['\r'] = [] := by decide
    rw [List.dropLast_concat, trimEnd_append, hreturn]
    rfl
  · rfl

theorem intercalate_splitBy (s : List Char) :
    ['\n'].intercalate (splitBy (· == '\n') s) = s := by
  induction s with
  | nil => rfl
  | cons c s ih =>
    obtain ⟨piece, more, hpieces⟩ := List.exists_cons_of_ne_nil (splitBy_ne_nil (· == '\n') s)
    rw [hpieces] at ih
    by_cases hc : c = '\n'
    · simp [splitBy, hc, hpieces, List.intercalate_cons_cons, ih]
    · cases more <;> simp_all [splitBy, List.intercalate_cons_cons]

theorem bareLines_of_not_mem {s : List Char} (h : '\n' ∉ s) :
    (lines (trimEnd s)).map trimEnd = [trimEnd s].rdropWhile List.isEmpty := by
  rw [List.rdropWhile_singleton]
  by_cases hs : trimEnd s = []
  · simp [hs, lines, splitBy, closeLines]
  · have hmem : '\n' ∉ trimEnd s := fun hmem => h ((prefix_trimEnd s).mem hmem)
    simp [lines_of_not_mem hmem hs, hs]

/-- The lines of pieces that are put below each other, up to the last piece that is not blank. -/
theorem bareLines_intercalate {ps : List (List Char)} (h : ∀ p ∈ ps, '\n' ∉ p) :
    (lines (trimEnd (['\n'].intercalate ps))).map trimEnd =
      (ps.map trimEnd).rdropWhile List.isEmpty := by
  induction ps with
  | nil => rfl
  | cons p ps ih =>
    have hp := h p List.mem_cons_self
    have hps := ih fun q hq => h q (List.mem_cons_of_mem p hq)
    cases ps with
    | nil => simpa using bareLines_of_not_mem hp
    | cons q ps =>
      rw [List.intercalate_cons_cons, List.append_assoc, List.singleton_append, trimEnd_append,
        trimEnd_newline_cons, List.map_cons, rdropWhile_cons, ← hps]
      generalize trimEnd (['\n'].intercalate (q :: ps)) = rest at hps ⊢
      by_cases hrest : rest = []
      · subst hrest
        simpa [lines, splitBy, closeLines] using bareLines_of_not_mem hp
      · have hsome : lines rest ≠ [] := fun hnone => hrest (lines_eq_nil_iff.1 hnone)
        have hpiece : splitBy (· == '\n') p = [p] := splitBy_of_not_mem fun c hc => by
          simpa using fun heq : c = '\n' => hp (heq ▸ hc)
        simp [hrest, hsome, lines_append_cons, hpiece, trimEnd_dropReturn]

theorem bareLines_closeLines (ps : List (List Char)) :
    ((closeLines ps).map trimEnd).rdropWhile List.isEmpty =
      (ps.map trimEnd).rdropWhile List.isEmpty := by
  induction ps with
  | nil => rfl
  | cons p ps ih =>
    cases ps with
    | nil => by_cases hp : p = [] <;> simp [closeLines, hp, List.rdropWhile_singleton]
    | cons q ps =>
      have hclose : closeLines (p :: q :: ps) = dropReturn p :: closeLines (q :: ps) := rfl
      rw [hclose, List.map_cons, trimEnd_dropReturn, rdropWhile_cons, ih, ← rdropWhile_cons]
      rfl

theorem bareLines_trimEnd (s : List Char) : (lines (trimEnd s)).map trimEnd =
    ((lines s).map trimEnd).rdropWhile List.isEmpty := by
  have hpieces : ∀ p ∈ splitBy (· == '\n') s, '\n' ∉ p := fun p hp hmem => by
    simpa using not_sep_of_mem_splitBy hp _ hmem
  have hlines := bareLines_intercalate hpieces
  rw [intercalate_splitBy] at hlines
  rw [hlines, lines, bareLines_closeLines]

end Chars

def bareLines (s : String) : List String := (lines s).map trimEnd

theorem length_bareLines (s : String) : (bareLines s).length = lineCount s := by
  rw [bareLines, List.length_map, length_lines]

theorem bareLines_eq (s : String) :
    bareLines s = ((Chars.lines s.toList).map Chars.trimEnd).map String.ofList := by
  simp [bareLines, lines, trimEnd, Function.comp_def]

@[simp] theorem trimEnd_trimEnd (s : String) : trimEnd (trimEnd s) = trimEnd s := by
  simp [trimEnd]

theorem bareLines_eq_nil_iff {s : String} : bareLines s = [] ↔ s = "" := by
  rw [bareLines, List.map_eq_nil_iff, lines, List.map_eq_nil_iff, Chars.lines_eq_nil_iff,
    String.toList_eq_nil_iff]

theorem isBlankText_iff {s : String} : isBlankText s = true ↔ trimEnd s = "" := by
  rw [isBlankText, List.all_eq_true, ← Chars.trimEnd_eq_nil_iff, ← String.toList_inj, trimEnd]
  simp

theorem rdropWhile_ofList (ps : List (List Char)) :
    (ps.rdropWhile List.isEmpty).map String.ofList =
      (ps.map String.ofList).rdropWhile (· == "") := by
  induction ps with
  | nil => rfl
  | cons p ps ih =>
    rw [List.map_cons, rdropWhile_cons p, rdropWhile_cons (String.ofList p), ← ih,
      List.isEmpty_map, List.rdropWhile_singleton, List.rdropWhile_singleton]
    by_cases hp : p = [] <;> split <;> simp [hp]

/-- Without the blanks at its end a text loses its last blank lines. -/
theorem bareLines_trimEnd (s : String) :
    bareLines (trimEnd s) = (bareLines s).rdropWhile (· == "") := by
  rw [bareLines_eq, bareLines_eq, trimEnd, String.toList_ofList, Chars.bareLines_trimEnd,
    rdropWhile_ofList]

theorem bareLines_unlines {ls : List String} (h : ∀ l ∈ ls, '\n' ∉ l.toList) :
    bareLines (trimEnd (unlines ls)) = (ls.map trimEnd).rdropWhile (· == "") := by
  rw [bareLines_eq, trimEnd, String.toList_ofList, toList_unlines,
    Chars.bareLines_intercalate (List.forall_mem_map.2 h), rdropWhile_ofList, List.map_map,
    List.map_map]
  rfl

end Text

end CodeRetrieval
