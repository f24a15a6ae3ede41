import CodeRetrieval.Proofs.Text.Lines
import CodeRetrieval.Proofs.Text.Search

set_option autoImplicit false

namespace CodeRetrieval.Text

namespace Chars

variable {sep : Char → Bool}

theorem mem_splitBy_of_bounds {lead piece rest : List Char}
    (hlead : ∀ c ∈ lead.getLast?, sep c = true) (hpiece : ∀ c ∈ piece, sep c = false)
    (hrest : ∀ c ∈ rest.head?, sep c = true) : piece ∈ splitBy sep (lead ++ (piece ++ rest)) := by
  have hbehind : piece ∈ splitBy sep (piece ++ rest) := by
    cases rest with
    | nil => simp [splitBy_of_not_mem hpiece]
    | cons c rest =>
      rw [splitBy_append_cons (hrest c rfl), splitBy_of_not_mem hpiece]
      exact List.mem_append_left _ (List.mem_singleton_self piece)
  rcases List.eq_nil_or_concat lead with rfl | ⟨front, c, rfl⟩
  · exact hbehind
  · rw [List.concat_eq_append] at hlead ⊢
    rw [List.append_assoc, List.singleton_append, splitBy_append_cons (hlead c (by simp))]
    exact List.mem_append_right _ hbehind

theorem exists_bounds_of_mem_splitBy {s piece : List Char} (h : piece ∈ splitBy sep s) :
    ∃ lead rest, s = lead ++ (piece ++ rest) ∧ (∀ c ∈ lead.getLast?, sep c = true) ∧
      ∀ c ∈ rest.head?, sep c = true := by
  -- The pieces are what stands before the first separator and the pieces behind it.
  induction hlength : s.length using Nat.strong_induction_on generalizing s with
  | _ n ih =>
    cases hfirst : s.find? sep with
    | none =>
      have hsep : ∀ c ∈ s, sep c = false := by simpa using List.find?_eq_none.1 hfirst
      rw [splitBy_of_not_mem hsep, List.mem_singleton] at h
      exact ⟨[], [], by simp [h], by simp, by simp⟩
    | some c =>
      obtain ⟨hc, first, behind, rfl, hbefore⟩ := List.find?_eq_some_iff_append.1 hfirst
      have hbefore : ∀ d ∈ first, sep d = false := by simpa using hbefore
      rw [splitBy_append_cons hc, splitBy_of_not_mem hbefore, List.singleton_append,
        List.mem_cons] at h
      rcases h with rfl | h
      · exact ⟨[], c :: behind, rfl, by simp, by simpa using hc⟩
      · obtain ⟨lead, rest, rfl, hlead, hrest⟩ :=
          ih behind.length (by simp at hlength; omega) h rfl
        refine ⟨first ++ c :: lead, rest, by simp, ?_, hrest⟩
        cases lead with
        | nil => simpa using hc
        | cons d lead => simpa [List.getLast?_append, List.getLast?_cons] using hlead

end Chars

/-- A run of word characters in a text that no other word character touches. -/
structure HasWord (s w : String) : Prop where
  ne_empty : w ≠ ""
  isWord : ∀ c ∈ w.toList, isWord c = true
  stands : ∃ lead rest, s.toList = lead ++ (w.toList ++ rest) ∧
    (∀ c ∈ lead.getLast?, Text.isWord c = false) ∧ ∀ c ∈ rest.head?, Text.isWord c = false

theorem mem_words {s w : String} : w ∈ words s ↔ HasWord s w := by
  rw [words, List.mem_map]
  constructor
  · intro h
    obtain ⟨piece, hpiece, rfl⟩ := h
    obtain ⟨hpiece, hne⟩ := List.mem_filter.1 hpiece
    obtain ⟨lead, rest, hs, hlead, hrest⟩ := Chars.exists_bounds_of_mem_splitBy hpiece
    exact ⟨by simpa using hne, by simpa using Chars.not_sep_of_mem_splitBy hpiece, lead, rest,
      by simpa using hs, by simpa using hlead, by simpa using hrest⟩
  · intro h
    obtain ⟨lead, rest, hs, hlead, hrest⟩ := h.stands
    refine ⟨w.toList, List.mem_filter.2 ⟨?_, by simpa using h.ne_empty⟩, String.ofList_toList⟩
    rw [hs]
    refine Chars.mem_splitBy_of_bounds ?_ ?_ ?_
    · simpa using hlead
    · simpa using h.isWord
    · simpa using hrest

theorem HasWord.isInfix {s w : String} (h : HasWord s w) : w.toList <:+: s.toList := by
  obtain ⟨lead, rest, hs, -⟩ := h.stands
  exact ⟨lead, rest, by rw [hs, List.append_assoc]⟩

def isPlain (c : Char) : Bool := c.isLower || c.isDigit || c == '_'

theorem toNat_lt_of_isPlain {c : Char} (h : isPlain c = true) : c.toNat < 128 := by
  rw [isPlain, Bool.or_eq_true, Bool.or_eq_true, beq_iff_eq] at h
  rcases h with (h | h) | rfl
  · have hle : c.val ≤ 'z'.val := of_decide_eq_true (Bool.and_eq_true_iff.1 h).2
    exact Nat.lt_of_le_of_lt hle (by decide)
  · have hle : c.val ≤ '9'.val := of_decide_eq_true (Bool.and_eq_true_iff.1 h).2
    exact Nat.lt_of_le_of_lt hle (by decide)
  · decide

theorem isUpper_of_isLower {c : Char} (h : c.isLower = true) : c.isUpper = false := by
  have hplain : isPlain c = true := by simp [isPlain, h]
  exact forall_ascii (P := fun c => c.isLower = true → c.isUpper = false) (by decide)
    (toNat_lt_of_isPlain hplain) h

theorem toLower_of_isPlain {c : Char} (h : isPlain c = true) : c.toLower = c :=
  forall_ascii (P := fun c => isPlain c = true → c.toLower = c) (by decide)
    (toNat_lt_of_isPlain h) h

theorem lower_of_isPlain {s : String} (h : ∀ c ∈ s.toList, isPlain c = true) : lower s = s := by
  have hascii : IsAscii s := fun c hc => toNat_lt_of_isPlain (h c hc)
  rw [← String.toList_inj, lower_ascii hascii,
    List.map_congr_left fun c hc => toLower_of_isPlain (h c hc), List.map_id']

end CodeRetrieval.Text
