import CodeRetrieval.Chunk.Prose
import CodeRetrieval.Proofs.Text.Trim
import Mathlib.Data.List.GetD

set_option autoImplicit false

namespace CodeRetrieval.Chunk

open Text

def BlankAt (bare : List String) (i : Nat) : Prop := bare.getD i "" = ""

/-- Ranges from the line `low` on, one behind the other, such that every line outside them is
blank. -/
inductive Covers (bare : List String) : Nat → List (Nat × Nat) → Prop where
  | nil {low : Nat} (rest : ∀ i, low ≤ i → BlankAt bare i) : Covers bare low []
  | cons {low first stop : Nat} {ranges : List (Nat × Nat)} (behind : low ≤ first)
      (pos : first < stop) (between : ∀ i, low ≤ i → i < first → BlankAt bare i)
      (later : Covers bare stop ranges) : Covers bare low ((first, stop) :: ranges)

namespace Covers

variable {bare : List String} {low : Nat} {ranges : List (Nat × Nat)}

theorem lowered {start : Nat} (h : Covers bare low ranges) (hle : start ≤ low)
    (hblank : ∀ i, start ≤ i → i < low → BlankAt bare i) : Covers bare start ranges := by
  have hjoin {P : Nat → Prop} (hP : ∀ i, low ≤ i → P i → BlankAt bare i) :
      ∀ i, start ≤ i → P i → BlankAt bare i := fun i hi hPi =>
    (Nat.lt_or_ge i low).elim (hblank i hi) fun hlow => hP i hlow hPi
  cases h with
  | nil rest => exact .nil fun i hi => hjoin (fun i hi (_ : True) => rest i hi) i hi trivial
  | cons behind pos between later =>
    exact .cons (hle.trans behind) pos (hjoin between) later

theorem bounds (h : Covers bare low ranges) : ∀ r ∈ ranges, low ≤ r.1 ∧ r.1 < r.2 := by
  induction h with
  | nil => simp
  | cons behind pos _ _ ih =>
    intro r hr
    rcases List.mem_cons.1 hr with rfl | hr
    · exact ⟨behind, pos⟩
    · have hlater := ih r hr
      omega

theorem increasing (h : Covers bare low ranges) : ranges.Pairwise fun r t => r.2 ≤ t.1 := by
  induction h with
  | nil => exact .nil
  | cons _ _ _ later ih => exact .cons (fun r hr => (later.bounds r hr).1) ih

theorem countP_eq_one (h : Covers bare low ranges) {i : Nat} (hi : low ≤ i)
    (hsome : ¬BlankAt bare i) : ranges.countP (fun r => r.1 ≤ i && i < r.2) = 1 := by
  induction h with
  | nil rest => exact absurd (rest i hi) hsome
  | @cons low first stop ranges behind pos between later ih =>
    have hfirst : first ≤ i := by
      by_contra hbefore
      exact hsome (between i hi (by omega))
    rcases Nat.lt_or_ge i stop with hin | hbehind
    · have hlater : ranges.countP (fun r => r.1 ≤ i && i < r.2) = 0 := by
        rw [List.countP_eq_zero]
        intro r hr
        have hr := later.bounds r hr
        simp
        omega
      simp [hlater, hfirst, hin]
    · have hnot : ¬i < stop := by omega
      simp [hnot, ih hbehind]

theorem congr {bare' : List String} (hblank : ∀ i, BlankAt bare i → BlankAt bare' i)
    (h : Covers bare low ranges) :
    Covers bare' low ranges := by
  induction h with
  | nil rest => exact .nil fun i hi => hblank i (rest i hi)
  | cons behind pos between _ ih =>
    exact .cons behind pos (fun i hi hlt => hblank i (between i hi hlt)) ih

end Covers

section Paragraphs

variable {ls rest : List String} {opened : Option Nat} {i low : Nat}

theorem blankAt_of_drop_eq_nil (h : ls.drop i = []) {j : Nat} (hj : i ≤ j) :
    BlankAt (ls.map trimEnd) j := by
  have hlength := List.drop_eq_nil_iff.1 h
  rw [BlankAt, List.getD_eq_default]
  simp
  omega

theorem blankAt_iff_of_drop_eq_cons {line : String} (h : ls.drop i = line :: rest) :
    BlankAt (ls.map trimEnd) i ↔ isBlankText line = true := by
  have hline : ls[i]? = some line := by rw [← List.head?_drop, h, List.head?_cons]
  rw [isBlankText_iff, BlankAt, List.getD_eq_getElem?_getD, List.getElem?_map, hline]
  rfl

theorem drop_succ_of_drop_eq_cons {line : String} (h : ls.drop i = line :: rest) :
    ls.drop (i + 1) = rest := by
  rw [← List.drop_drop, h, List.drop_one, List.tail_cons]

theorem covers_paragraphsFrom (hrest : ls.drop i = rest) (hlow : low ≤ opened.getD i)
    (hopened : ∀ s ∈ opened, s < i)
    (hblank : ∀ j, low ≤ j → j < opened.getD i → BlankAt (ls.map trimEnd) j) :
    Covers (ls.map trimEnd) low (paragraphsFrom opened i rest) := by
  induction rest generalizing i opened low with
  | nil =>
    have hend : Covers (ls.map trimEnd) i [] := .nil fun j hj => blankAt_of_drop_eq_nil hrest hj
    cases opened with
    | none => exact hend.lowered hlow hblank
    | some s => exact .cons hlow (hopened s rfl) hblank hend
  | cons line rest ih =>
    have hnext := drop_succ_of_drop_eq_cons hrest
    have hline := blankAt_iff_of_drop_eq_cons hrest
    unfold paragraphsFrom
    split
    · next hb =>
      -- A blank line ends the run at hand, and the next one starts behind it.
      have hlater : Covers (ls.map trimEnd) i (paragraphsFrom none (i + 1) rest) := by
        refine ih hnext (Nat.le_succ i) (by simp) fun j hi hj => ?_
        have hlt : j < i + 1 := hj
        obtain rfl : j = i := by omega
        exact hline.2 hb
      cases opened with
      | none => exact hlater.lowered hlow hblank
      | some s => exact .cons hlow (hopened s rfl) hblank hlater
    · refine ih hnext hlow (fun s hs => ?_) hblank
      cases Option.mem_some_iff.1 hs
      cases opened with
      | none => exact Nat.lt_succ_self i
      | some s => exact Nat.lt_succ_of_lt (hopened s rfl)

theorem not_blankAt_of_mem_paragraphsFrom (hrest : ls.drop i = rest)
    (hopened : ∀ s ∈ opened, ∀ j, s ≤ j → j < i → ¬BlankAt (ls.map trimEnd) j) :
    ∀ r ∈ paragraphsFrom opened i rest, ∀ j, r.1 ≤ j → j < r.2 → ¬BlankAt (ls.map trimEnd) j := by
  have hclosed : ∀ r ∈ (opened.map fun s => (s, i)).toList, ∀ j, r.1 ≤ j → j < r.2 →
      ¬BlankAt (ls.map trimEnd) j := by
    intro r hr
    obtain ⟨s, hs, rfl⟩ := Option.map_eq_some_iff.1 (Option.mem_toList.1 hr)
    exact hopened s hs
  -- The run at hand has held no blank line so far, and a blank line would end it.
  induction rest generalizing i opened with
  | nil => exact hclosed
  | cons line rest ih =>
    have hnext := drop_succ_of_drop_eq_cons hrest
    have hline := blankAt_iff_of_drop_eq_cons hrest
    unfold paragraphsFrom
    split
    · next hb =>
      intro r hr
      rcases List.mem_append.1 hr with hr | hr
      · exact hclosed r hr
      · exact ih hnext (by simp) (by simp) r hr
    · next hb =>
      have hopened' : ∀ s ∈ some (opened.getD i), ∀ j, s ≤ j → j < i + 1 →
          ¬BlankAt (ls.map trimEnd) j := by
        intro s hs j hsj hj
        cases Option.mem_some_iff.1 hs
        rcases Nat.lt_succ_iff_lt_or_eq.1 hj with hj | rfl
        · cases opened with
          | none =>
            have hle : i ≤ j := hsj
            omega
          | some s => exact hopened s rfl j hsj hj
        · exact fun hblank => hb (hline.1 hblank)
      refine ih hnext hopened' fun r hr => ?_
      obtain ⟨s, hs, rfl⟩ := Option.map_eq_some_iff.1 (Option.mem_toList.1 hr)
      exact hopened' s hs

theorem covers_paragraphs (ls : List String) :
    Covers (ls.map trimEnd) 0 (paragraphsFrom none 0 ls) :=
  covers_paragraphsFrom List.drop_zero le_rfl (fun _ hs => nomatch hs)
    fun j _ hj => absurd hj (Nat.not_lt_zero j)

theorem not_blankAt_of_mem_paragraphs (ls : List String) : ∀ r ∈ paragraphsFrom none 0 ls,
    ∀ j, r.1 ≤ j → j < r.2 → ¬BlankAt (ls.map trimEnd) j :=
  not_blankAt_of_mem_paragraphsFrom List.drop_zero fun _ hs => nomatch hs

end Paragraphs

section Groups

variable {bare : List String} {most low : Nat} {group : Nat × Nat} {ranges : List (Nat × Nat)}

theorem Covers.groupFrom (h : Covers bare low (group :: ranges)) :
    Covers bare low (groupFrom most group ranges) := by
  induction ranges generalizing group low with
  | nil => exact h
  | cons r ranges ih =>
    obtain ⟨s, e⟩ := r
    cases h with
    | cons behind pos between later =>
      unfold Chunk.groupFrom
      split
      · exact .cons behind pos between (ih later)
      · cases later with
        | cons behind' pos' _ later' =>
          exact ih (.cons behind (by dsimp only at *; omega) between later')

theorem Covers.groups (h : Covers bare low ranges) : Covers bare low (groups most ranges) := by
  cases ranges with
  | nil => exact h
  | cons r ranges => exact h.groupFrom

theorem of_mem_groupFrom (hgroup : group ∈ ranges ∨ group.2 - group.1 ≤ most)
    {later : List (Nat × Nat)} (hlater : later ⊆ ranges) :
    ∀ g ∈ groupFrom most group later, g ∈ ranges ∨ g.2 - g.1 ≤ most := by
  induction later generalizing group with
  | nil => simpa [groupFrom] using hgroup
  | cons r later ih =>
    obtain ⟨hr, hmore⟩ := List.cons_subset.1 hlater
    unfold groupFrom
    split
    · intro g hg
      rcases List.mem_cons.1 hg with rfl | hg
      · exact hgroup
      · exact ih (.inl hr) hmore g hg
    · next hfits => exact ih (.inr (Nat.not_lt.1 hfits)) hmore

theorem of_mem_groups : ∀ g ∈ groups most ranges, g ∈ ranges ∨ g.2 - g.1 ≤ most := by
  cases ranges with
  | nil => simp [groups]
  | cons r ranges =>
    exact of_mem_groupFrom (.inl List.mem_cons_self) (List.subset_cons_self r ranges)

end Groups

section Headers

theorem lines_of_mem_headersFrom (fenced : Bool) (i : Nat) (ls : List String) :
    ∀ h ∈ headersFrom fenced i ls, i ≤ h.line ∧ h.line < i + ls.length := by
  induction ls generalizing fenced i with
  | nil => simp [headersFrom]
  | cons line ls ih =>
    have hlater (fenced : Bool) : ∀ h ∈ headersFrom fenced (i + 1) ls,
        i ≤ h.line ∧ h.line < i + (line :: ls).length := by
      intro h hh
      have hh := ih fenced (i + 1) h hh
      simp only [List.length_cons]
      omega
    unfold headersFrom
    split
    · exact hlater _
    · split
      · exact hlater _
      · split
        · refine List.forall_mem_cons.2 ⟨?_, hlater _⟩
          simp
        · exact hlater _

theorem pairwise_headersFrom (fenced : Bool) (i : Nat) (ls : List String) :
    (headersFrom fenced i ls).Pairwise fun h k => h.line < k.line := by
  induction ls generalizing fenced i with
  | nil => exact .nil
  | cons line ls ih =>
    unfold headersFrom
    split
    · exact ih _ _
    · split
      · exact ih _ _
      · split
        · exact .cons (fun k hk => (lines_of_mem_headersFrom _ _ _ k hk).1) (ih _ _)
        · exact ih _ _

def headerRanges (stop : Nat) : List Header → List (Nat × Nat)
  | [] => []
  | [h] => [(h.line, stop)]
  | h :: next :: rest => (h.line, next.line) :: headerRanges stop (next :: rest)

/-- No line behind the first header is left out. -/
theorem covers_headerRanges (bare : List String) {h : Header} {headers : List Header}
    (hsorted : (h :: headers).Pairwise fun h k => h.line < k.line)
    (hstop : ∀ k ∈ h :: headers, k.line < bare.length) :
    Covers bare h.line (headerRanges bare.length (h :: headers)) := by
  induction headers generalizing h with
  | nil =>
    have hline := hstop h List.mem_cons_self
    exact .cons le_rfl hline (fun i _ _ => by omega) (.nil fun i hi => List.getD_eq_default _ _ hi)
  | cons next headers ih =>
    obtain ⟨hnext, hlater⟩ := List.pairwise_cons.1 hsorted
    exact .cons le_rfl (hnext next List.mem_cons_self) (fun i _ _ => by omega)
      (ih hlater fun k hk => hstop k (List.mem_cons_of_mem h hk))

end Headers

end CodeRetrieval.Chunk
