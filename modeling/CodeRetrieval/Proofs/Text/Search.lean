import CodeRetrieval.Text.Basic
import CodeRetrieval.Text.Casing

set_option autoImplicit false

namespace CodeRetrieval.Text

namespace Chars

theorem afterLead_isSome_iff (p s : List Char) : (afterLead p s).isSome = true ↔ p <+: s := by
  induction p generalizing s with
  | nil => simp [afterLead]
  | cons c p ih =>
    cases s with
    | nil => simp [afterLead]
    | cons d s =>
      by_cases h : c = d
      · simp [afterLead, h, ih, List.cons_prefix_cons]
      · simp [afterLead, h, List.cons_prefix_cons]

theorem afterLead_eq_some_iff {p s rest : List Char} : afterLead p s = some rest ↔ s = p ++ rest := by
  induction p generalizing s with
  | nil => simp [afterLead]
  | cons c p ih =>
    cases s with
    | nil => simp [afterLead]
    | cons d s =>
      by_cases h : c = d
      · simp [afterLead, h, ih]
      · simp [afterLead, h, Ne.symm h]

theorem cutAt_isSome_iff (p s : List Char) : (cutAt p s).isSome = true ↔ p <:+: s := by
  induction s with
  | nil => cases p <;> simp [cutAt]
  | cons c s ih =>
    rw [List.infix_cons_iff, ← afterLead_isSome_iff, ← ih, cutAt]
    cases h : afterLead p (c :: s) <;> simp

theorem prefix_append_cons_iff {p s t : List Char} {c : Char} (hc : c ∉ p) :
    p <+: s ++ c :: t ↔ p <+: s := by
  constructor
  · intro h
    have hlead : s ++ [c] <+: s ++ c :: t := ⟨t, by simp⟩
    rcases List.prefix_or_prefix_of_prefix h hlead with hshort | hlong
    · refine (List.prefix_concat_iff.1 hshort).resolve_left fun heq => hc ?_
      simp [heq]
    · exact absurd (hlong.subset (by simp)) hc
  · exact fun h => h.trans (List.prefix_append ..)

theorem infix_append_cons_iff {p s t : List Char} {c : Char} (hc : c ∉ p) :
    p <:+: s ++ c :: t ↔ p <:+: s ∨ p <:+: t := by
  induction s with
  | nil =>
    have hlead := prefix_append_cons_iff (s := []) (t := t) hc
    rw [List.nil_append] at hlead
    rw [List.nil_append, List.infix_cons_iff, hlead, List.prefix_nil, List.infix_nil]
  | cons d s ih =>
    rw [List.cons_append, List.infix_cons_iff, ← List.cons_append, prefix_append_cons_iff hc, ih,
      List.infix_cons_iff, or_assoc]

theorem mem_of_mem_trim (c : Char) (s : List Char) (h : c ∈ trim s) : c ∈ s := by
  simp only [trim, trimEnd, trimStart, List.mem_reverse] at h
  have h := (List.dropWhile_sublist _).subset h
  exact (List.dropWhile_sublist _).subset (List.mem_reverse.1 h)

end Chars

theorem startsWith_iff (s p : String) : startsWith s p = true ↔ p.toList <+: s.toList :=
  Chars.afterLead_isSome_iff p.toList s.toList

theorem endsWith_iff (s p : String) : endsWith s p = true ↔ p.toList <:+ s.toList := by
  rw [endsWith, Chars.beforeTail, Option.isSome_map, Chars.afterLead_isSome_iff,
    List.reverse_prefix]

theorem contains_iff (s p : String) : contains s p = true ↔ p.toList <:+: s.toList :=
  Chars.cutAt_isSome_iff p.toList s.toList

/-- Whether a text keeps a word apart from what stands around it: it neither has the word nor begins
or ends with one of its characters. -/
def divides (w m : String) : Bool :=
  m.toList.head?.any (· ∉ w.toList) && m.toList.getLast?.any (· ∉ w.toList) && !contains m w

theorem contains_divided {w m : String} (h : divides w m = true) (s t : String) :
    contains (s ++ m ++ t) w = (contains s w || contains t w) := by
  simp only [divides, Bool.and_eq_true, Option.any_eq_true, decide_eq_true_eq,
    Bool.not_eq_true', ← Bool.not_eq_true, contains_iff] at h
  obtain ⟨⟨⟨c, hhead, hc⟩, d, hlast, hd⟩, hnot⟩ := h
  obtain ⟨lead, hlead⟩ := List.getLast?_eq_some_iff.1 hlast
  rw [Bool.eq_iff_iff, Bool.or_eq_true, contains_iff, contains_iff, contains_iff,
    String.toList_append, String.toList_append, hlead, List.append_assoc, List.append_assoc,
    List.singleton_append, ← List.append_assoc, Chars.infix_append_cons_iff hd]
  refine or_congr_left ?_
  cases lead with
  | nil => simp
  | cons c' lead =>
    obtain rfl : c' = c := by simpa [hlead] using hhead
    rw [Chars.infix_append_cons_iff hc]
    refine or_iff_left fun hinner => hnot (hinner.trans ?_)
    exact hlead ▸ ⟨[c'], [d], by simp⟩

def IsAscii (s : String) : Prop := ∀ c ∈ s.toList, c.toNat < 128

theorem forall_ascii {P : Char → Prop} (h : ∀ n < 128, P (Char.ofNat n)) {c : Char}
    (hc : c.toNat < 128) : P c := by
  have hP := h c.toNat hc
  rwa [Char.ofNat_toNat] at hP

theorem toNat_toLower_lt {c : Char} (h : c.toNat < 128) : c.toLower.toNat < 128 :=
  forall_ascii (P := fun c => c.toLower.toNat < 128) (by decide) h

theorem toLower_toLower {c : Char} (h : c.toNat < 128) : c.toLower.toLower = c.toLower :=
  forall_ascii (P := fun c => c.toLower.toLower = c.toLower) (by decide) h

theorem toLower_of_le {c : Char} (h : 128 ≤ c.toNat) : c.toLower = c := by
  refine dif_neg fun hupper => ?_
  have hle : c.toNat ≤ 'Z'.toNat := hupper.2
  exact absurd (Nat.le_trans h hle) (by decide)

theorem isBlank_toLower (c : Char) : isBlank c.toLower = isBlank c := by
  by_cases hc : c.toNat < 128
  · exact forall_ascii (P := fun c => isBlank c.toLower = isBlank c) (by decide) hc
  · rw [toLower_of_le (by omega)]

theorem Chars.trim_map_toLower (s : List Char) :
    (trim s).map Char.toLower = trim (s.map Char.toLower) := by
  have hblank : isBlank ∘ Char.toLower = isBlank := funext isBlank_toLower
  simp only [trim, trimEnd, trimStart, List.dropWhile_map, ← List.map_reverse, hblank]

/-- In ASCII every character has its own lower case, whatever stands around it. -/
theorem lowerAfter_ascii (before s : List Char) (h : ∀ c ∈ s, c.toNat < 128) :
    lowerAfter before s = s.map Char.toLower := by
  induction s generalizing before with
  | nil => rfl
  | cons c s ih =>
    have hc : c.toNat < 128 := h c (by simp)
    have hsigma : c ≠ 'Σ' := by
      intro heq
      subst heq
      simp at hc
    have hdotted : c ≠ 'İ' := by
      intro heq
      subst heq
      simp at hc
    rw [lowerAfter, if_neg hsigma, if_neg hdotted, lowerChar, if_pos hc, List.map_cons,
      ih _ fun d hd => h d (by simp [hd])]

theorem lower_ascii {s : String} (h : IsAscii s) :
    (lower s).toList = s.toList.map Char.toLower := by
  rw [lower, String.toList_ofList, lowerAfter_ascii [] s.toList h]

theorem IsAscii.of_map_toLower {s t : String} (h : IsAscii s)
    (hst : t.toList.map Char.toLower = s.toList.map Char.toLower) : IsAscii t := by
  intro c hc
  have hlower : c.toLower ∈ s.toList.map Char.toLower := hst ▸ List.mem_map.2 ⟨c, hc, rfl⟩
  obtain ⟨d, hd, heq⟩ := List.mem_map.1 hlower
  rcases Nat.lt_or_ge c.toNat 128 with hlt | hle
  · exact hlt
  · rw [toLower_of_le hle] at heq
    exact heq ▸ toNat_toLower_lt (h d hd)

theorem IsAscii.trim {s : String} (h : IsAscii s) : IsAscii (trim s) := by
  intro c hc
  rw [Text.trim, String.toList_ofList] at hc
  exact h c (Chars.mem_of_mem_trim c s.toList hc)

theorem IsAscii.lower {s : String} (h : IsAscii s) :
    ∀ c ∈ (lower s).toList, c.toNat < 128 ∧ c.toLower = c := by
  intro c hc
  rw [lower_ascii h, List.mem_map] at hc
  obtain ⟨d, hd, rfl⟩ := hc
  exact ⟨toNat_toLower_lt (h d hd), toLower_toLower (h d hd)⟩

end CodeRetrieval.Text
