import CodeRetrieval.Proofs.Store.Like
import CodeRetrieval.Proofs.Store.Reads
import CodeRetrieval.Proofs.Text.Search

set_option autoImplicit false

namespace CodeRetrieval

namespace Fragment

def searchedTexts (f : Fragment) : List String :=
  [f.content] ++ f.entityName.toList ++ f.memberName.toList ++ f.documentation.toList

theorem mem_searchedTexts {f : Fragment} {s : String} : s ∈ f.searchedTexts ↔
    s = f.content ∨ f.entityName = some s ∨ f.memberName = some s ∨ f.documentation = some s := by
  simp [searchedTexts]

def IsAscii (f : Fragment) : Prop := ∀ s ∈ f.searchedTexts, Text.IsAscii s

def isCandidate (f : Fragment) (terms : List String) : Bool :=
  terms.any fun t => f.searchedTexts.any fun s => Like.like s ("%" ++ Like.escape t ++ "%")

end Fragment

theorem normalizeTerms_ascii {terms : List String} (h : ∀ t ∈ terms, Text.IsAscii t) :
    ∀ t ∈ normalizeTerms terms, t ≠ "" ∧ ∀ c ∈ t.toList, c.toNat < 128 ∧ c.toLower = c := by
  intro t ht
  simp only [normalizeTerms, List.mem_filter, List.mem_map, bne_iff_ne, ne_eq] at ht
  obtain ⟨⟨u, hu, rfl⟩, hne⟩ := ht
  exact ⟨hne, (h u hu).trim.lower⟩

theorem like_of_contains_lower {s t : String} (hs : Text.IsAscii s)
    (ht : ∀ c ∈ t.toList, c.toNat < 128 ∧ c.toLower = c)
    (h : Text.contains (Text.lower s) t = true) :
    Like.like s ("%" ++ Like.escape t ++ "%") = true := by
  rw [Text.contains_iff, Text.lower_ascii hs] at h
  have hterm : t.toList.map Like.fold = t.toList := by
    rw [List.map_congr_left (g := id), List.map_id]
    intro c hc
    obtain ⟨hlt, hlower⟩ := ht c hc
    rw [Like.fold, if_pos hlt, hlower, id]
  have htext : s.toList.map Like.fold = s.toList.map Char.toLower := by
    refine List.map_congr_left ?_
    intro c hc
    rw [Like.fold, if_pos (hs c hc)]
  rw [Like.like_infix, hterm, htext]
  exact h

theorem contains_lower_empty {t : String} (h : t ≠ "") :
    Text.contains (Text.lower "") t = false := by
  rw [← Bool.not_eq_true, Text.contains_iff]
  intro hinfix
  have hnil : t.toList = [] := List.infix_nil.1 hinfix
  exact h (String.toList_eq_nil_iff.1 hnil)

theorem any_like_of_optional {name : Option String} {texts : List String} {t : String}
    (hsub : ∀ s, name = some s → s ∈ texts) (hascii : ∀ s ∈ texts, Text.IsAscii s) (hne : t ≠ "")
    (ht : ∀ c ∈ t.toList, c.toNat < 128 ∧ c.toLower = c)
    (h : Text.contains (Text.lower (name.getD "")) t = true) :
    texts.any (fun s => Like.like s ("%" ++ Like.escape t ++ "%")) = true := by
  cases name with
  | none =>
    rw [Option.getD_none, contains_lower_empty hne] at h
    contradiction
  | some s =>
    have hs := hsub s rfl
    exact List.any_eq_true.2 ⟨s, hs, like_of_contains_lower (hascii s hs) ht h⟩

/-- In ASCII every fragment with one of the terms is looked at. -/
theorem candidate_of_matchesTerms {f : Fragment} {terms : List String} (hf : f.IsAscii)
    (hterms : ∀ t ∈ terms, Text.IsAscii t) (h : matchesTerms f (normalizeTerms terms) = true) :
    f.isCandidate (normalizeTerms terms) = true := by
  simp only [matchesTerms, List.any_eq_true, Bool.or_eq_true] at h
  obtain ⟨t, ht, h⟩ := h
  obtain ⟨hne, hchars⟩ := normalizeTerms_ascii hterms t ht
  refine List.any_eq_true.2 ⟨t, ht, ?_⟩
  obtain ((hcontent | hentity) | hmember) | hdocumentation := h
  · have hin := Fragment.mem_searchedTexts.2 (.inl (Eq.refl f.content))
    exact List.any_eq_true.2 ⟨_, hin, like_of_contains_lower (hf _ hin) hchars hcontent⟩
  · refine any_like_of_optional (fun s hs => ?_) hf hne hchars hentity
    exact Fragment.mem_searchedTexts.2 (.inr (.inl hs))
  · refine any_like_of_optional (fun s hs => ?_) hf hne hchars hmember
    exact Fragment.mem_searchedTexts.2 (.inr (.inr (.inl hs)))
  · refine any_like_of_optional (fun s hs => ?_) hf hne hchars hdocumentation
    exact Fragment.mem_searchedTexts.2 (.inr (.inr (.inr hs)))

theorem mem_rank_of_length_le {results : List (Ranked Float)} {topK : Nat}
    (h : results.length ≤ topK) (r : Ranked Float) : r ∈ rank topK results ↔ r ∈ results := by
  have hlen := (ranking_perm results).length_eq
  rw [rank, List.take_of_length_le (by omega), (ranking_perm results).mem_iff]

def scored (w : KeywordWeights Float) (terms : List String) (fs : List Fragment) :
    List (Ranked Float) :=
  fs.map fun f => ⟨f, w.score f terms⟩

theorem scored_ids (w : KeywordWeights Float) (terms : List String) (fs : List Fragment) :
    (scored w terms fs).map (·.fragment.id) = fs.map (·.id) := by
  simp only [scored, List.map_map]
  rfl

def Entries.matching (es : Entries) (terms : List String) (flt : Filter) : List Fragment :=
  es.fragments.filter fun f => flt.accepts f && matchesTerms f terms

def Table.matching (t : Table) (terms : List String) (flt : Filter) : List Fragment :=
  ((t.rows.filter fun r => r.passes flt && r.isCandidate terms).map Row.fragment).filter
    (matchesTerms · terms)

namespace Agree

variable {m : Memory} {t : Table}

theorem matching_perm (h : Agree m t) (terms : List String) (flt : Filter) :
    (t.matching terms flt).Perm
      ((m.entries.matching terms flt).filter (·.isCandidate terms)) := by
  have hrows : ∀ r ∈ t.rows, (r.passes flt && r.isCandidate terms) =
      (flt.accepts r.fragment && r.fragment.isCandidate terms) := by
    intro r hr
    rw [Row.passes_eq (h.faithful r hr)]
    rfl
  have hperm := (h.filter_perm (q := fun f => flt.accepts f && f.isCandidate terms) hrows).filter
    (matchesTerms · terms)
  rw [List.filter_filter] at hperm
  rw [Entries.matching, List.filter_filter]
  refine hperm.trans (List.Perm.of_eq (List.filter_congr ?_))
  intro f _
  -- The tables look for candidates first, and the filter of the matching comes after.
  cases flt.accepts f <;> cases matchesTerms f terms <;> simp

theorem matching_perm_ascii (h : Agree m t) {terms : List String} (flt : Filter)
    (hfragments : ∀ f ∈ m.entries.fragments, f.IsAscii) (hterms : ∀ u ∈ terms, Text.IsAscii u) :
    (t.matching (normalizeTerms terms) flt).Perm
      (m.entries.matching (normalizeTerms terms) flt) := by
  have hall : ∀ f ∈ m.entries.matching (normalizeTerms terms) flt,
      f.isCandidate (normalizeTerms terms) = true := by
    intro f hf
    simp only [Entries.matching, List.mem_filter, Bool.and_eq_true] at hf
    obtain ⟨hmem, _, hmatch⟩ := hf
    exact candidate_of_matchesTerms (hfragments f hmem) hterms hmatch
  have hperm := h.matching_perm (normalizeTerms terms) flt
  rwa [List.filter_eq_self.2 hall] at hperm

theorem matching_ids (h : Agree m t) (terms : List String) (flt : Filter) :
    ((m.entries.matching terms flt).map (·.id)).Nodup :=
  h.sorted.filter_ids _

theorem table_keywordSearch (h : Agree m t) {terms : List String} (topK : Nat) (flt : Filter)
    (hterms : (normalizeTerms terms).isEmpty = false) :
    Store.keywordSearch t terms topK flt = .ok (rank topK
      (scored m.weights (normalizeTerms terms) (t.matching (normalizeTerms terms) flt))) := by
  have hfaithful : ∀ r ∈ t.rows.filter (fun r => r.passes flt &&
      r.isCandidate (normalizeTerms terms)), r.Faithful :=
    fun r hr => h.faithful r (List.mem_of_mem_filter hr)
  simp only [Store.keywordSearch, Table.keywordSearch, hterms, Row.mapM_toFragment hfaithful,
    h.weights]
  rfl

theorem memory_keywordSearch {terms : List String} (topK : Nat) (flt : Filter)
    (hterms : (normalizeTerms terms).isEmpty = false) :
    Store.keywordSearch m terms topK flt = .ok (rank topK
      (scored m.weights (normalizeTerms terms)
        (m.entries.matching (normalizeTerms terms) flt))) := by
  simp only [Store.keywordSearch, Entries.keywordSearch, hterms]
  rfl

/-- A keyword search of the tables finds no more than one of the entries, and in ASCII the same. -/
theorem keywordSearch_agree (h : Agree m t) (terms : List String) (topK : Nat) (flt : Filter) :
    ∃ rs qs, Store.keywordSearch m terms topK flt = .ok rs ∧
      Store.keywordSearch t terms topK flt = .ok qs ∧
      (Store.count m ≤ topK → ∀ q ∈ qs, q ∈ rs) ∧
      ((∀ f ∈ m.entries.fragments, f.IsAscii) → (∀ u ∈ terms, Text.IsAscii u) → qs = rs) := by
  cases hterms : (normalizeTerms terms).isEmpty with
  | true =>
    refine ⟨[], [], ?_, ?_, fun _ _ hq => hq, fun _ _ => rfl⟩
    · simp [Store.keywordSearch, Entries.keywordSearch, hterms]
    · simp [Store.keywordSearch, Table.keywordSearch, hterms]
  | false =>
    refine ⟨_, _, memory_keywordSearch topK flt hterms, h.table_keywordSearch topK flt hterms,
      ?_, ?_⟩
    · -- With room for all fragments nothing that matches is cut off.
      intro hcount q hq
      have hlen : (scored m.weights (normalizeTerms terms)
          (m.entries.matching (normalizeTerms terms) flt)).length ≤ topK := by
        have hle := List.length_filter_le (fun f => flt.accepts f &&
          matchesTerms f (normalizeTerms terms)) m.entries.fragments
        have hall : m.entries.fragments.length = Store.count m := List.length_map ..
        simp only [scored, List.length_map, Entries.matching]
        omega
      rw [mem_rank_of_length_le hlen]
      obtain ⟨f, hf, rfl⟩ := List.mem_map.1 (mem_of_mem_rank hq)
      have hf := List.mem_of_mem_filter ((h.matching_perm _ flt).mem_iff.1 hf)
      exact List.mem_map.2 ⟨f, hf, rfl⟩
    · intro hfragments hascii
      have hperm := h.matching_perm_ascii flt hfragments hascii
      refine (rank_eq_of_perm topK (hperm.symm.map _) ?_).symm
      exact (scored_ids m.weights _ _).symm ▸ h.matching_ids _ flt

end Agree

end CodeRetrieval
