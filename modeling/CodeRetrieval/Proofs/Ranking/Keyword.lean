import CodeRetrieval.Proofs.Ranking.Dominance
import CodeRetrieval.Proofs.Store.History

set_option autoImplicit false

namespace CodeRetrieval

/-- Whether a term occurs where it earns points: in the content or in one of the names. -/
def Searchable.shows (s : Searchable) (term : String) : Bool :=
  Text.contains s.content term || Text.contains s.entity term || Text.contains s.member term

theorem matchesTerms_eq (f : Fragment) (terms : List String) : matchesTerms f terms =
    terms.any fun t => f.searchable.shows t || Text.contains f.searchable.documentation t := rfl

/-- Terms occur in the documentation of a fragment, and nowhere else in it. -/
def Fragment.OnlyDocuments (f : Fragment) (terms : List String) : Prop :=
  matchesTerms f terms = true ∧ ∀ t ∈ terms, f.searchable.shows t = false

instance (f : Fragment) (terms : List String) : Decidable (f.OnlyDocuments terms) :=
  inferInstanceAs (Decidable (_ ∧ _))

namespace KeywordWeights

variable {w : KeywordWeights ℚ} {s : Searchable} {f : Fragment} {t : String} {terms : List String}

theorem points_eq_zero (h : s.shows t = false) : w.points s t = 0 := by
  simp only [Searchable.shows, Bool.or_eq_false_iff] at h
  obtain ⟨⟨hcontent, hentity⟩, hmember⟩ := h
  simp [points, hcontent, hentity, hmember]

variable (hcontent : 0 ≤ w.content) (hname : 0 ≤ w.name)

include hcontent hname

theorem points_nonneg : 0 ≤ w.points s t := by
  simp only [points, Nat.cast_zero]
  split_ifs <;> linarith

theorem points_le : w.points s t ≤ w.content + 2 * w.name := by
  simp only [points, Nat.cast_zero]
  split_ifs <;> linarith

theorem maxScore_nonneg (n : Nat) : 0 ≤ w.maxScore n := by
  simp only [maxScore, Nat.cast_ofNat]
  positivity

theorem score_eq : w.score f terms =
    (terms.map (w.points f.searchable)).sum / w.maxScore terms.length := by
  have hmost := maxScore_nonneg hcontent hname terms.length
  have hsum : terms.foldl (fun sum t => sum + w.points f.searchable t) 0 =
      (terms.map (w.points f.searchable)).sum := by
    rw [List.sum_eq_foldl, List.foldl_map]
  simp only [score, Nat.cast_zero, hsum]
  split
  · next hle => rw [le_antisymm hle hmost, div_zero]
  · rfl

theorem score_nonneg : 0 ≤ w.score f terms := by
  rw [score_eq hcontent hname]
  refine div_nonneg (List.sum_nonneg ?_) (maxScore_nonneg hcontent hname _)
  exact List.forall_mem_map.2 fun t _ => points_nonneg hcontent hname

theorem score_le_one : w.score f terms ≤ 1 := by
  have hsum : (terms.map (w.points f.searchable)).sum ≤ w.maxScore terms.length := by
    have hle := List.sum_le_card_nsmul (terms.map (w.points f.searchable))
      (w.content + 2 * w.name) (List.forall_mem_map.2 fun t _ => points_le hcontent hname)
    rw [List.length_map, nsmul_eq_mul] at hle
    simpa only [maxScore, Nat.cast_ofNat] using hle
  rw [score_eq hcontent hname]
  exact div_le_one_of_le₀ hsum (maxScore_nonneg hcontent hname _)

theorem score_eq_zero (h : ∀ t ∈ terms, f.searchable.shows t = false) : w.score f terms = 0 := by
  have hsum : (terms.map (w.points f.searchable)).sum = 0 :=
    List.sum_eq_zero (List.forall_mem_map.2 fun t ht => points_eq_zero (h t ht))
  rw [score_eq hcontent hname, hsum, zero_div]

theorem matchesTerms_of_score_ne_zero (h : w.score f terms ≠ 0) : matchesTerms f terms = true := by
  by_contra hnone
  refine h (score_eq_zero hcontent hname fun t ht => ?_)
  simp only [matchesTerms_eq, List.any_eq_true, Bool.or_eq_true, not_exists, not_and, not_or,
    Bool.not_eq_true] at hnone
  exact (hnone t ht).1

end KeywordWeights

namespace Entries

variable (w : KeywordWeights ℚ) (es : Entries) (wanted : List String) (flt : Filter)

/-- What a keyword search chooses from. -/
def candidates : List (Ranked ℚ) :=
  (es.fragments.filter fun f => flt.accepts f && matchesTerms f wanted).map fun f =>
    ⟨f, w.score f wanted⟩

theorem mem_candidates {r : Ranked ℚ} : r ∈ candidates w es wanted flt ↔
    r.fragment ∈ es.fragments ∧ flt.accepts r.fragment = true ∧
      matchesTerms r.fragment wanted = true ∧ w.score r.fragment wanted = r.score := by
  obtain ⟨f, score⟩ := r
  simp [candidates, and_assoc]

theorem keywordSearch_eq_take (terms : List String) (topK : Nat) :
    keywordSearch w es terms topK flt =
      (ranking (candidates w es (normalizeTerms terms) flt)).take topK := by
  cases hterms : normalizeTerms terms with
  | nil => simp [keywordSearch, candidates, hterms, matchesTerms, ranking]
  | cons t ts => simp [keywordSearch, candidates, hterms, rank]

theorem Sorted.candidates_ids {es : Entries} (h : es.Sorted) :
    (ids (candidates w es wanted flt)).Nodup := by
  simpa [ids, candidates, Function.comp_def] using h.filter_ids _

end Entries

/-- A score that is not zero needs a term that is found, and is a part of one. A search finds the
first of all candidates in order, and those that only their documentation makes candidates score
nothing and come behind all that score something. -/
theorem keywordSearch_ranked {m : Memory} (hm : m.Reachable) {w : KeywordWeights ℚ}
    (hcontent : 0 ≤ w.content) (hname : 0 ≤ w.name) (terms : List String) (topK : Nat)
    (flt : Filter) :
    let wanted := normalizeTerms terms
    (∀ f ts, w.score f ts ≠ 0 → matchesTerms f ts = true) ∧
      (∀ f ts, 0 ≤ w.score f ts ∧ w.score f ts ≤ 1) ∧
      ∃ found, found.Perm (m.entries.candidates w wanted flt) ∧ found.Pairwise Ranked.Before ∧
        m.entries.keywordSearch w terms topK flt = found.take topK ∧
        ∀ r ∈ found, r.fragment.OnlyDocuments wanted → r.score = 0 ∧
          ∀ s ∈ found, 0 < s.score → place found s.fragment.id < place found r.fragment.id := by
  intro wanted
  have hids := hm.sorted.candidates_ids w wanted flt
  have hperm := ranking_perm (m.entries.candidates w wanted flt)
  have hordered := ranking_pairwise hids
  refine ⟨fun f ts => KeywordWeights.matchesTerms_of_score_ne_zero hcontent hname,
    fun f ts => ⟨KeywordWeights.score_nonneg hcontent hname,
      KeywordWeights.score_le_one hcontent hname⟩,
    _, hperm, hordered, m.entries.keywordSearch_eq_take w flt terms topK, ?_⟩
  intro r hr hdocuments
  have hzero : r.score = 0 := by
    obtain ⟨_, _, _, hscore⟩ := (Entries.mem_candidates ..).1 (hperm.mem_iff.1 hr)
    exact hscore ▸ KeywordWeights.score_eq_zero hcontent hname hdocuments.2
  refine ⟨hzero, fun s hs hpos => ?_⟩
  refine place_lt_of_score_lt hordered ((hperm.map _).nodup_iff.2 hids) hs hr ?_
  rwa [hzero]

theorem keywordSearch_ranked_refund :
    let w : KeywordWeights ℚ := ⟨1, 2⟩
    let charge : Fragment := { noteOf "charge" with documentation := some "Refunds an order." }
    let m := ((Memory.empty .standard).history [(0, .upsert [noteOf "refund", charge] none)]).2
    m.Reachable ∧ 0 ≤ w.content ∧ 0 ≤ w.name ∧ charge.OnlyDocuments ["refund"] ∧
      w.score (noteOf "refund") ["refund"] = 1 / 5 ∧
      ∃ found, m.entries.keywordSearch w [" Refund"] 1 {} = found.take 1 ∧
        place found "refund" < place found "charge" := by
  intro w charge m
  have hm : m.Reachable := ⟨_, _, rfl⟩
  have hcontent : 0 ≤ w.content := by norm_num [w]
  have hname : 0 ≤ w.name := by norm_num [w]
  have hdocuments : charge.OnlyDocuments ["refund"] := by decide +kernel
  have hscore : w.score (noteOf "refund") ["refund"] = 1 / 5 := by decide +kernel
  have hwanted : normalizeTerms [" Refund"] = ["refund"] := by decide +kernel
  obtain ⟨_, _, found, hperm, _, htake, hlast⟩ :=
    keywordSearch_ranked hm hcontent hname [" Refund"] 1 {}
  rw [hwanted] at hperm hlast
  have hcharge : ⟨charge, 0⟩ ∈ found :=
    hperm.mem_iff.2 ((Entries.mem_candidates ..).2 (by decide +kernel))
  have hrefund : ⟨noteOf "refund", 1 / 5⟩ ∈ found :=
    hperm.mem_iff.2 ((Entries.mem_candidates ..).2 (by decide +kernel))
  obtain ⟨_, hbehind⟩ := hlast _ hcharge hdocuments
  exact ⟨hm, hcontent, hname, hdocuments, hscore, found, htake, hbehind _ hrefund (by norm_num)⟩

end CodeRetrieval
