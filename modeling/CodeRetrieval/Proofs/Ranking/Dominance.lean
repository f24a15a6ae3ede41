import CodeRetrieval.Proofs.Ranking.Fusion
import Mathlib.Algebra.Order.Field.Rat
import Mathlib.Tactic.Linarith
import Mathlib.Tactic.Positivity

set_option autoImplicit false

namespace CodeRetrieval

/-- The place of an id in a ranking, counted from zero; absent ids stand behind all others. -/
def place {σ : Type} (results : List (Ranked σ)) (id : String) : Nat := (ids results).idxOf id

theorem place_lt_of_score_lt {σ : Type} [LinearOrder σ] {results : List (Ranked σ)}
    (hordered : results.Pairwise Ranked.Before) (hids : (ids results).Nodup) {r s : Ranked σ}
    (hr : r ∈ results) (hs : s ∈ results) (hlt : s.score < r.score) :
    place results r.fragment.id < place results s.fragment.id := by
  obtain ⟨i, hi, rfl⟩ := List.getElem_of_mem hr
  obtain ⟨j, hj, rfl⟩ := List.getElem_of_mem hs
  have hplace : ∀ k (hk : k < results.length), place results results[k].fragment.id = k := by
    intro k hk
    have hself := hids.idxOf_getElem k (by simpa using hk)
    simpa [place] using hself
  rw [hplace i hi, hplace j hj]
  rcases Nat.lt_trichotomy i j with hij | rfl | hji
  · exact hij
  · exact absurd hlt (lt_irrefl _)
  · rcases List.pairwise_iff_getElem.1 hordered j i hj hi hji with hgt | ⟨heq, _⟩
    · exact absurd hlt (lt_asymm hgt)
    · exact absurd hlt (heq ▸ lt_irrefl _)

namespace Fusion

variable {p : Fusion ℚ} {weight : ℚ}

def earnedIn (acc : List (Ranked ℚ)) (id : String) : ℚ :=
  ((acc.find? (·.fragment.id == id)).map (·.score)).getD 0

theorem earnedIn_of_mem {acc : List (Ranked ℚ)} (h : (ids acc).Nodup) {r : Ranked ℚ}
    (hr : r ∈ acc) : earnedIn acc r.fragment.id = r.score := by
  induction acc with
  | nil => simp at hr
  | cons s acc ih =>
    obtain ⟨hs, hacc⟩ := List.nodup_cons.1 h
    rcases List.mem_cons.1 hr with rfl | hr
    · simp [earnedIn]
    · have hne : s.fragment.id ≠ r.fragment.id := fun heq =>
        hs (List.mem_map.2 ⟨r, hr, heq.symm⟩)
      simpa [earnedIn, hne] using ih hacc hr

theorem earnedIn_credit (f : Fragment) (points : ℚ) (acc : List (Ranked ℚ)) (id : String) :
    earnedIn (credit f points acc) id = earnedIn acc id + if f.id = id then points else 0 := by
  induction acc with
  | nil => by_cases hid : f.id = id <;> simp [credit, earnedIn, hid]
  | cons r acc ih =>
    by_cases hr : r.fragment.id = f.id
    · by_cases hid : f.id = id <;> simp [credit, earnedIn, hr, hid]
    · by_cases hid : r.fragment.id = id
      · have hne : f.id ≠ id := fun h => hr (hid.trans h.symm)
        rw [credit, if_neg hr]
        simp [earnedIn, hid, hne]
      · simpa [credit, earnedIn, hr, hid] using ih

/-- What a list gives to an id: something for its place, and nothing if it is absent. -/
def earned (p : Fusion ℚ) (weight : ℚ) (listed : List String) (first : Nat) (id : String) : ℚ :=
  if id ∈ listed then p.contribution weight (first + listed.idxOf id) else 0

theorem earned_cons (f : String) (listed : List String) (first : Nat) (id : String)
    (hf : f ∉ listed) : p.earned weight (f :: listed) first id =
      (if f = id then p.contribution weight first else 0) +
        p.earned weight listed (first + 1) id := by
  by_cases hid : f = id
  · subst hid
    simp [earned, hf]
  · by_cases hmem : id ∈ listed
    · simp [earned, hid, hmem, List.idxOf_cons_ne _ hid, Nat.add_comm, Nat.add_left_comm]
    · simp [earned, hid, hmem, Ne.symm hid]

theorem earnedIn_creditList (first : Nat) {acc : List (Ranked ℚ)} {fs : List Fragment}
    (h : (fs.map (·.id)).Nodup) (id : String) :
    earnedIn (p.creditList weight first acc fs) id =
      earnedIn acc id + p.earned weight (fs.map (·.id)) first id := by
  induction fs generalizing first acc with
  | nil => simp [creditList, earned]
  | cons f fs ih =>
    obtain ⟨hf, hfs⟩ := List.nodup_cons.1 h
    rw [creditList, ih (first + 1) hfs, earnedIn_credit, List.map_cons, earned_cons _ _ _ _ hf,
      add_assoc]

section Places

variable {semantic keyword : List (Ranked ℚ)} {r : Ranked ℚ} {u v : String}

theorem score_of_mem_scores (hsemantic : (ids semantic).Nodup) (hkeyword : (ids keyword).Nodup)
    (hr : r ∈ p.scores semantic keyword) :
    r.score = p.earned 1 (ids semantic) 0 r.fragment.id +
      p.earned p.keywordBoost (ids keyword) 0 r.fragment.id := by
  have hmap (results : List (Ranked ℚ)) :
      (results.map (·.fragment)).map (·.id) = ids results := by simp [ids, Function.comp_def]
  have hmem : r ∈ p.credited semantic keyword := (ranking_perm _).mem_iff.1 hr
  rw [← earnedIn_of_mem (nodup_ids_credited p semantic keyword) hmem, credited,
    earnedIn_creditList 0 (by rwa [hmap]), earnedIn_creditList 0 (by rwa [hmap]), hmap, hmap]
  simp [earnedIn]

variable (hk : 0 ≤ p.rrfK) (hweight : 0 < weight)

include hk hweight

theorem contribution_pos (n : Nat) : 0 < p.contribution weight n := by
  have hn : (0 : ℚ) ≤ n := n.cast_nonneg
  simp only [contribution, Nat.cast_one]
  positivity

theorem contribution_lt {i j : Nat} (h : i < j) :
    p.contribution weight j < p.contribution weight i := by
  have hi : (0 : ℚ) ≤ i := i.cast_nonneg
  have hij : (i : ℚ) < j := Nat.cast_lt.2 h
  simp only [contribution, Nat.cast_one]
  exact div_lt_div_of_pos_left hweight (by linarith) (by linarith)

theorem earned_nonneg (listed : List String) : 0 ≤ p.earned weight listed 0 u := by
  unfold earned
  split
  · exact (contribution_pos hk hweight _).le
  · exact le_refl 0

theorem earned_pos {listed : List String} (hu : u ∈ listed) : 0 < p.earned weight listed 0 u := by
  rw [earned, if_pos hu]
  exact contribution_pos hk hweight _

theorem earned_lt {listed : List String} (h : listed.idxOf u < listed.idxOf v) :
    p.earned weight listed 0 v < p.earned weight listed 0 u := by
  have hu : u ∈ listed := List.idxOf_lt_length_iff.1 (h.trans_le List.idxOf_le_length)
  by_cases hv : v ∈ listed
  · rw [earned, if_pos hv, earned, if_pos hu]
    exact contribution_lt hk hweight (Nat.add_lt_add_left h 0)
  · rw [earned, if_neg hv]
    exact earned_pos hk hweight hu

theorem earned_le {listed : List String} (h : listed.idxOf u ≤ listed.idxOf v) :
    p.earned weight listed 0 v ≤ p.earned weight listed 0 u := by
  rcases h.lt_or_eq with hlt | heq
  · exact (earned_lt hk hweight hlt).le
  · by_cases hv : v ∈ listed
    · have hlt := heq ▸ List.idxOf_lt_length_iff.2 hv
      have hu : u ∈ listed := List.idxOf_lt_length_iff.1 hlt
      rw [earned, if_pos hv, earned, if_pos hu, heq]
    · rw [earned, if_neg hv]
      exact earned_nonneg hk hweight listed

end Places

section Order

variable {semantic keyword : List (Ranked ℚ)}

theorem pairwise_scores (p : Fusion ℚ) (semantic keyword : List (Ranked ℚ)) :
    (p.scores semantic keyword).Pairwise Ranked.Before :=
  ranking_pairwise (nodup_ids_credited p semantic keyword)

/-- Scores as parts of the highest one: that becomes 1 and all others stay in order below it. -/
structure Scaled (results : List (Ranked ℚ)) : Prop where
  head : ∀ r ∈ results.head?, r.score = 1
  bounds : ∀ r ∈ results, 0 < r.score ∧ r.score ≤ 1
  ordered : results.Pairwise fun r s => s.score ≤ r.score

theorem Scaled.take {results : List (Ranked ℚ)} (h : Scaled results) (n : Nat) :
    Scaled (results.take n) := by
  refine ⟨fun r hr => ?_, fun r hr => h.bounds r (List.mem_of_mem_take hr), ?_⟩
  · rw [List.head?_take] at hr
    split at hr
    · simp at hr
    · exact h.head r hr
  · exact h.ordered.sublist (List.take_sublist n results)

theorem scaled_normalize {results : List (Ranked ℚ)} (hordered : results.Pairwise Ranked.Before)
    (hpos : ∀ r ∈ results, 0 < r.score) : Scaled (normalize results) := by
  cases results with
  | nil => exact ⟨by simp [normalize], by simp [normalize], by simp [normalize]⟩
  | cons top rest =>
    have htop : 0 < top.score := hpos top List.mem_cons_self
    have hle : (top :: rest).Pairwise fun r s => s.score ≤ r.score := by
      refine hordered.imp fun hbefore => ?_
      rcases hbefore with hlt | ⟨heq, _⟩
      · exact hlt.le
      · exact heq.ge
    have hmost : ∀ r ∈ top :: rest, r.score ≤ top.score := by
      intro r hr
      rcases List.mem_cons.1 hr with rfl | hr
      · exact le_refl _
      · exact (List.pairwise_cons.1 hle).1 r hr
    have hscaled : normalize (top :: rest) =
        (top :: rest).map fun r => ⟨r.fragment, r.score / top.score⟩ := if_pos htop
    rw [hscaled]
    refine ⟨?_, ?_, ?_⟩
    · simp [div_self htop.ne']
    · refine List.forall_mem_map.2 fun r hr => ⟨div_pos (hpos r hr) htop, ?_⟩
      exact (div_le_one htop).2 (hmost r hr)
    · exact List.pairwise_map.2 (hle.imp fun h => div_le_div_of_nonneg_right h htop.le)

variable (hk : 0 ≤ p.rrfK) (hboost : 0 < p.keywordBoost)
  (hsemantic : (ids semantic).Nodup) (hkeyword : (ids keyword).Nodup)

include hk hboost hsemantic hkeyword

theorem score_pos {r : Ranked ℚ} (hr : r ∈ p.scores semantic keyword) : 0 < r.score := by
  rw [score_of_mem_scores hsemantic hkeyword hr]
  rcases mem_ids_scores.1 (List.mem_map_of_mem (f := (·.fragment.id)) hr) with hin | hin
  · exact add_pos_of_pos_of_nonneg (earned_pos hk one_pos hin) (earned_nonneg hk hboost _)
  · exact add_pos_of_nonneg_of_pos (earned_nonneg hk one_pos _) (earned_pos hk hboost hin)

theorem score_lt_of_places {r s : Ranked ℚ} (hr : r ∈ p.scores semantic keyword)
    (hs : s ∈ p.scores semantic keyword)
    (hnear : place semantic r.fragment.id ≤ place semantic s.fragment.id)
    (hfound : place keyword r.fragment.id ≤ place keyword s.fragment.id)
    (hbetter : place semantic r.fragment.id < place semantic s.fragment.id ∨
      place keyword r.fragment.id < place keyword s.fragment.id) : s.score < r.score := by
  rw [score_of_mem_scores hsemantic hkeyword hr, score_of_mem_scores hsemantic hkeyword hs]
  rcases hbetter with hlt | hlt
  · exact add_lt_add_of_lt_of_le (earned_lt hk one_pos hlt) (earned_le hk hboost hfound)
  · exact add_lt_add_of_le_of_lt (earned_le hk one_pos hnear) (earned_lt hk hboost hlt)

end Order

/-- Of two fragments that are ranked at all, one that stands nowhere worse than the other and
somewhere better comes first. Equal scores are in the order of their ids, and scaled scores fall
from 1 without reaching 0. -/
theorem scores_dominance (hk : 0 ≤ p.rrfK) (hboost : 0 < p.keywordBoost)
    {semantic keyword : List (Ranked ℚ)} (hsemantic : (ids semantic).Nodup)
    (hkeyword : (ids keyword).Nodup) :
    let fused := p.scores semantic keyword
    (∀ u v, u ∈ ids semantic ∨ u ∈ ids keyword → v ∈ ids semantic ∨ v ∈ ids keyword →
      place semantic u ≤ place semantic v → place keyword u ≤ place keyword v →
      place semantic u < place semantic v ∨ place keyword u < place keyword v →
        u ∈ ids fused ∧ v ∈ ids fused ∧ place fused u < place fused v) ∧
      fused.Pairwise Ranked.Before ∧ ∀ limit, Scaled (p.fuse semantic keyword limit) := by
  intro fused
  have hordered : fused.Pairwise Ranked.Before := pairwise_scores p semantic keyword
  refine ⟨fun u v hu hv hnear hfound hbetter => ?_, hordered, fun limit => ?_⟩
  · have hu : u ∈ ids fused := mem_ids_scores.2 hu
    have hv : v ∈ ids fused := mem_ids_scores.2 hv
    obtain ⟨r, hr, rfl⟩ := List.mem_map.1 hu
    obtain ⟨s, hs, rfl⟩ := List.mem_map.1 hv
    refine ⟨hu, hv, place_lt_of_score_lt hordered (nodup_ids_scores p _ _) hr hs ?_⟩
    exact score_lt_of_places hk hboost hsemantic hkeyword hr hs hnear hfound hbetter
  · refine (scaled_normalize hordered fun r hr => ?_).take limit
    exact score_pos hk hboost hsemantic hkeyword hr

theorem scores_dominance_notes :
    let p : Fusion ℚ := ⟨true, 60, 11 / 10⟩
    let semantic : List (Ranked ℚ) := [⟨noteOf "a", 1⟩, ⟨noteOf "b", 1 / 2⟩]
    let keyword : List (Ranked ℚ) := [⟨noteOf "b", 1 / 4⟩, ⟨noteOf "c", 1 / 4⟩]
    0 ≤ p.rrfK ∧ 0 < p.keywordBoost ∧ (ids semantic).Nodup ∧ (ids keyword).Nodup ∧
      place semantic "b" = 1 ∧ place semantic "c" = 2 ∧ place keyword "b" < place keyword "c" ∧
      place (p.scores semantic keyword) "b" < place (p.scores semantic keyword) "c" ∧
      Scaled (p.fuse semantic keyword 2) := by
  intro p semantic keyword
  have hk : 0 ≤ p.rrfK := by norm_num [p]
  have hboost : 0 < p.keywordBoost := by norm_num [p]
  have hsemantic : (ids semantic).Nodup := by decide
  have hkeyword : (ids keyword).Nodup := by decide
  obtain ⟨hfirst, _, hscaled⟩ := scores_dominance hk hboost hsemantic hkeyword
  obtain ⟨_, _, hlt⟩ := hfirst "b" "c" (by decide) (by decide) (by decide) (by decide) (by decide)
  exact ⟨hk, hboost, hsemantic, hkeyword, by decide, by decide, by decide, hlt, hscaled 2⟩

end Fusion

end CodeRetrieval
