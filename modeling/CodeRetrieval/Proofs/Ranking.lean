import CodeRetrieval.Proofs.Sorting
import CodeRetrieval.Ranking.Fusion

set_option autoImplicit false

namespace CodeRetrieval

variable {σ : Type}

theorem nodup_ids_rank [LT σ] [DecidableLT σ] {results : List (Ranked σ)} (topK : Nat)
    (h : (results.map (·.fragment.id)).Nodup) :
    ((rank topK results).map (·.fragment.id)).Nodup :=
  (((ranking_perm results).map _).nodup_iff.2 h).sublist ((List.take_sublist _ _).map _)

namespace Fusion

def All (P : Fragment → Prop) (results : List (Ranked σ)) : Prop := ∀ r ∈ results, P r.fragment

variable {P : Fragment → Prop}

theorem all_credit [NatCast σ] [Add σ] {f : Fragment} {points : σ} {acc : List (Ranked σ)}
    (hf : P f) (h : All P acc) : All P (credit f points acc) := by
  induction acc with
  | nil => exact List.forall_mem_singleton.2 hf
  | cons r acc ih =>
    obtain ⟨hr, hacc⟩ := List.forall_mem_cons.1 h
    unfold credit
    by_cases hid : r.fragment.id = f.id
    · rw [if_pos hid]
      exact List.forall_mem_cons.2 ⟨hr, hacc⟩
    · rw [if_neg hid]
      exact List.forall_mem_cons.2 ⟨hr, ih hacc⟩

theorem all_creditList [NatCast σ] [Add σ] [Div σ] (p : Fusion σ) (weight : σ) (place : Nat)
    {acc : List (Ranked σ)} {fs : List Fragment} (hacc : All P acc) (hfs : ∀ f ∈ fs, P f) :
    All P (p.creditList weight place acc fs) := by
  induction fs generalizing place acc with
  | nil => exact hacc
  | cons f fs ih =>
    obtain ⟨hf, hfs⟩ := List.forall_mem_cons.1 hfs
    exact ih (place + 1) (all_credit hf hacc) hfs

theorem all_normalize [NatCast σ] [Div σ] [LT σ] [DecidableLT σ] {results : List (Ranked σ)}
    (h : All P results) : All P (normalize results) := by
  cases results with
  | nil => exact h
  | cons top rest =>
    simp only [normalize]
    split
    · intro r hr
      obtain ⟨s, hs, rfl⟩ := List.mem_map.1 hr
      exact h s hs
    · exact h

def credited [NatCast σ] [Add σ] [Div σ] (p : Fusion σ) (semantic keyword : List (Ranked σ)) :
    List (Ranked σ) :=
  let first := p.creditList ((1 : Nat) : σ) 0 [] (semantic.map (·.fragment))
  p.creditList p.keywordBoost 0 first (keyword.map (·.fragment))

theorem scores_eq [NatCast σ] [Add σ] [Div σ] [LT σ] [DecidableLT σ] (p : Fusion σ)
    (semantic keyword : List (Ranked σ)) :
    p.scores semantic keyword = ranking (p.credited semantic keyword) := rfl

theorem all_fuse [NatCast σ] [Add σ] [Mul σ] [Div σ] [LT σ] [DecidableLT σ] (p : Fusion σ)
    {semantic keyword : List (Ranked σ)} (limit : Nat)
    (hsemantic : All P semantic) (hkeyword : All P keyword) :
    All P (p.fuse semantic keyword limit) := by
  have hfirst : All P (p.creditList ((1 : Nat) : σ) 0 [] (semantic.map (·.fragment))) :=
    all_creditList p _ 0 (fun _ h => nomatch h) (List.forall_mem_map.2 hsemantic)
  have hboth : All P (p.credited semantic keyword) :=
    all_creditList p p.keywordBoost 0 hfirst (List.forall_mem_map.2 hkeyword)
  have hscores : All P (p.scores semantic keyword) :=
    fun r hr => hboth r ((ranking_perm _).mem_iff.1 hr)
  exact fun r hr => all_normalize hscores r (List.mem_of_mem_take hr)

theorem fragments_credit [NatCast σ] [Add σ] (f : Fragment) (points : σ) (acc : List (Ranked σ)) :
    (credit f points acc).map (·.fragment) = acc.map (·.fragment) ++
      if f.id ∈ acc.map (·.fragment.id) then [] else [f] := by
  induction acc with
  | nil => rfl
  | cons r acc ih =>
    by_cases hid : r.fragment.id = f.id
    · simp [credit, hid]
    · simp [credit, hid, Ne.symm hid, ih]

theorem ids_credit [NatCast σ] [Add σ] (f : Fragment) (points : σ) (acc : List (Ranked σ)) :
    (credit f points acc).map (·.fragment.id) = acc.map (·.fragment.id) ++
      if f.id ∈ acc.map (·.fragment.id) then [] else [f.id] := by
  have h := congrArg (List.map (·.id)) (fragments_credit f points acc)
  simp only [List.map_map, List.map_append] at h
  refine h.trans (congrArg _ ?_)
  split <;> rfl

theorem nodup_ids_creditList [NatCast σ] [Add σ] [Div σ] (p : Fusion σ) (weight : σ) (place : Nat)
    {acc : List (Ranked σ)} (fs : List Fragment) (h : (acc.map (·.fragment.id)).Nodup) :
    ((p.creditList weight place acc fs).map (·.fragment.id)).Nodup := by
  induction fs generalizing place acc with
  | nil => exact h
  | cons f fs ih =>
    refine ih (place + 1) ?_
    rw [ids_credit]
    split
    · simpa using h
    · rename_i hnew
      exact List.nodup_append.2 ⟨h, List.nodup_singleton _,
        fun a ha b hb heq => hnew (List.mem_singleton.1 hb ▸ heq ▸ ha)⟩

theorem ids_normalize [NatCast σ] [Div σ] [LT σ] [DecidableLT σ] (results : List (Ranked σ)) :
    (normalize results).map (·.fragment.id) = results.map (·.fragment.id) := by
  cases results with
  | nil => rfl
  | cons top rest =>
    simp only [normalize]
    split
    · exact List.map_map
    · rfl

theorem nodup_ids_credited [NatCast σ] [Add σ] [Div σ] (p : Fusion σ)
    (semantic keyword : List (Ranked σ)) :
    ((p.credited semantic keyword).map (·.fragment.id)).Nodup :=
  nodup_ids_creditList p _ 0 _ (nodup_ids_creditList p _ 0 _ List.nodup_nil)

theorem nodup_ids_scores [NatCast σ] [Add σ] [Div σ] [LT σ] [DecidableLT σ] (p : Fusion σ)
    (semantic keyword : List (Ranked σ)) :
    ((p.scores semantic keyword).map (·.fragment.id)).Nodup :=
  ((ranking_perm _).map _).nodup_iff.2 (nodup_ids_credited p semantic keyword)

theorem nodup_ids_fuse [NatCast σ] [Add σ] [Mul σ] [Div σ] [LT σ] [DecidableLT σ] (p : Fusion σ)
    (semantic keyword : List (Ranked σ)) (limit : Nat) :
    ((p.fuse semantic keyword limit).map (·.fragment.id)).Nodup := by
  have hscores := nodup_ids_scores p semantic keyword
  rw [← ids_normalize] at hscores
  exact hscores.sublist ((List.take_sublist _ _).map _)

end Fusion

end CodeRetrieval
