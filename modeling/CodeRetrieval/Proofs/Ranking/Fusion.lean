import CodeRetrieval.Proofs.Distinct
import CodeRetrieval.Proofs.Ranking
import CodeRetrieval.Store.Memory
import Mathlib.Algebra.Group.Nat.Defs

set_option autoImplicit false

namespace CodeRetrieval

variable {σ : Type}

abbrev ids (results : List (Ranked σ)) : List String := results.map (·.fragment.id)

namespace Fusion

section Credits

variable [NatCast σ] [Add σ] [Div σ] (p : Fusion σ) (weight : σ) (place : Nat)

theorem fragments_creditList {acc : List (Ranked σ)} {seen : List String}
    (hseen : ∀ id, id ∈ seen ↔ id ∈ ids acc) (fs : List Fragment) :
    (p.creditList weight place acc fs).map (·.fragment) =
      acc.map (·.fragment) ++ distinctFrom (·.id) seen fs := by
  induction fs generalizing place acc seen with
  | nil => simp [creditList, distinctFrom]
  | cons f fs ih =>
    have hids : ids (credit f (p.contribution weight place) acc) =
        ids acc ++ if f.id ∈ ids acc then [] else [f.id] := ids_credit f _ acc
    by_cases hf : f.id ∈ ids acc
    · have hold : seen.contains f.id = true := by simpa using (hseen f.id).2 hf
      have hrest : ∀ id, id ∈ seen ↔ id ∈ ids (credit f (p.contribution weight place) acc) := by
        simp [hids, hf, hseen]
      rw [creditList, ih (place + 1) hrest, fragments_credit, distinctFrom, if_pos hf, if_pos hold,
        List.append_nil]
    · have hnew : ¬seen.contains f.id = true := by simpa [hseen] using hf
      have hrest : ∀ id, id ∈ f.id :: seen ↔
          id ∈ ids (credit f (p.contribution weight place) acc) := by
        simp [hids, hf, hseen, or_comm]
      rw [creditList, ih (place + 1) hrest, fragments_credit, distinctFrom, if_neg hf, if_neg hnew,
        List.append_assoc, List.singleton_append]

theorem mem_ids_creditList {acc : List (Ranked σ)} {fs : List Fragment} {id : String} :
    id ∈ ids (p.creditList weight place acc fs) ↔ id ∈ ids acc ∨ id ∈ fs.map (·.id) := by
  have hself : ∀ id, id ∈ ids acc ↔ id ∈ ids acc := fun _ => Iff.rfl
  have h := congrArg (List.map (·.id)) (p.fragments_creditList weight place hself fs)
  simp only [List.map_map, List.map_append] at h
  rw [ids, show (_ : List (Ranked σ)).map (·.fragment.id) = _ from h, List.mem_append,
    mem_keys_distinctFrom]
  exact or_and_left.trans (and_iff_left (Classical.em _))

theorem mem_ids_credited {semantic keyword : List (Ranked σ)} {id : String} :
    id ∈ ids (p.credited semantic keyword) ↔ id ∈ ids semantic ∨ id ∈ ids keyword := by
  simp [credited, mem_ids_creditList]

end Credits

section Lossless

variable [NatCast σ] [Add σ] [Div σ] [LT σ] [DecidableLT σ] {p : Fusion σ}
  {semantic keyword : List (Ranked σ)} {r : Ranked σ} {id : String}

theorem mem_ids_scores :
    id ∈ ids (p.scores semantic keyword) ↔ id ∈ ids semantic ∨ id ∈ ids keyword := by
  rw [scores_eq, ((ranking_perm _).map _).mem_iff]
  exact p.mem_ids_credited

end Lossless

end Fusion

section Hybrid

variable (m : Memory) (req : HybridRequest)

end Hybrid

def noteOf (id : String) : Fragment :=
  ⟨id, id, "text", .proseDocument, id, 1, 1, none, none, none, [], []⟩

end CodeRetrieval
