import CodeRetrieval.Index.Build
import CodeRetrieval.Proofs.Chunk.Origin
import CodeRetrieval.Proofs.Placing
import CodeRetrieval.Proofs.Sorting

set_option autoImplicit false

namespace CodeRetrieval

namespace Schedule

theorem inPlace_zipIdx {β : Type} (xs : List β) :
    inPlace (xs.zipIdx.map fun (x, i) => (i, x)) = xs := by
  have hsorted : (xs.zipIdx.map fun (x, i) => (i, x)).Pairwise
      fun a b => decide (a.1 ≤ b.1) = true := by
    rw [List.pairwise_map]
    refine (pairwise_zipIdx xs).imp ?_
    intro a b hlt
    exact decide_eq_true (Nat.le_of_lt hlt)
  rw [inPlace, List.mergeSort_of_pairwise hsorted, List.map_map]
  exact List.zipIdx_map_fst 0 xs

theorem results_perm {α β : Type} (s : Schedule) (run : α → β) (tasks : List α) :
    (s.results run tasks).Perm ((tasks.map run).zipIdx.map fun (x, i) => (i, x)) := by
  have hnumbered : (tasks.map run).zipIdx.map (fun (x, i) => (i, x)) =
      tasks.zipIdx.map fun (t, i) => (i, run t) := by
    rw [List.zipIdx_map, List.map_map]
    rfl
  rw [hnumbered]
  exact s.perm _

theorem collect_eq {α β : Type} (s : Schedule) (run : α → β) (tasks : List α) :
    s.collect run tasks = tasks.map run := by
  have hperm := s.results_perm run tasks
  have hsame : (s.results run tasks).mergeSort (fun a b => a.1 ≤ b.1) =
      ((tasks.map run).zipIdx.map fun (x, i) => (i, x)).mergeSort fun a b => a.1 ≤ b.1 := by
    refine mergeSort_eq_of_perm (SortOrder.line.on Prod.fst) hperm ?_
    intro a ha b hb hab hba
    have hnumbers : (((tasks.map run).zipIdx.map fun (x, i) => (i, x)).map (·.1)).Nodup := by
      rw [List.map_map]
      change ((tasks.map run).zipIdx.map Prod.snd).Nodup
      rw [List.zipIdx_map_snd]
      exact List.nodup_range'
    simp only [decide_eq_true_eq] at hab hba
    exact List.inj_on_of_nodup_map hnumbers (hperm.mem_iff.1 ha) (hperm.mem_iff.1 hb)
      (Nat.le_antisymm hab hba)
  calc s.collect run tasks = inPlace ((tasks.map run).zipIdx.map fun (x, i) => (i, x)) :=
        congrArg (List.map _) hsame
    _ = tasks.map run := inPlace_zipIdx _

end Schedule

namespace Chunk

theorem flatMap_ofDocument (limits : ChunkLimits) (known : KnownNames) (artifacts : List Artifact) :
    (artifacts.filter (!·.isStructural)).flatMap (ofDocument limits known) =
      artifacts.flatMap (ofDocument limits known) := by
  induction artifacts with
  | nil => rfl
  | cons a artifacts ih =>
    cases h : a.isStructural with
    | true => simp [h, ofDocument_of_isStructural h, ih]
    | false => simp [h, ih]

end Chunk

/-- Files may be read and cut in any order. -/
theorem IndexBuild.fragments_ofArtifacts (reading chunking : Schedule) (limits : ChunkLimits)
    (reader : Source.Reader) (artifacts : List Artifact) :
    (IndexBuild.ofArtifacts reading chunking limits reader artifacts).fragments =
      Chunk.ofArtifacts limits reader artifacts := by
  simp only [IndexBuild.ofArtifacts, Schedule.collect_eq, Chunk.ofArtifacts, Chunk.readings,
    List.map_append, List.flatten_append, List.map_map]
  rw [← Chunk.flatMap_ofDocument, List.flatMap_def, List.flatMap_def, List.map_map]
  rfl

end CodeRetrieval
