import CodeRetrieval.Proofs.Index.Build

set_option autoImplicit false

namespace CodeRetrieval

namespace Schedule

/-- A run of numbered tasks, of which any may be the next to finish: the results as they come in. -/
inductive Finishing {α β : Type} (run : α → β) : List (Nat × α) → List (Nat × β) → Prop where
  | done : Finishing run [] []
  | next {before after : List (Nat × α)} {results : List (Nat × β)} (i : Nat) (task : α) :
      Finishing run (before ++ after) results →
      Finishing run (before ++ (i, task) :: after) ((i, run task) :: results)

variable {α β : Type} {run : α → β} {tasks : List (Nat × α)} {results : List (Nat × β)}

theorem Finishing.perm (h : Finishing run tasks results) :
    results.Perm (tasks.map fun (i, task) => (i, run task)) := by
  induction h with
  | done => exact .refl _
  | next i task _ ih =>
    rw [List.map_append, List.map_cons]
    refine (ih.cons _).trans ?_
    rw [List.map_append]
    exact List.perm_middle.symm

theorem finishing_of_perm (h : results.Perm (tasks.map fun (i, task) => (i, run task))) :
    Finishing run tasks results := by
  induction results generalizing tasks with
  | nil =>
    have hnone : tasks = [] := by simpa using h.nil_eq.symm
    rw [hnone]
    exact .done
  | cons r results ih =>
    obtain ⟨⟨i, task⟩, hmem, hr⟩ := List.mem_map.1 (h.mem_iff.1 List.mem_cons_self)
    obtain ⟨before, after, htasks⟩ := List.append_of_mem hmem
    subst htasks
    subst hr
    refine .next i task (ih ?_)
    rw [List.map_append, List.map_cons] at h
    rw [List.map_append]
    exact (h.trans List.perm_middle).cons_inv

open Classical in
noncomputable def ofPerm {α : Type} {xs ys : List α} (h : ys.Perm xs) : Schedule where
  arrange {β} zs := if same : ∃ e : α = β, zs = e ▸ xs then same.choose ▸ ys else zs
  perm {β} zs := by
    split
    · next same =>
      have hzs := same.choose_spec
      generalize same.choose = e at hzs ⊢
      subst e
      subst hzs
      exact h
    · exact .refl zs

theorem arrange_ofPerm {α : Type} {xs ys : List α} (h : ys.Perm xs) :
    (ofPerm h).arrange xs = ys := by
  have same : ∃ e : α = α, xs = e ▸ xs := ⟨rfl, rfl⟩
  exact dif_pos same

/-- The results that some schedule gives are those of a run in which the tasks finish one by one in
any order. -/
theorem exists_results_iff (run : α → β) (tasks : List α) (results : List (Nat × β)) :
    (∃ s : Schedule, s.results run tasks = results) ↔
      Finishing run (tasks.zipIdx.map fun (task, i) => (i, task)) results := by
  have hnumbered : (tasks.zipIdx.map fun (task, i) => (i, task)).map
      (fun (i, task) => (i, run task)) = tasks.zipIdx.map fun (task, i) => (i, run task) := by
    rw [List.map_map]
    rfl
  constructor
  · intro hs
    obtain ⟨s, rfl⟩ := hs
    refine finishing_of_perm ?_
    rw [hnumbered]
    exact s.perm _
  · intro h
    have hperm := h.perm
    rw [hnumbered] at hperm
    exact ⟨ofPerm hperm, arrange_ofPerm hperm⟩

end Schedule

theorem fragments_of_finishing (limits : ChunkLimits) (reader : Source.Reader)
    (artifacts : List Artifact) {read : List (Nat × Source.Reading)}
    {made : List (Nat × List Fragment)} :
    let accepted := artifacts.filter (Chunk.accepts limits)
    let readings := Schedule.inPlace read
    Schedule.Finishing (fun a : Artifact => reader a.path a.text)
      ((accepted.filter (·.isStructural)).zipIdx.map fun (a, i) => (i, a)) read →
    Schedule.Finishing (ChunkTask.run limits (Chunk.knownNames readings))
      ((readings.map ChunkTask.code ++
        (accepted.filter (!·.isStructural)).map ChunkTask.document).zipIdx.map
          fun (task, i) => (i, task)) made →
    Chunk.dedupe (Schedule.inPlace made).flatten = Chunk.ofArtifacts limits reader artifacts := by
  intro accepted readings hread hmade
  obtain ⟨reading, rfl⟩ := (Schedule.exists_results_iff _ _ _).2 hread
  obtain ⟨chunking, rfl⟩ := (Schedule.exists_results_iff _ _ _).2 hmade
  exact IndexBuild.fragments_ofArtifacts reading chunking limits reader artifacts

/-- Whatever order files are read and cut in, the fragments are those of doing so one file after the
other, and the counts those of the artifacts and of their readings. -/
theorem IndexBuild.ofArtifacts_sequential (reading chunking : Schedule) (limits : ChunkLimits)
    (reader : Source.Reader) (artifacts : List Artifact) :
    let accepted := artifacts.filter (Chunk.accepts limits)
    let readings := Chunk.readings reader accepted
    IndexBuild.ofArtifacts reading chunking limits reader artifacts = {
      fragments := Chunk.ofArtifacts limits reader artifacts
      skipped := artifacts.countP fun a => !Chunk.accepts limits a
      structural := accepted.countP (·.isStructural)
      degraded := readings.countP (·.isDegraded)
      failed := readings.countP (·.isFailed)
      files := accepted.length } := by
  intro accepted readings
  have hreadings : reading.collect (fun a : Artifact => reader a.path a.text)
      (accepted.filter (·.isStructural)) = readings := Schedule.collect_eq _ _ _
  have hskipped : artifacts.length - accepted.length =
      artifacts.countP fun a => !Chunk.accepts limits a := by
    have hsplit := List.length_eq_countP_add_countP (Chunk.accepts limits) (l := artifacts)
    have haccepted : accepted.length = artifacts.countP (Chunk.accepts limits) :=
      List.countP_eq_length_filter.symm
    simp only [decide_not, Bool.decide_eq_true] at hsplit
    omega
  -- Each accepted artifact is cut once, either as a reading or as a document.
  have hfiles : (chunking.collect (ChunkTask.run limits (Chunk.knownNames readings))
      (readings.map ChunkTask.code ++
        (accepted.filter (!·.isStructural)).map ChunkTask.document)).length = accepted.length := by
    have hsplit := List.length_eq_countP_add_countP (·.isStructural) (l := accepted)
    simp only [decide_not, Bool.decide_eq_true] at hsplit
    simp only [Schedule.collect_eq, List.length_map, List.length_append, readings, Chunk.readings,
      ← List.countP_eq_length_filter]
    exact hsplit.symm
  have hfragments := fragments_ofArtifacts reading chunking limits reader artifacts
  have haccepted : artifacts.filter (Chunk.accepts limits) = accepted := rfl
  simp only [ofArtifacts, haccepted, hreadings] at hfragments ⊢
  simp only [hfragments, hskipped, hfiles, ← List.countP_eq_length_filter]

end CodeRetrieval
