import CodeRetrieval.Proofs.Store.Memory

set_option autoImplicit false

namespace CodeRetrieval

namespace Entries

theorem entityNamed?_eq (es : Entries) (name : String) : es.entityNamed? name =
    (exactFirst (·.entityName == some name) (fun f g => decide (f.filePath ≤ g.filePath))
      (es.fragments.filter (isEntityNamed name))).head? := rfl

theorem isSome_entityNamed? (es : Entries) (name : String) :
    (es.entityNamed? name).isSome = true ↔ ∃ f ∈ es.fragments, isEntityNamed name f = true := by
  rw [entityNamed?_eq, List.isSome_head?, ← List.isEmpty_eq_false_iff,
    List.isEmpty_eq_false_iff_exists_mem]
  refine exists_congr fun f => ?_
  rw [mem_exactFirst, List.mem_filter]

def Earlier : Fragment → Fragment → Prop :=
  ThenBy (fun f g => decide (f.filePath ≤ g.filePath)) fun f g => f.id < g.id

theorem Earlier.asymm {f g : Fragment} : Earlier f g → ¬Earlier g f :=
  ThenBy.asymm String.lt_asymm

/-- The entity of a name is stored, goes by that name, and is the earliest of those whose own name
is the same as its own. -/
theorem entityNamed?_some {es : Entries} (h : es.Sorted) {name : String} {f : Fragment}
    (hf : es.entityNamed? name = some f) :
    f ∈ es.fragments ∧ isEntityNamed name f = true ∧
      ∀ g ∈ es.fragments, isEntityNamed name g = true → g.entityName = f.entityName →
        g = f ∨ Earlier f g := by
  rw [entityNamed?_eq] at hf
  have hordered := pairwise_exactFirst (·.entityName == some name)
    (SortOrder.text.on Fragment.filePath) (h.fragments.filter (isEntityNamed name))
  have hleads := leads_of_head? hordered hf
  obtain ⟨hmem, hnamed⟩ := List.mem_filter.1 (mem_exactFirst.1 (List.mem_of_head? hf))
  refine ⟨hmem, hnamed, ?_⟩
  intro g hg hgnamed hname
  rcases hleads g (mem_exactFirst.2 (List.mem_filter.2 ⟨hg, hgnamed⟩)) with heq | hfg
  · exact .inl heq
  · exact .inr (hfg.2 (by simp [hname]))

theorem entityName_of_isEntityNamed {name : String} {f : Fragment}
    (h : isEntityNamed name f = true) : f.kind = .entity ∧ ∃ own, f.entityName = some own := by
  obtain ⟨hkind, hname⟩ := Bool.and_eq_true_iff.1 h
  refine ⟨by simpa using hkind, ?_⟩
  cases hown : f.entityName with
  | none => simp [hown] at hname
  | some own => exact ⟨own, rfl⟩

theorem isEntityNamed_congr {name : String} {f g : Fragment} (hkind : f.kind = g.kind)
    (hname : f.entityName = g.entityName) : isEntityNamed name f = isEntityNamed name g := by
  simp only [isEntityNamed, hkind, hname]

/-- Two names that lead to entities of the same own name lead to the same one. -/
theorem entityNamed?_inj {es : Entries} (h : es.Sorted) {name other : String} {f g : Fragment}
    (hf : es.entityNamed? name = some f) (hg : es.entityNamed? other = some g)
    (hname : f.entityName = g.entityName) : f = g := by
  obtain ⟨hfmem, hfnamed, hfleads⟩ := entityNamed?_some h hf
  obtain ⟨hgmem, hgnamed, hgleads⟩ := entityNamed?_some h hg
  have hkind : f.kind = g.kind :=
    (entityName_of_isEntityNamed hfnamed).1.trans (entityName_of_isEntityNamed hgnamed).1.symm
  rcases hfleads g hgmem (isEntityNamed_congr hkind hname ▸ hfnamed) hname.symm with heq | hfg
  · exact heq.symm
  · rcases hgleads f hfmem (isEntityNamed_congr hkind hname ▸ hgnamed) hname with heq | hgf
    · exact heq
    · exact absurd hgf hfg.asymm

end Entries

theorem Memory.upsert_empty (weights : KeywordWeights Float) (fs : List Fragment) :
    (Memory.empty weights).upsert fs none =
      .ok (fs.length, ⟨Entries.write [] (fs.map (·, none)), weights⟩) := rfl

theorem Memory.mem_fragments_of_upsert {weights : KeywordWeights Float} {fs : List Fragment}
    {vs : Option (List Embedding)} {n : Nat} {m : Memory} (hids : (fs.map (·.id)).Nodup)
    (h : (Memory.empty weights).upsert fs vs = .ok (n, m)) (f : Fragment) :
    f ∈ m.entries.fragments ↔ f ∈ fs := by
  rw [upsert_eq_puts] at h
  cases hps : pairVectors fs vs with
  | error failure =>
    rw [hps] at h
    cases h
  | ok ps =>
    rw [hps] at h
    cases h
    have hfs := fragments_of_pairVectors hps
    have hsound : KeyedStore.Sound (Memory.empty weights) := List.Pairwise.nil
    have hkeys : (ps.map (·.1.id)).Nodup := by
      rw [← hfs, List.map_map] at hids
      exact hids
    have hitems := KeyedStore.mem_puts hsound hkeys
    rw [← hfs, Entries.fragments, List.mem_map, List.mem_map]
    constructor
    · intro hentry
      obtain ⟨e, he, rfl⟩ := hentry
      rcases (hitems e).1 he with hwritten | ⟨hbefore, _⟩
      · obtain ⟨p, hp, rfl⟩ := List.mem_map.1 hwritten
        exact ⟨p, hp, rfl⟩
      · exact absurd hbefore List.not_mem_nil
    · intro hpair
      obtain ⟨p, hp, rfl⟩ := hpair
      exact ⟨_, (hitems ⟨p.1, p.2⟩).2 (.inl (List.mem_map.2 ⟨p, hp, rfl⟩)), rfl⟩

end CodeRetrieval
