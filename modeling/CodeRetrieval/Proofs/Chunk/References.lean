import CodeRetrieval.Proofs.Chunk.Origin
import CodeRetrieval.Proofs.Reference
import CodeRetrieval.Proofs.Source.Declaration

set_option autoImplicit false

namespace CodeRetrieval.Chunk

open Source

variable {limits : ChunkLimits} {reader : Reader} {artifacts : List Artifact} {a : Artifact}
  {known : KnownNames} {file : SourceFile} {d : Declaration} {f : Fragment}

def Declared (limits : ChunkLimits) (reader : Reader) (artifacts : List Artifact)
    (d : Declaration) : Prop :=
  ∃ a ∈ artifacts, accepts limits a = true ∧ a.isStructural = true ∧
    ∃ file, (reader a.path a.text).file? = some file ∧ ∃ e ∈ file.entities, e.Declares d

theorem mem_knownOf {name : String} : name ∈ (knownOf limits reader artifacts).names ↔
    ∃ d, Declared limits reader artifacts d ∧ (name = d.name ∨ name = d.qualifiedName) := by
  simp only [knownOf, knownNames, KnownNames.mem_names_ofFiles, readings, List.mem_filterMap,
    List.mem_map, List.mem_filter, SourceFile.mem_declarations, Declared]
  constructor
  · intro h
    obtain ⟨file, ⟨_, ⟨a, ⟨⟨ha, haccepts⟩, hcode⟩, rfl⟩, hfile⟩, d, hd, hname⟩ := h
    exact ⟨d, ⟨a, ha, haccepts, hcode, file, hfile, hd⟩, hname⟩
  · intro h
    obtain ⟨d, ⟨a, ha, haccepts, hcode, file, hfile, hd⟩, hname⟩ := h
    exact ⟨file, ⟨_, ⟨a, ⟨⟨ha, haccepts⟩, hcode⟩, rfl⟩, hfile⟩, d, hd, hname⟩

theorem knownOf_ne_nil : (knownOf limits reader artifacts).names ≠ [] ↔
    ∃ d, Declared limits reader artifacts d := by
  constructor
  · intro h
    obtain ⟨name, hname⟩ := List.exists_mem_of_ne_nil _ h
    obtain ⟨d, hd, _⟩ := mem_knownOf.1 hname
    exact ⟨d, hd⟩
  · intro h
    obtain ⟨d, hd⟩ := h
    exact List.ne_nil_of_mem (mem_knownOf.2 ⟨d, hd, .inl rfl⟩)

theorem listed_of_mem_ofArtifact (h : f ∈ ofArtifact limits reader known a) :
    Reference.Listed known f.references := by
  rcases of_mem_ofArtifact h with ⟨_, file, d, hmade⟩ | ⟨_, hpart⟩
  · obtain ⟨candidates, hreferences⟩ := hmade.codeOf.referred
    rw [hreferences]
    exact Reference.listed_select
  · obtain ⟨part, hreferences⟩ := hpart.mentioned
    rw [hreferences]
    exact Reference.listed_ofText

/-- A name of another type that is no library type, as a type name is written. -/
structure RefersFrom (d : Declaration) (name : String) : Prop where
  ne_name : name ≠ d.name
  ne_qualifiedName : name ≠ d.qualifiedName
  not_builtin : name ∉ Reference.builtinTypes
  upper : Reference.startsUpper name = true

theorem MadeOf.refersFrom (h : MadeOf limits reader known a file d f) :
    ∀ name ∈ f.references, RefersFrom d name := by
  intro name hname
  obtain ⟨candidates, hreferences⟩ := h.codeOf.referred
  rw [hreferences, Reference.mem_select] at hname
  obtain ⟨_, hupper, hbuiltin, hown, _⟩ := hname
  simp only [Reference.ownNames, List.mem_cons, List.not_mem_nil, or_false, not_or] at hown
  exact ⟨hown.1, hown.2, hbuiltin, hupper⟩

/-- References are in increasing order and, once any type is declared, names of declared types. What
is made of a type does not refer to the type itself. -/
theorem references_of_mem_ofArtifacts (limits : ChunkLimits) (reader : Reader)
    (artifacts : List Artifact) (hf : f ∈ ofArtifacts limits reader artifacts) :
    let known := knownOf limits reader artifacts
    f.references.Pairwise (· < ·) ∧
      ((∃ d, Declared limits reader artifacts d) → ∀ name ∈ f.references,
        ∃ d, Declared limits reader artifacts d ∧ (name = d.name ∨ name = d.qualifiedName)) ∧
      (f.kind.isDocument = false →
        (∃ a ∈ artifacts, accepts limits a = true ∧ a.isStructural = true ∧
          ∃ file d, MadeOf limits reader known a file d f) ∧
        ∀ a file d, MadeOf limits reader known a file d f →
          f.entityName = some d.qualifiedName ∧ ∀ name ∈ f.references, RefersFrom d name) := by
  intro known
  obtain ⟨a, ha, haccepts, hmem⟩ := mem_emitted.1 (mem_emitted_of_mem hf)
  have hlisted := listed_of_mem_ofArtifact hmem
  refine ⟨hlisted.sorted, fun hsome name hname => ?_, fun hcode => ⟨?_, ?_⟩⟩
  · exact mem_knownOf.1 (KnownNames.mem_of_admits (hlisted.admitted name hname)
      (knownOf_ne_nil.2 hsome))
  · rcases of_mem_ofArtifact hmem with ⟨hstructural, hmade⟩ | ⟨_, hpart⟩
    · exact ⟨a, ha, haccepts, hstructural, hmade⟩
    · rw [hpart.isDocument] at hcode
      cases hcode
  · exact fun a file d hmade => ⟨hmade.codeOf.entityName_eq, hmade.refersFrom⟩

theorem references_of_mem_ofArtifacts_cart :
    let limits : ChunkLimits := ⟨1, 9, 99, 50, true, true⟩
    let artifacts : List Artifact := [
      ⟨"Cart.java", "class Cart \x7b\n Money m;\n class Item \x7b\n  Cart c;\n \x7d\n\x7d\n"⟩,
      ⟨"cart.md", "Item or Cart in Paris"⟩]
    let fragments := ofArtifacts limits Outline.read artifacts
    fragments.map (fun f => (f.entityName, f.references)) = [(some "Cart", []),
        (some "Cart.Item", ["Cart"]), (none, ["Cart", "Item"])] ∧
      (∃ d, Declared limits Outline.read artifacts d) ∧
      ∀ f ∈ fragments, ∀ name ∈ f.references, ∃ d, Declared limits Outline.read artifacts d ∧
        (name = d.name ∨ name = d.qualifiedName) := by
  intro limits artifacts fragments
  have hsome : (knownOf limits Outline.read artifacts).names ≠ [] := by decide +kernel
  have hdeclared := knownOf_ne_nil.1 hsome
  exact ⟨by decide +kernel, hdeclared, fun f hf =>
    (references_of_mem_ofArtifacts limits Outline.read artifacts hf).2.1 hdeclared⟩

end CodeRetrieval.Chunk
