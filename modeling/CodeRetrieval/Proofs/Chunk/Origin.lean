import CodeRetrieval.Chunk.Artifacts
import CodeRetrieval.Proofs.Chunk.Documents
import CodeRetrieval.Proofs.Distinct
import CodeRetrieval.Proofs.Source.Outline

set_option autoImplicit false

namespace CodeRetrieval

namespace Chunk

open Source

def knownOf (limits : ChunkLimits) (reader : Reader) (artifacts : List Artifact) : KnownNames :=
  knownNames (readings reader (artifacts.filter (accepts limits)))

/-- The fragments of one artifact, once it is known what all of them declare. -/
def ofArtifact (limits : ChunkLimits) (reader : Reader) (known : KnownNames) (a : Artifact) :
    List Fragment :=
  if a.isStructural then ofReading limits known (reader a.path a.text)
  else ofDocument limits known a

/-- All fragments of the accepted artifacts, those of one id among them. -/
def emitted (limits : ChunkLimits) (reader : Reader) (artifacts : List Artifact) : List Fragment :=
  let accepted := artifacts.filter (accepts limits)
  (readings reader accepted).flatMap (ofReading limits (knownOf limits reader artifacts)) ++
    accepted.flatMap (ofDocument limits (knownOf limits reader artifacts))

variable {limits : ChunkLimits} {reader : Reader} {artifacts : List Artifact} {known : KnownNames}
  {a : Artifact} {f : Fragment}

theorem ofArtifacts_ids (limits : ChunkLimits) (reader : Reader)
    (artifacts : List Artifact) : ((ofArtifacts limits reader artifacts).map (·.id)).Nodup :=
  nodup_keys_distinctOn _

theorem ofArtifacts_eq_emitted_iff_ids : ofArtifacts limits reader artifacts =
    emitted limits reader artifacts ↔ ((emitted limits reader artifacts).map (·.id)).Nodup :=
  distinctOn_eq_self_iff

theorem ofDocument_of_isStructural (h : a.isStructural = true) :
    ofDocument limits known a = [] := by
  have hkind : a.kind? = some .structural := by simpa [Artifact.isStructural] using h
  simp only [ofDocument, hkind]

theorem mem_emitted : f ∈ emitted limits reader artifacts ↔
    ∃ a ∈ artifacts, accepts limits a = true ∧
      f ∈ ofArtifact limits reader (knownOf limits reader artifacts) a := by
  simp only [emitted, readings, List.mem_append, List.mem_flatMap, List.mem_map, List.mem_filter,
    ofArtifact]
  constructor
  · intro hcases
    rcases hcases with ⟨_, ⟨a, ⟨⟨ha, haccepts⟩, hcode⟩, rfl⟩, hf⟩ | ⟨a, ⟨ha, haccepts⟩, hf⟩
    · exact ⟨a, ha, haccepts, by rwa [if_pos hcode]⟩
    · have hcode : ¬a.isStructural = true := by
        intro hcode
        rw [ofDocument_of_isStructural hcode] at hf
        exact List.not_mem_nil hf
      exact ⟨a, ha, haccepts, by rwa [if_neg hcode]⟩
  · intro hparts
    obtain ⟨a, ha, haccepts, hf⟩ := hparts
    by_cases hcode : a.isStructural = true
    · rw [if_pos hcode] at hf
      exact .inl ⟨_, ⟨a, ⟨⟨ha, haccepts⟩, hcode⟩, rfl⟩, hf⟩
    · rw [if_neg hcode] at hf
      exact .inr ⟨a, ⟨ha, haccepts⟩, hf⟩

theorem mem_emitted_of_mem (h : f ∈ ofArtifacts limits reader artifacts) :
    f ∈ emitted limits reader artifacts :=
  (distinctFrom_sublist [] _).subset h

/-- What every fragment of a declared type or of one of its members is. -/
structure CodeOf (limits : ChunkLimits) (known : KnownNames) (file : SourceFile) (d : Declaration)
    (f : Fragment) : Prop where
  path_eq : f.filePath = file.path
  isCode : f.kind.isDocument = false
  entityName_eq : f.entityName = some d.qualifiedName
  le : f.startLine ≤ f.endLine
  lines : ∀ n, d.Placed n → LinesOf n f.startLine f.endLine
  bounded : ∃ whole, bound limits whole codeMarker = some f.content
  referred : ∃ candidates, f.references = Reference.select candidates (Reference.ownNames d) known

variable {file : SourceFile} {degraded : Option String} {d : Declaration}

theorem codeOf_ofDeclaration (h : ofDeclaration limits file degraded known d = some f) :
    CodeOf limits known file d f := by
  obtain ⟨content, hbound, rfl⟩ := Option.map_eq_some_iff.1 h
  refine ⟨rfl, rfl, rfl, Nat.le_max_right _ _, fun n hplaced => ?_, ⟨_, hbound⟩, _, rfl⟩
  exact hplaced.lines.ordered

theorem codeOf_ofMember {m : Member} (hm : m ∈ d.members)
    (h : ofMember limits file known d m = some f) : CodeOf limits known file d f := by
  obtain ⟨_, h⟩ := Option.ite_none_right_eq_some.1 h
  obtain ⟨content, hbound, rfl⟩ := Option.map_eq_some_iff.1 h
  refine ⟨rfl, rfl, rfl, Nat.le_max_right _ _, fun n hplaced => ?_, ⟨_, hbound⟩, _, rfl⟩
  exact (hplaced.members m hm).ordered

/-- A declaration that is found in an artifact, with the file that it is found in. -/
def FoundIn (reader : Reader) (a : Artifact) (file : SourceFile) (d : Declaration) : Prop :=
  (reader a.path a.text).file? = some file ∧ d ∈ file.declarations

def MadeOf (limits : ChunkLimits) (reader : Reader) (known : KnownNames) (a : Artifact)
    (file : SourceFile) (d : Declaration) (f : Fragment) : Prop :=
  FoundIn reader a file d ∧
    (ofDeclaration limits file (reader a.path a.text).degradedReason? known d = some f ∨
      limits.includeMembers = true ∧ ∃ m ∈ d.members, ofMember limits file known d m = some f)

theorem MadeOf.codeOf (h : MadeOf limits reader known a file d f) :
    CodeOf limits known file d f := by
  obtain ⟨_, hdeclaration | ⟨_, m, hm, hmember⟩⟩ := h
  · exact codeOf_ofDeclaration hdeclaration
  · exact codeOf_ofMember hm hmember

theorem mem_ofReading : f ∈ ofReading limits known (reader a.path a.text) ↔
    ∃ file d, MadeOf limits reader known a file d f := by
  unfold ofReading MadeOf FoundIn
  cases hfile : (reader a.path a.text).file? with
  | none => simp
  | some file =>
    simp only [List.mem_flatMap, ofDeclarationAll, List.mem_append, Option.mem_toList,
      Option.some.injEq, and_assoc, exists_and_left, exists_eq_left']
    refine exists_congr fun d => and_congr_right fun _ => or_congr_right ?_
    cases limits.includeMembers <;> simp [List.mem_filterMap]

theorem partOf_of_mem_ofDocument (h : f ∈ ofDocument limits known a) :
    PartOf limits known a.path a.text f := by
  unfold ofDocument at h
  split at h
  · exact partOf_ofConfig h
  · exact partOf_ofProse h
  · exact absurd h List.not_mem_nil

theorem of_mem_ofArtifact (h : f ∈ ofArtifact limits reader known a) :
    (a.isStructural = true ∧ ∃ file d, MadeOf limits reader known a file d f) ∨
      a.isStructural = false ∧ PartOf limits known a.path a.text f := by
  unfold ofArtifact at h
  by_cases hcode : a.isStructural = true
  · rw [if_pos hcode] at h
    exact .inl ⟨hcode, mem_ofReading.1 h⟩
  · rw [if_neg hcode] at h
    exact .inr ⟨by simpa using hcode, partOf_of_mem_ofDocument h⟩

theorem madeOf_of_mem_ofArtifact (h : f ∈ ofArtifact limits reader known a)
    (hkind : f.kind.isDocument = false) :
    a.isStructural = true ∧ ∃ file d, MadeOf limits reader known a file d f := by
  rcases of_mem_ofArtifact h with hmade | ⟨_, hpart⟩
  · exact hmade
  · rw [hpart.isDocument] at hkind
    cases hkind

end Chunk

end CodeRetrieval
