import CodeRetrieval.Proofs.Chunk.Ids
import Mathlib.Data.List.Perm.Basic

/-!
What fragments stand for. A subject is a declared type, a member of one, or a part of a document;
its path, name and kind make up the text behind the id of its fragment, if it has one.
-/

set_option autoImplicit false

namespace CodeRetrieval.Chunk

open Source

inductive Subject where
  | declared (file : SourceFile) (degraded : Option String) (d : Declaration)
  | member (file : SourceFile) (d : Declaration) (m : Member)
  | config (path : String) (format : ConfigFormat) (text : String)
  | key (path : String) (format : ConfigFormat) (text : String) (s : ConfigSection)
  | prose (path : String) (format : ProseFormat) (body : String)
  | passage (path : String) (format : ProseFormat) (s : Section) (index : Nat)

namespace Subject

def path : Subject → String
  | declared file _ _ | member file _ _ => file.path
  | config path _ _ | key path _ _ _ | prose path _ _ | passage path _ _ _ => path

def name : Subject → String
  | declared _ _ d => d.qualifiedName
  | member _ d m => d.qualifiedName ++ "." ++ m.idName
  | config path _ _ | prose path _ _ => Fragment.stem path
  | key path _ _ s => Fragment.stem path ++ "#" ++ s.key
  | passage path _ s index => s!"{Fragment.stem path}#{index}:" ++ s.title

def kind : Subject → FragmentKind
  | declared _ _ _ => .entity
  | member _ _ _ => .member
  | config _ _ _ => .configDocument
  | key _ _ _ _ => .configSection
  | prose _ _ _ => .proseDocument
  | passage _ _ _ _ => .proseSection

def idText (s : Subject) : String := CodeRetrieval.idText s.path s.name s.kind

def fragment? (limits : ChunkLimits) (known : KnownNames) : Subject → Option Fragment
  | declared file degraded d => ofDeclaration limits file degraded known d
  | member file d m => ofMember limits file known d m
  | config path format text => ofConfigWhole limits known path format text
  | key path format text s => ofConfigSection limits known path format text s
  | prose path format body => ofProseWhole limits known path format body
  | passage path format s index => ofProseSection limits known path format s index

variable {limits : ChunkLimits} {known : KnownNames} {f : Fragment}

theorem id_of_fragment? {s : Subject} (h : s.fragment? limits known = some f) :
    f.id = idOf s.idText := by
  cases s with
  | member file d m =>
    obtain ⟨_, h⟩ := Option.ite_none_right_eq_some.1 h
    obtain ⟨content, _, rfl⟩ := Option.map_eq_some_iff.1 h
    rfl
  | declared | config | key | prose | passage =>
    obtain ⟨content, _, rfl⟩ := Option.map_eq_some_iff.1 h
    rfl

def hasFragment (limits : ChunkLimits) (known : KnownNames) (s : Subject) : Bool :=
  (s.fragment? limits known).isSome

end Subject

variable {limits : ChunkLimits} {reader : Reader} {known : KnownNames} {a : Artifact}
  {artifacts : List Artifact} {f : Fragment}

def withParts (wanted : Bool) (whole : Subject) (parts : List Subject) : List Subject :=
  whole :: if wanted then parts else []

def declarationSubjects (limits : ChunkLimits) (file : SourceFile) (degraded : Option String)
    (d : Declaration) : List Subject :=
  withParts limits.includeMembers (.declared file degraded d) (d.members.map (.member file d))

def codeSubjects (limits : ChunkLimits) (r : Reading) : List Subject :=
  match r.file? with
  | none => []
  | some file => file.declarations.flatMap (declarationSubjects limits file r.degradedReason?)

def configSubjects (limits : ChunkLimits) (known : KnownNames) (path : String)
    (format : ConfigFormat) (text : String) : List Subject :=
  withParts (isLongConfig limits known path text) (.config path format text)
    ((configSections format text).map (.key path format text))

def proseSubjects (limits : ChunkLimits) (path : String) (format : ProseFormat) (text : String) :
    List Subject :=
  let body := Text.trimEnd text
  withParts (limits.maxChunkLines < max 1 (Text.lineCount body)) (.prose path format body)
    ((proseSections format limits.maxChunkLines body).zipIdx.map fun (s, i) =>
      .passage path format s i)

def documentSubjects (limits : ChunkLimits) (known : KnownNames) (a : Artifact) : List Subject :=
  match a.kind? with
  | some (.config format) => configSubjects limits known a.path format a.text
  | some (.prose format) => proseSubjects limits a.path format a.text
  | _ => []

/-- All that an artifact may have fragments of. -/
def subjectsOf (limits : ChunkLimits) (reader : Reader) (known : KnownNames) (a : Artifact) :
    List Subject :=
  if a.isStructural then codeSubjects limits (reader a.path a.text)
  else documentSubjects limits known a

def keptOf (limits : ChunkLimits) (reader : Reader) (known : KnownNames) (a : Artifact) :
    List Subject :=
  (subjectsOf limits reader known a).filter (·.hasFragment limits known)

/-- The subjects of the accepted artifacts that have a fragment. -/
def keptSubjects (limits : ChunkLimits) (reader : Reader) (artifacts : List Artifact) :
    List Subject :=
  (artifacts.filter (accepts limits)).flatMap
    (keptOf limits reader (knownOf limits reader artifacts))

theorem mem_withParts {wanted : Bool} {whole s : Subject} {parts : List Subject}
    (h : s ∈ withParts wanted whole parts) : s = whole ∨ s ∈ parts := by
  rcases List.mem_cons.1 h with hwhole | hpart
  · exact .inl hwhole
  · cases wanted with
    | true => exact .inr hpart
    | false => exact absurd hpart List.not_mem_nil

theorem filterMap_withParts {β : Type} (g : Subject → Option β) (wanted : Bool) (whole : Subject)
    (parts : List Subject) : (withParts wanted whole parts).filterMap g =
      (g whole).toList ++ if wanted then parts.filterMap g else [] := by
  cases h : g whole <;> cases wanted <;> simp [withParts, h]

theorem ofDeclarationAll_eq (file : SourceFile) (degraded : Option String) (d : Declaration) :
    ofDeclarationAll limits file degraded known d =
      (declarationSubjects limits file degraded d).filterMap (·.fragment? limits known) := by
  rw [declarationSubjects, filterMap_withParts, List.filterMap_map]
  rfl

theorem ofReading_eq (r : Reading) :
    ofReading limits known r = (codeSubjects limits r).filterMap (·.fragment? limits known) := by
  unfold ofReading codeSubjects
  cases r.file? with
  | none => rfl
  | some file =>
    rw [List.filterMap_flatMap]
    exact List.flatMap_congr fun d _ => ofDeclarationAll_eq file r.degradedReason? d

theorem ofConfig_eq (path : String) (format : ConfigFormat) (text : String) :
    ofConfig limits known path format text =
      (configSubjects limits known path format text).filterMap (·.fragment? limits known) := by
  rw [configSubjects, filterMap_withParts, List.filterMap_map]
  rfl

theorem ofProse_eq (path : String) (format : ProseFormat) (text : String) :
    ofProse limits known path format text =
      (proseSubjects limits path format text).filterMap (·.fragment? limits known) := by
  rw [proseSubjects, filterMap_withParts, List.filterMap_map, ofProse]
  simp only [decide_eq_true_eq, ← not_le, ite_not]
  rfl

theorem ofDocument_eq (a : Artifact) : ofDocument limits known a =
    (documentSubjects limits known a).filterMap (·.fragment? limits known) := by
  unfold ofDocument documentSubjects
  cases a.kind? with
  | none => rfl
  | some kind =>
    cases kind with
    | structural => rfl
    | config format => exact ofConfig_eq a.path format a.text
    | prose format => exact ofProse_eq a.path format a.text

theorem ofArtifact_eq (a : Artifact) : ofArtifact limits reader known a =
    (subjectsOf limits reader known a).filterMap (·.fragment? limits known) := by
  unfold ofArtifact subjectsOf
  rw [ofReading_eq, ofDocument_eq]
  split <;> rfl

theorem flatMap_filter_eq {α β : Type} (p : α → Bool) (g : α → List β) (xs : List α) :
    (xs.filter p).flatMap g = xs.flatMap fun x => if p x then g x else [] := by
  induction xs with
  | nil => rfl
  | cons x xs ih => cases h : p x <;> simp [h, ih]

theorem emitted_perm : (emitted limits reader artifacts).Perm
    ((artifacts.filter (accepts limits)).flatMap
      (ofArtifact limits reader (knownOf limits reader artifacts))) := by
  have hreadings : (readings reader (artifacts.filter (accepts limits))).flatMap
      (ofReading limits (knownOf limits reader artifacts)) =
        (artifacts.filter (accepts limits)).flatMap fun a =>
          if a.isStructural then
            ofReading limits (knownOf limits reader artifacts) (reader a.path a.text)
          else [] := by
    rw [readings, List.flatMap_map, flatMap_filter_eq]
  rw [emitted, hreadings]
  refine (List.flatMap_append_perm _ _ _).trans (.of_eq (List.flatMap_congr fun a _ => ?_))
  unfold ofArtifact
  by_cases hcode : a.isStructural = true
  · rw [if_pos hcode, if_pos hcode, ofDocument_of_isStructural hcode, List.append_nil]
  · rw [if_neg hcode, if_neg hcode, List.nil_append]

theorem map_id_filterMap (ss : List Subject) :
    (ss.filterMap (·.fragment? limits known)).map (·.id) =
      (ss.filter (·.hasFragment limits known)).map fun s => idOf s.idText := by
  induction ss with
  | nil => rfl
  | cons s ss ih =>
    cases hs : s.fragment? limits known with
    | none => simp [Subject.hasFragment, hs, ih]
    | some f => simp [Subject.hasFragment, hs, ih, Subject.id_of_fragment? hs]

/-- Every subject with a fragment gives one id, which is made from its text, and there are no
others. -/
theorem ids_emitted_perm : ((emitted limits reader artifacts).map (·.id)).Perm
    ((keptSubjects limits reader artifacts).map fun s => idOf s.idText) := by
  refine (emitted_perm.map _).trans (.of_eq ?_)
  rw [keptSubjects, List.map_flatMap, List.map_flatMap]
  exact List.flatMap_congr fun a _ => by rw [ofArtifact_eq, map_id_filterMap, keptOf]

end CodeRetrieval.Chunk
