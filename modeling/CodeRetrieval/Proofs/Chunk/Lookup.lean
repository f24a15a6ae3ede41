import CodeRetrieval.Proofs.Chunk.Ids
import CodeRetrieval.Proofs.Chunk.References
import CodeRetrieval.Proofs.Source.Grammar.Names
import CodeRetrieval.Proofs.Store.Lookup
import CodeRetrieval.Proofs.Text.Search

/-!
Looking up what fragments refer to. A declared type has a fragment unless its text is shorter than
fragments may be, and that is the one reason why a reference may lead nowhere.
-/

set_option autoImplicit false

namespace CodeRetrieval.Chunk

open Source

variable {limits : ChunkLimits} {reader : Reader} {artifacts : List Artifact} {known : KnownNames}
  {a : Artifact} {file : SourceFile} {d : Declaration} {f : Fragment} {name : String}

/-- A type goes by its qualified name and by what stands in it behind a dot. -/
def GoesBy (d : Declaration) (name : String) : Prop :=
  d.qualifiedName = name ∨ Text.endsWith d.qualifiedName ("." ++ name) = true

/-- Declared in an accepted source file, with a text that is not too short for a fragment. -/
def Kept (limits : ChunkLimits) (reader : Reader) (artifacts : List Artifact) (d : Declaration) :
    Prop :=
  ∃ a ∈ artifacts, accepts limits a = true ∧ a.isStructural = true ∧
    ∃ file, FoundIn reader a file d ∧ limits.minChunkLines ≤ Text.lineCount
      (declarationText limits (headLines limits file (reader a.path a.text).degradedReason? d) d)

theorem goesBy_of_wellNamed (h : d.WellNamed) (hname : name = d.name ∨ name = d.qualifiedName) :
    GoesBy d name := by
  rcases hname with rfl | rfl
  · obtain ⟨_, outer, houter, hqualified⟩ := h
    rcases houter.ends with rfl | ⟨lead, rfl⟩
    · exact .inl (by simpa using hqualified)
    · refine .inr ((Text.endsWith_iff _ _).2 ⟨lead.toList, ?_⟩)
      simp [hqualified]
  · exact .inl rfl

theorem isEntityNamed_iff (hname : f.entityName = some d.qualifiedName) :
    Entries.isEntityNamed name f = true ↔ f.kind = .entity ∧ GoesBy d name := by
  simp [Entries.isEntityNamed, hname, GoesBy]

theorem exists_ofDeclaration_iff {degraded : Option String} :
    (∃ f, ofDeclaration limits file degraded known d = some f) ↔
      limits.minChunkLines ≤
        Text.lineCount (declarationText limits (headLines limits file degraded d) d) := by
  rw [← exists_bound_iff]
  constructor
  · intro h
    obtain ⟨f, hf⟩ := h
    obtain ⟨content, hcontent, _⟩ := Option.map_eq_some_iff.1 hf
    exact ⟨content, hcontent⟩
  · intro h
    obtain ⟨content, hcontent⟩ := h
    exact ⟨_, Option.map_eq_some_iff.2 ⟨content, hcontent, rfl⟩⟩

theorem kind_of_ofMember {m : Member} (h : ofMember limits file known d m = some f) :
    f.kind = .member := by
  obtain ⟨_, h⟩ := Option.ite_none_right_eq_some.1 h
  obtain ⟨content, _, rfl⟩ := Option.map_eq_some_iff.1 h
  rfl

theorem kept_of_mem_emitted (hf : f ∈ emitted limits reader artifacts) (hkind : f.kind = .entity) :
    ∃ d, Kept limits reader artifacts d ∧ f.entityName = some d.qualifiedName := by
  obtain ⟨a, ha, haccepts, hmem⟩ := mem_emitted.1 hf
  obtain ⟨hcode, file, d, hmade⟩ := madeOf_of_mem_ofArtifact hmem (by rw [hkind]; rfl)
  rcases hmade.2 with hdeclaration | ⟨_, m, _, hmember⟩
  · have hlong := exists_ofDeclaration_iff.1 ⟨f, hdeclaration⟩
    exact ⟨d, ⟨a, ha, haccepts, hcode, file, hmade.1, hlong⟩, hmade.codeOf.entityName_eq⟩
  · rw [kind_of_ofMember hmember] at hkind
    cases hkind

theorem kind_of_ofDeclaration {degraded : Option String}
    (h : ofDeclaration limits file degraded known d = some f) : f.kind = .entity := by
  obtain ⟨content, _, rfl⟩ := Option.map_eq_some_iff.1 h
  rfl

theorem mem_emitted_of_long (ha : a ∈ artifacts) (haccepts : accepts limits a = true)
    (hcode : a.isStructural = true) (hfound : FoundIn reader a file d)
    (hlong : limits.minChunkLines ≤ Text.lineCount
      (declarationText limits (headLines limits file (reader a.path a.text).degradedReason? d) d)) :
    ∃ f ∈ emitted limits reader artifacts, f.kind = .entity ∧
      CodeOf limits (knownOf limits reader artifacts) file d f := by
  obtain ⟨f, hf⟩ := exists_ofDeclaration_iff.2 hlong
  have hmade : MadeOf limits reader (knownOf limits reader artifacts) a file d f :=
    ⟨hfound, .inl hf⟩
  have hmem : f ∈ ofArtifact limits reader (knownOf limits reader artifacts) a := by
    rw [ofArtifact, if_pos hcode]
    exact mem_ofReading.2 ⟨file, d, hmade⟩
  exact ⟨f, mem_emitted.2 ⟨a, ha, haccepts, hmem⟩, kind_of_ofDeclaration hf, hmade.codeOf⟩

theorem mem_emitted_of_kept (h : Kept limits reader artifacts d) :
    ∃ f ∈ emitted limits reader artifacts, f.kind = .entity ∧
      f.entityName = some d.qualifiedName := by
  obtain ⟨a, ha, haccepts, hcode, file, hfound, hlong⟩ := h
  obtain ⟨f, hf, hkind, hcodeOf⟩ := mem_emitted_of_long ha haccepts hcode hfound hlong
  exact ⟨f, hf, hkind, hcodeOf.entityName_eq⟩

/-- The fragment of every type that is not too short is left once each id is left once: what shares
the id is a fragment of a type of that name. -/
theorem mem_ofArtifacts_of_kept (hreader : reader.NamesTypes)
    (happart : Apart (allIdTexts limits reader artifacts)) (h : Kept limits reader artifacts d) :
    ∃ f ∈ ofArtifacts limits reader artifacts, f.kind = .entity ∧
      f.entityName = some d.qualifiedName := by
  obtain ⟨f, hf, hkind, hname⟩ := mem_emitted_of_kept h
  have hid : f.id ∈ (ofArtifacts limits reader artifacts).map (·.id) :=
    (mem_keys_distinctFrom [] _ _).2 ⟨List.mem_map.2 ⟨f, hf, rfl⟩, List.not_mem_nil⟩
  obtain ⟨g, hg, hsame⟩ := List.mem_map.1 hid
  have hemitted := mem_emitted_of_mem hg
  have hcolon : ∀ k ∈ [f, g], ∀ name, k.kind = .entity → k.entityName = some name →
      ':' ∉ name.toList := by
    intro k hk name hentity hkname
    have hk : k ∈ emitted limits reader artifacts := by
      rcases List.mem_pair.1 hk with rfl | rfl
      · exact hf
      · exact hemitted
    obtain ⟨d, ⟨a, _, _, _, file, hfound, _⟩, hd⟩ := kept_of_mem_emitted hk hentity
    cases hkname.symm.trans hd
    exact (hreader.wellNamed hfound.1 hfound.2).colon_not_mem
  obtain ⟨hgkind, hgname⟩ := happart.entity_of_id_eq (identified_of_mem_emitted hf)
    (identified_of_mem_emitted hemitted) hsame.symm hkind hcolon
  exact ⟨g, hg, hgkind, hgname.trans hname⟩

theorem isSome_entityNamed?_iff (hreader : reader.NamesTypes)
    (happart : Apart (allIdTexts limits reader artifacts)) {es : Entries}
    (hes : ∀ f, f ∈ es.fragments ↔ f ∈ ofArtifacts limits reader artifacts) :
    (es.entityNamed? name).isSome = true ↔
      ∃ d, Kept limits reader artifacts d ∧ GoesBy d name := by
  rw [Entries.isSome_entityNamed?]
  constructor
  · intro h
    obtain ⟨f, hf, hnamed⟩ := h
    have hentity : f.kind = .entity := by
      simp only [Entries.isEntityNamed, Bool.and_eq_true, beq_iff_eq] at hnamed
      exact hnamed.1
    obtain ⟨d, hd, hname⟩ := kept_of_mem_emitted (mem_emitted_of_mem ((hes f).1 hf)) hentity
    exact ⟨d, hd, ((isEntityNamed_iff hname).1 hnamed).2⟩
  · intro h
    obtain ⟨d, hd, hgoes⟩ := h
    obtain ⟨f, hf, hkind, hname⟩ := mem_ofArtifacts_of_kept hreader happart hd
    exact ⟨f, (hes f).2 hf, (isEntityNamed_iff hname).2 ⟨hkind, hgoes⟩⟩

/-- After the fragments of some artifacts, with a type among them, have been written into an empty
store, every reference of a stored fragment is the name of a declared type, and looking it up
succeeds exactly if a type that goes by that name is not too short for a fragment. -/
theorem lookup_of_reference (limits : ChunkLimits) {reader : Reader} (hreader : reader.NamesTypes)
    (artifacts : List Artifact) (hsome : ∃ d, Declared limits reader artifacts d)
    (happart : Apart (allIdTexts limits reader artifacts))
    {weights : KeywordWeights Float} {vectors : Option (List Embedding)} {n : Nat} {m : Memory}
    (hupsert : (Memory.empty weights).upsert (ofArtifacts limits reader artifacts) vectors =
      .ok (n, m)) :
    ∀ f ∈ m.entries.fragments, ∀ name ∈ f.references,
      (∃ d, Declared limits reader artifacts d ∧ (name = d.name ∨ name = d.qualifiedName) ∧
          GoesBy d name) ∧
        ((m.entries.entityNamed? name).isSome = true ↔
          ∃ d, Kept limits reader artifacts d ∧ GoesBy d name) := by
  intro f hf name hname
  have hes := Memory.mem_fragments_of_upsert (ofArtifacts_ids limits _ artifacts) hupsert
  obtain ⟨a, _, _, hmem⟩ := mem_emitted.1 (mem_emitted_of_mem ((hes f).1 hf))
  have hadmitted := (listed_of_mem_ofArtifact hmem).admitted name hname
  obtain ⟨d, hd, hnamed⟩ :=
    mem_knownOf.1 (KnownNames.mem_of_admits hadmitted (knownOf_ne_nil.2 hsome))
  have hwell : d.WellNamed := by
    obtain ⟨b, _, _, _, file, hfile, hdeclares⟩ := hd
    exact hreader.wellNamed hfile (SourceFile.mem_declarations.2 hdeclares)
  exact ⟨⟨d, hd, hnamed, goesBy_of_wellNamed hwell hnamed⟩,
    isSome_entityNamed?_iff hreader happart hes⟩

def shortInside : List Artifact := [
  ⟨"A.java", "class A \x7b\n int x;\n class B \x7b \x7d\n\x7d\n"⟩, ⟨"b.md", "Of A,\nnot\nof B"⟩]

def fragmentsInside : List Fragment :=
  ofArtifacts .standard (Grammar.read.orElse Outline.read) shortInside

def storeInside : Memory := ⟨Entries.write [] (fragmentsInside.map (·, none)), .standard⟩

theorem upsert_inside :
    (Memory.empty .standard).upsert fragmentsInside none =
      .ok (fragmentsInside.length, storeInside) :=
  Memory.upsert_empty .standard fragmentsInside

theorem declared_inside :
    ∃ d, Declared .standard (Grammar.read.orElse Outline.read) shortInside d := by
  have hnames : (knownOf .standard (Grammar.read.orElse Outline.read) shortInside).names =
      ["A", "A.B", "B"] := by decide +kernel
  exact knownOf_ne_nil.1 (by rw [hnames]; decide)

theorem lookup_of_reference_inside :
    (Grammar.read.orElse Outline.read).NamesTypes ∧
      fragmentsInside.map (·.references) = [[], ["A", "B"]] ∧
      (∃ d, Declared .standard (Grammar.read.orElse Outline.read) shortInside d) ∧
      Apart (allIdTexts .standard (Grammar.read.orElse Outline.read) shortInside) ∧
      (Memory.empty .standard).upsert fragmentsInside none =
        .ok (fragmentsInside.length, storeInside) ∧
      ∀ f ∈ storeInside.entries.fragments, ∀ name ∈ f.references,
        (∃ d, Declared .standard (Grammar.read.orElse Outline.read) shortInside d ∧
            (name = d.name ∨ name = d.qualifiedName) ∧ GoesBy d name) ∧
          ((storeInside.entries.entityNamed? name).isSome = true ↔
            ∃ d, Kept .standard (Grammar.read.orElse Outline.read) shortInside d ∧
              GoesBy d name) := by
  have hreferences : fragmentsInside.map (·.references) = [[], ["A", "B"]] := by decide +kernel
  have hids : ((allIdTexts .standard (Grammar.read.orElse Outline.read) shortInside).map
      idOf).Nodup := by decide +kernel
  have hreader := Grammar.namesTypes_read.orElse Outline.namesTypes_read
  exact ⟨hreader, hreferences, declared_inside, apart_of_nodup hids, upsert_inside,
    lookup_of_reference .standard hreader shortInside declared_inside (apart_of_nodup hids)
      upsert_inside⟩

/-- Not every reference can be looked up: no fragment stands for a type that is too short. -/
theorem not_lookup_of_reference :
    ¬ ∀ (limits : ChunkLimits) (artifacts : List Artifact), 1 ≤ limits.minChunkLines →
      limits.minChunkLines ≤ limits.maxChunkLines →
      (∃ d, Declared limits (Grammar.read.orElse Outline.read) artifacts d) →
      ∀ (weights : KeywordWeights Float) (vectors : Option (List Embedding)) (n : Nat) (m : Memory),
        (Memory.empty weights).upsert
          (ofArtifacts limits (Grammar.read.orElse Outline.read) artifacts) vectors = .ok (n, m) →
        ∀ f ∈ m.entries.fragments, ∀ name ∈ f.references,
          (m.entries.entityNamed? name).isSome = true := by
  intro hall
  have hfound := hall .standard shortInside (by decide) (by decide) declared_inside .standard none
    _ _ upsert_inside
  have hlost : ∃ f ∈ storeInside.entries.fragments, ∃ name ∈ f.references,
      (storeInside.entries.entityNamed? name).isSome = false := by decide +kernel
  obtain ⟨f, hf, name, hname, hnone⟩ := hlost
  rw [hfound f hf name hname] at hnone
  cases hnone

end CodeRetrieval.Chunk
