import CodeRetrieval.Proofs.Chunk.Lookup
import CodeRetrieval.Proofs.Chunk.Summary

/-!
Members and the types they belong to. The text of a type with a member takes at least three lines,
be it written out, summarized or cut, so with a minimum of at most three lines no member is left
without its type. The exception is a text cut to an empty line and the marker, which lacks a line.
-/

set_option autoImplicit false

namespace CodeRetrieval

open Text

/-- What a declaration may begin with has text on its first line. -/
def Source.Declaration.Headed (d : Declaration) : Prop :=
  ∀ s ∈ d.annotations ++ d.modifiers ++ [d.kind], firstLine s ≠ ""

def Source.Reader.HeadsTypes (reader : Reader) : Prop :=
  ∀ path text file, (reader path text).file? = some file → ∀ d ∈ file.declarations, d.Headed

namespace Chunk

open Source

variable {limits : ChunkLimits} {file : SourceFile} {degraded : Option String}
  {known : KnownNames} {d : Declaration} {f : Fragment}

theorem exists_join_eq (sep first : String) (rest : List String) :
    ∃ more, join sep (first :: rest) = first ++ more := by
  cases rest with
  | nil => exact ⟨"", by simp [join]⟩
  | cons second rest =>
    refine ⟨sep ++ sep.intercalate (second :: rest), ?_⟩
    simp [join, String.intercalate_cons_cons, String.append_assoc]

/-- The first of some parts, if there are any, has text on its first line. -/
def Opens (parts : List String) : Prop := ∀ p ∈ parts.head?, firstLine p ≠ ""

theorem opens_nil : Opens [] := by simp [Opens]

@[simp] theorem opens_cons {p : String} {ps : List String} :
    Opens (p :: ps) ↔ firstLine p ≠ "" := by
  simp [Opens]

theorem Opens.append {ps qs : List String} (hps : Opens ps) (hqs : ps = [] → Opens qs) :
    Opens (ps ++ qs) := by
  cases ps with
  | nil => simpa using hqs rfl
  | cons p ps => simpa using hps

theorem Opens.head?_lines {ps : List String} (h : Opens ps) (hsome : ps ≠ []) (last : String) :
    (lines (unlines (ps ++ [last]))).head? ≠ some "" := by
  obtain ⟨p, ps, rfl⟩ := List.exists_cons_of_ne_nil hsome
  obtain ⟨q, qs, hrest⟩ := List.exists_cons_of_ne_nil (l := ps ++ [last]) (by simp)
  rw [List.cons_append, hrest, unlines, String.intercalate_cons_cons, head?_lines_append]
  exact fun hempty => opens_cons.1 h (Option.some.inj hempty)

theorem opens_declarationLine (h : d.Headed) : Opens [declarationLine d] := by
  obtain ⟨first, rest, hparts, hfirst⟩ : ∃ first rest,
      d.modifiers ++ [d.kind, d.name] = first :: rest ∧ firstLine first ≠ "" := by
    cases hmodifiers : d.modifiers with
    | nil => exact ⟨d.kind, [d.name], rfl, h d.kind (by simp)⟩
    | cons first rest => exact ⟨first, _, rfl, h first (by simp [hmodifiers])⟩
  simp only [declarationLine, hparts, List.cons_append, opens_cons]
  obtain ⟨more, hmore⟩ := exists_join_eq " " first _
  rw [hmore]
  exact firstLine_append (firstLine_append hfirst _) _

theorem opens_docBlock (limits : ChunkLimits) (doc : Option String) :
    Opens (docBlock limits doc) := by
  have hmark : firstLine "/**" ≠ "" := by decide
  cases hwanted : limits.includeDocumentation with
  | false => simp [docBlock, hwanted, opens_nil]
  | true => cases doc <;> simp [docBlock, hwanted, docLines, opens_nil, hmark]

theorem opens_headLines (limits : ChunkLimits) (file : SourceFile)
    (h : degraded = none → d.Headed) : Opens (headLines limits file degraded d) := by
  have hpackage : Opens (file.package.map fun p => "package " ++ p ++ ";").toList := by
    cases file.package with
    | none => simp [opens_nil]
    | some p => simpa using firstLine_append (firstLine_append (by decide) p) ";"
  unfold headLines
  cases degraded with
  | some reason =>
    have hreason : firstLine ("// partial extraction: " ++ reason) ≠ "" :=
      firstLine_append (by decide) reason
    refine (((hpackage.append fun _ => ?_).append ?_).append ?_).append ?_ <;> simp [hreason]
  | none =>
    have hheaded := h rfl
    refine (((hpackage.append fun _ => opens_nil).append fun _ => ?_).append fun _ => ?_).append
      fun _ => opens_declarationLine hheaded
    · exact opens_docBlock limits d.documentation
    · intro p hp
      have hfirst := List.mem_of_mem_head? hp
      exact hheaded p (by simp [hfirst])

theorem three_le_lineCount_fullText (hmembers : d.members ≠ []) :
    3 ≤ lineCount (fullText limits file degraded d) := by
  have hcount := lineCount_fullText limits file degraded d
  have hpos : 0 < d.members.length := List.length_pos_iff.2 hmembers
  have hparts : 3 ≤ (fullParts limits file degraded d).length := by
    simp [fullParts, headLines, bodyLines]
    omega
  omega

theorem le_lineCount_summary (hmax : 1 ≤ limits.maxChunkLines)
    (hheaded : degraded = none → d.Headed) :
    min 3 limits.maxChunkLines ≤ lineCount (truncate
      (unlines (headLines limits file degraded d ++ summaryLines d ++ ["\x7d"]))
      limits.maxChunkLines codeMarker) := by
  have hsome : headLines limits file degraded d ++ summaryLines d ≠ [] := by simp [headLines]
  have hopens : Opens (headLines limits file degraded d ++ summaryLines d) :=
    (opens_headLines limits file hheaded).append fun hnil => by simp [headLines] at hnil
  have hcount := lineCount_closed hsome
  generalize hps : headLines limits file degraded d ++ summaryLines d = ps at *
  rcases Nat.lt_or_ge limits.maxChunkLines (lineCount (unlines (ps ++ ["\x7d"]))) with
    hlong | hshort
  · rw [lineCount_truncate hmax hlong (by decide) (by decide) fun _ => hopens.head?_lines hsome _]
    omega
  · have hlength : 3 ≤ ps.length := by
      simp [← hps, headLines, summaryLines]
      omega
    rw [truncate_of_le hshort]
    simp at hcount
    omega

/-- The text of a type with a member has three lines, or as many as it may. -/
theorem le_lineCount_declarationText (hmax : 1 ≤ limits.maxChunkLines)
    (hmembers : d.members ≠ []) (hheaded : degraded = none → d.Headed) :
    min 3 limits.maxChunkLines ≤
      lineCount (declarationText limits (headLines limits file degraded d) d) := by
  unfold declarationText
  split
  · exact le_lineCount_summary hmax hheaded
  · have hfull : 3 ≤ lineCount (fullText limits file degraded d) :=
      three_le_lineCount_fullText hmembers
    exact (Nat.min_le_left _ _).trans hfull

variable {parser reader : Reader} {artifacts : List Artifact} {a : Artifact}

theorem headed_of_foundIn (hheads : parser.HeadsTypes)
    (hfound : FoundIn (parser.orElse reader) a file d)
    (hfull : (parser.orElse reader a.path a.text).degradedReason? = none) : d.Headed :=
  hheads a.path a.text file (Reader.file?_first hfound.1 hfull) d hfound.2

theorem mem_ofArtifacts_of_mem_emitted
    (hids : ∀ f ∈ emitted limits reader artifacts, ∀ g ∈ emitted limits reader artifacts,
      f.id = g.id → f = g) (h : f ∈ emitted limits reader artifacts) :
    f ∈ ofArtifacts limits reader artifacts := by
  have hid : f.id ∈ (ofArtifacts limits reader artifacts).map (·.id) :=
    (mem_keys_distinctFrom [] _ _).2 ⟨List.mem_map.2 ⟨f, h, rfl⟩, List.not_mem_nil⟩
  obtain ⟨g, hg, hsame⟩ := List.mem_map.1 hid
  rwa [← hids g (mem_emitted_of_mem hg) f h hsame]

/-- With a minimum of at most three lines every fragment of a member comes with the fragment of its
type, if different fragments have different ids. -/
theorem exists_entity_of_member (limits : ChunkLimits) (hone : 1 ≤ limits.minChunkLines)
    (hthree : limits.minChunkLines ≤ 3) (hmax : limits.minChunkLines ≤ limits.maxChunkLines)
    {parser : Reader} (hheads : parser.HeadsTypes) (artifacts : List Artifact) :
    let reader := parser.orElse Outline.read
    (∀ f ∈ emitted limits reader artifacts, ∀ g ∈ emitted limits reader artifacts,
      f.id = g.id → f = g) →
    ∀ f ∈ ofArtifacts limits reader artifacts, f.kind = .member →
      ∃ g ∈ ofArtifacts limits reader artifacts,
        g.kind = .entity ∧ g.filePath = f.filePath ∧ g.entityName = f.entityName := by
  intro reader hids f hf hkind
  obtain ⟨a, ha, haccepts, hmem⟩ := mem_emitted.1 (mem_emitted_of_mem hf)
  obtain ⟨hcode, file, d, hmade⟩ := madeOf_of_mem_ofArtifact hmem (by rw [hkind]; rfl)
  have hfound := hmade.1
  have hmembers : d.members ≠ [] := by
    rcases hmade.2 with hdeclaration | ⟨_, m, hm, _⟩
    · rw [kind_of_ofDeclaration hdeclaration] at hkind
      cases hkind
    · exact List.ne_nil_of_mem hm
  have hlong : min 3 limits.maxChunkLines ≤ lineCount (declarationText limits
      (headLines limits file (reader a.path a.text).degradedReason? d) d) :=
    le_lineCount_declarationText (by omega) hmembers (headed_of_foundIn hheads hfound)
  obtain ⟨g, hg, hentity, hgcode⟩ := mem_emitted_of_long ha haccepts hcode hfound
    ((Nat.le_min.2 ⟨hthree, hmax⟩).trans hlong)
  refine ⟨g, mem_ofArtifacts_of_mem_emitted hids hg, hentity, ?_, ?_⟩
  · rw [hgcode.path_eq, hmade.codeOf.path_eq]
  · rw [hgcode.entityName_eq, hmade.codeOf.entityName_eq]

def readOrder (mark : String) : Reader := fun path _ =>
  let pay : Member := ⟨"pay", .method, some "void", [], [], [], "void pay() \x7b \x7d", none, 3, 3⟩
  .parsed ⟨path, "java", none, [], [⟨⟨"Order", "Order", "class", ["public"], [mark], none, [],
    [], [pay], none, 1, 4⟩, []⟩]⟩

theorem headsTypes_readOrder {mark : String} (h : firstLine mark ≠ "") :
    (readOrder mark).HeadsTypes := by
  intro path text file hfile d hd
  cases hfile
  obtain rfl : d = _ := List.mem_singleton.1 hd
  simpa [Declaration.Headed, h] using (by decide : firstLine "public" ≠ "" ∧ firstLine "class" ≠ "")

theorem exists_entity_of_member_order :
    let limits : ChunkLimits := ⟨2, 2, 500, 1, true, true⟩
    let reader := (readOrder "@Entity").orElse Outline.read
    let artifacts : List Artifact := [⟨"Order.java", ""⟩]
    (readOrder "@Entity").HeadsTypes ∧
      (ofArtifacts limits reader artifacts).map (fun f => (f.kind, f.content)) = [
        (.entity, "@Entity\n// ... truncated"),
        (.member, "// From class: Order\nvoid pay() \x7b \x7d")] ∧
      ∀ f ∈ ofArtifacts limits reader artifacts, f.kind = .member →
        ∃ g ∈ ofArtifacts limits reader artifacts,
          g.kind = .entity ∧ g.filePath = f.filePath ∧ g.entityName = f.entityName := by
  intro limits reader artifacts
  have hheads : (readOrder "@Entity").HeadsTypes := headsTypes_readOrder (by decide)
  have hids : ((emitted limits reader artifacts).map (·.id)).Nodup := by decide +kernel
  exact ⟨hheads, by decide +kernel, exists_entity_of_member limits (by decide) (by decide)
    (by decide) hheads artifacts fun _ hf _ hg => List.inj_on_of_nodup_map hids hf hg⟩

-- An empty line in front is cut away with all that follows, and what is left is too short.
example : (ofArtifacts ⟨2, 2, 500, 1, true, true⟩ ((readOrder "").orElse Outline.read)
    [⟨"Order.java", ""⟩]).map (·.kind) = [.member] := by decide +kernel

end Chunk

end CodeRetrieval
