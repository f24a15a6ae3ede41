import CodeRetrieval.Proofs.Chunk.Clashes
import CodeRetrieval.Proofs.Json.Pretty
import CodeRetrieval.Proofs.Toml.Printer
import Mathlib.Data.List.Forall2

set_option autoImplicit false

namespace CodeRetrieval

theorem forall₂_filterMap {α β : Type} {R : α → β → Prop} {g : α → Option β} {xs : List α}
    (h : ∀ x ∈ xs, ∃ y, g x = some y ∧ R x y) : List.Forall₂ R xs (xs.filterMap g) := by
  induction xs with
  | nil => exact .nil
  | cons x xs ih =>
    obtain ⟨y, hy, hxy⟩ := h x List.mem_cons_self
    rw [List.filterMap_cons_some hy]
    exact .cons hxy (ih fun x hx => h x (List.mem_cons_of_mem _ hx))

namespace Chunk

variable {limits : ChunkLimits} {known : KnownNames} {format : ConfigFormat}
  {ss : List ConfigSection}

/-- What a document holds at its top level: each key with the rendering of its entry alone. -/
inductive TopLevel (text : String) : ConfigFormat → List ConfigSection → Prop
  | json {fields : List (String × Json)} (h : Json.parse? text = some (.obj fields)) :
      TopLevel text .json (fields.map fun (k, v) => ⟨k, (Json.obj [(k, v)]).pretty⟩)
  | toml {entries : List (String × Toml)} (h : Toml.parse? text = some entries) :
      TopLevel text .toml (entries.map fun (k, v) => ⟨k, Toml.printEntry k v⟩)

theorem TopLevel.configSections_eq {text : String} (h : TopLevel text format ss) :
    configSections format text = ss := by
  cases h with
  | json h => simp only [configSections, h]
  | toml h => simp only [configSections, h, Option.getD_some]

theorem TopLevel.isBlankText_rendered {text : String} (h : TopLevel text format ss)
    {s : ConfigSection} (hs : s ∈ ss) : Text.isBlankText s.rendered = false := by
  cases h with
  | json h =>
    obtain ⟨e, _, rfl⟩ := List.mem_map.1 hs
    exact Json.isBlankText_pretty [e]
  | toml h =>
    obtain ⟨e, _, rfl⟩ := List.mem_map.1 hs
    exact Toml.isBlankText_printEntry e.1 e.2

def keyIdText (path key : String) : String :=
  idText path (Fragment.stem path ++ "#" ++ key) .configSection

/-- The fragment of a whole document that was cut: it lists the keys. -/
structure CutWhole (path : String) (keys : List String) (f : Fragment) : Prop where
  kind_eq : f.kind = .configDocument
  filePath_eq : f.filePath = path
  id_eq : f.id = idOf (idText path (Fragment.stem path) .configDocument)
  truncated : isTruncated f.content = true
  keys_eq : f.metadata.lookup "keys" = some (.ofStrings keys)

/-- The fragment of a key: it refers to what is mentioned in the rendering of its own entry. -/
structure OfKey (known : KnownNames) (path : String) (s : ConfigSection) (f : Fragment) :
    Prop where
  kind_eq : f.kind = .configSection
  filePath_eq : f.filePath = path
  id_eq : f.id = idOf (keyIdText path s.key)
  section_eq : f.metadata.lookup "section" = some (.str s.key)
  references_eq : f.references = Reference.ofText s.rendered known

theorem exists_cutWhole (path : String) (format : ConfigFormat) (text : String)
    (hlong : isLongConfig limits known path text = true)
    (hmax : limits.minChunkLines ≤ limits.maxChunkLines) :
    ∃ whole, ofConfigWhole limits known path format text = some whole ∧
      CutWhole path ((configSections format text).map (·.key)) whole := by
  have hlines : limits.maxChunkLines < Text.lineCount
      (configText (Fragment.stem path) (Reference.ofText text known) text) := of_decide_eq_true hlong
  obtain ⟨content, hbound⟩ := exists_bound_iff.2 (hmax.trans hlines.le)
  exact ⟨_, congrArg (Option.map _) hbound, rfl, rfl, rfl,
    isTruncated_of_bound hbound hlines (.inl rfl), rfl⟩

theorem exists_ofKey (path : String) (format : ConfigFormat) (text : String) {s : ConfigSection}
    (hrendered : Text.isBlankText s.rendered = false) (hmin : limits.minChunkLines ≤ 3) :
    ∃ f, ofConfigSection limits known path format text s = some f ∧ OfKey known path s f := by
  have hbody : Text.trimEnd s.rendered ≠ "" := by
    rwa [ne_eq, ← Text.isBlankText_iff, Bool.not_eq_true]
  have hlines := Text.three_le_lineCount
    ("// Config: " ++ Fragment.stem path ++ ", Section: " ++ s.key) hbody
  obtain ⟨content, hbound⟩ := exists_bound_iff.2 (hmin.trans hlines)
  exact ⟨_, congrArg (Option.map _) hbound, rfl, rfl, rfl, rfl, rfl⟩

/-- Of a document that is too long no key is lost: its fragments are the whole, which is cut and
lists all keys in increasing order, and then one for each key in that order. -/
theorem keys_kept (limits : ChunkLimits) (known : KnownNames) (a : Artifact)
    (hkind : a.kind? = some (.config format)) (hread : TopLevel a.text format ss)
    (hlong : isLongConfig limits known a.path a.text = true) (hmin : limits.minChunkLines ≤ 3)
    (hmax : limits.minChunkLines ≤ limits.maxChunkLines) :
    ∃ whole sections, ofDocument limits known a = whole :: sections ∧
      CutWhole a.path (ss.map (·.key)) whole ∧ (ss.map (·.key)).Pairwise (· < ·) ∧
      List.Forall₂ (OfKey known a.path) ss sections ∧
      (idText a.path (Fragment.stem a.path) .configDocument ::
        ss.map fun s => keyIdText a.path s.key).Nodup := by
  have hsections := hread.configSections_eq
  obtain ⟨whole, hwhole, hcut⟩ := exists_cutWhole a.path format a.text hlong hmax
  rw [hsections] at hcut
  refine ⟨whole, ss.filterMap (ofConfigSection limits known a.path format a.text), ?_, hcut, ?_,
    ?_, ?_⟩
  · simp only [ofDocument, hkind, ofConfig, hwhole, hlong, hsections]
    rfl
  · rw [← hsections]
    exact List.pairwise_map.2 (sortedBy_configSections format a.text)
  · exact forall₂_filterMap fun s hs =>
      exists_ofKey a.path format a.text (hread.isBlankText_rendered hs) hmin
  · have hsubjects : (configSubjects limits known a.path format a.text).Pairwise
        fun s t => s.idText ≠ t.idText := pairwise_configSubjects a.path format a.text
    rw [configSubjects, hlong, hsections, withParts, if_pos rfl] at hsubjects
    have hnodup := List.pairwise_map.2 hsubjects
    rwa [List.map_cons, List.map_map] at hnodup

theorem keys_kept_shop :
    let limits : ChunkLimits := ⟨3, 3, 99, 50, true, true⟩
    let a : Artifact := ⟨"shop.json", "\x7b\"tax\": 1,\n\"Cart\": \x7b\x7d\x7d"⟩
    let ss : List ConfigSection :=
      [⟨"Cart", "\x7b\n  \"Cart\": \x7b\x7d\n\x7d"⟩, ⟨"tax", "\x7b\n  \"tax\": 1\n\x7d"⟩]
    (ofDocument limits ⟨[]⟩ a).map (fun f => (f.kind, f.references)) =
        [(.configDocument, ["Cart"]), (.configSection, ["Cart"]), (.configSection, [])] ∧
      a.kind? = some (.config .json) ∧ TopLevel a.text .json ss ∧
      ∃ whole sections, ofDocument limits ⟨[]⟩ a = whole :: sections ∧
        CutWhole a.path ["Cart", "tax"] whole ∧ List.Forall₂ (OfKey ⟨[]⟩ a.path) ss sections := by
  intro limits a ss
  have hkind : a.kind? = some (.config .json) := by decide +kernel
  have hparse : Json.parse? a.text = some (.obj [("Cart", .obj []), ("tax", .num (.whole 1))]) := by
    decide +kernel
  have hread : TopLevel a.text .json ss := .json hparse
  obtain ⟨whole, sections, hall, hwhole, _, hsections, _⟩ :=
    keys_kept limits ⟨[]⟩ a hkind hread (by decide +kernel) (by decide) (by decide)
  exact ⟨by decide +kernel, hkind, hread, whole, sections, hall, hwhole, hsections⟩

end Chunk

end CodeRetrieval
