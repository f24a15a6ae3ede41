import CodeRetrieval.Proofs.Chunk.Origin

set_option autoImplicit false

namespace CodeRetrieval

section Texts

variable {α : Type} {c : α} {a b a' b' : List α}

theorem append_cons_eq_cases (h : a ++ c :: b = a' ++ c :: b') :
    a = a' ∧ b = b' ∨ (∃ between, a' = a ++ c :: between ∧ b = between ++ c :: b') ∨
      ∃ between, a = a' ++ c :: between ∧ b' = between ++ c :: b := by
  rcases List.append_eq_append_iff.1 h with ⟨between, ha, hrest⟩ | ⟨between, ha, hrest⟩
  · cases between with
    | nil =>
      cases hrest
      exact .inl ⟨by simpa using ha.symm, rfl⟩
    | cons x between =>
      cases hrest
      exact .inr (.inl ⟨between, ha, rfl⟩)
  · cases between with
    | nil =>
      cases hrest
      exact .inl ⟨by simpa using ha, rfl⟩
    | cons x between =>
      cases hrest
      exact .inr (.inr ⟨between, ha, rfl⟩)

theorem eq_of_append_cons_eq (hb : c ∉ b) (hb' : c ∉ b') (h : a ++ c :: b = a' ++ c :: b') :
    a = a' ∧ b = b' := by
  rcases append_cons_eq_cases h with heq | ⟨between, _, hmore⟩ | ⟨between, _, hmore⟩
  · exact heq
  · exact absurd (by simp [hmore]) hb
  · exact absurd (by simp [hmore]) hb'

theorem eq_of_append_cons_eq_left (ha : c ∉ a) (ha' : c ∉ a') (h : a ++ c :: b = a' ++ c :: b') :
    a = a' ∧ b = b' := by
  rcases append_cons_eq_cases h with heq | ⟨between, hmore, _⟩ | ⟨between, hmore, _⟩
  · exact heq
  · exact absurd (by simp [hmore]) ha'
  · exact absurd (by simp [hmore]) ha

end Texts

theorem toList_idText (path name : String) (kind : FragmentKind) :
    (idText path name kind).toList =
      (path.toList ++ ':' :: name.toList) ++ ':' :: kind.name.toList := by
  have hcolon : ":".toList = [':'] := by decide
  simp [idText, hcolon]

theorem colon_not_mem_kindName (kind : FragmentKind) : ':' ∉ kind.name.toList := by
  cases kind <;> decide

theorem kind_of_idText_eq {path path' name name' : String} {k k' : FragmentKind}
    (h : idText path name k = idText path' name' k') :
    k = k' ∧ path.toList ++ ':' :: name.toList = path'.toList ++ ':' :: name'.toList := by
  have hlists := congrArg String.toList h
  rw [toList_idText, toList_idText] at hlists
  obtain ⟨hfront, hkind⟩ :=
    eq_of_append_cons_eq (colon_not_mem_kindName k) (colon_not_mem_kindName k') hlists
  exact ⟨FragmentKind.name_inj (String.toList_inj.1 hkind), hfront⟩

theorem name_of_idText_eq {path path' name name' : String} {k k' : FragmentKind}
    (hname : ':' ∉ name.toList) (hname' : ':' ∉ name'.toList)
    (h : idText path name k = idText path' name' k') : path = path' ∧ name = name' := by
  obtain ⟨hpath, hnames⟩ := eq_of_append_cons_eq hname hname' (kind_of_idText_eq h).2
  exact ⟨String.toList_inj.1 hpath, String.toList_inj.1 hnames⟩

def idOf (text : String) : String := String.ofList ((Sha256.hex text.toUTF8.toList).take 16)

namespace Chunk

open Source

variable {limits : ChunkLimits} {reader : Reader} {artifacts : List Artifact} {known : KnownNames}
  {a : Artifact} {f g : Fragment}

def codeIdTexts (file : SourceFile) : List String :=
  file.declarations.flatMap fun d =>
    idText file.path d.qualifiedName .entity ::
      d.members.map fun m => idText file.path (d.qualifiedName ++ "." ++ m.idName) .member

def documentIdTexts (limits : ChunkLimits) (a : Artifact) : List String :=
  let name := Fragment.stem a.path
  match a.kind? with
  | some (.config format) =>
    idText a.path name .configDocument ::
      (configSections format a.text).map fun s =>
        idText a.path (name ++ "#" ++ s.key) .configSection
  | some (.prose format) =>
    idText a.path name .proseDocument ::
      (proseSections format limits.maxChunkLines (Text.trimEnd a.text)).zipIdx.map fun (s, i) =>
        idText a.path (s!"{name}#{i}:" ++ s.title) .proseSection
  | _ => []

/-- The texts that ids of fragments of an artifact are made from. -/
def idTexts (limits : ChunkLimits) (reader : Reader) (a : Artifact) : List String :=
  if a.isStructural then
    match (reader a.path a.text).file? with
    | some file => codeIdTexts file
    | none => []
  else documentIdTexts limits a

/-- The id is made from one of some texts, with the kind and, for a declared type, its name. -/
def Identified (texts : List String) (f : Fragment) : Prop :=
  ∃ path name, idText path name f.kind ∈ texts ∧ f.id = idOf (idText path name f.kind) ∧
    (f.kind = .entity → f.entityName = some name)

theorem MadeOf.identified {file : SourceFile} {d : Declaration}
    (h : MadeOf limits reader known a file d f) : Identified (codeIdTexts file) f := by
  obtain ⟨⟨_, hd⟩, hdeclaration | ⟨_, m, hm, hmember⟩⟩ := h
  · obtain ⟨content, _, rfl⟩ := Option.map_eq_some_iff.1 hdeclaration
    exact ⟨file.path, d.qualifiedName, List.mem_flatMap.2 ⟨d, hd, List.mem_cons_self⟩, rfl,
      fun _ => rfl⟩
  · obtain ⟨_, hmember⟩ := Option.ite_none_right_eq_some.1 hmember
    obtain ⟨content, _, rfl⟩ := Option.map_eq_some_iff.1 hmember
    exact ⟨file.path, d.qualifiedName ++ "." ++ m.idName, List.mem_flatMap.2 ⟨d, hd,
      List.mem_cons_of_mem _ (List.mem_map.2 ⟨m, hm, rfl⟩)⟩, rfl, fun hkind => nomatch hkind⟩

theorem identified_of_mem_ofDocument (h : f ∈ ofDocument limits known a) :
    Identified (documentIdTexts limits a) f := by
  unfold ofDocument at h
  unfold documentIdTexts
  cases hkind : a.kind? with
  | none =>
    rw [hkind] at h
    exact absurd h List.not_mem_nil
  | some kind =>
    rw [hkind] at h
    cases kind with
    | structural => exact absurd h List.not_mem_nil
    | config format =>
      rcases of_mem_ofConfig h with hwhole | ⟨s, hs, hsection⟩
      · obtain ⟨content, _, rfl⟩ := Option.map_eq_some_iff.1 hwhole
        exact ⟨a.path, _, List.mem_cons_self, rfl, fun hkind => nomatch hkind⟩
      · obtain ⟨content, _, rfl⟩ := Option.map_eq_some_iff.1 hsection
        exact ⟨a.path, _, List.mem_cons_of_mem _ (List.mem_map.2 ⟨s, hs, rfl⟩), rfl,
          fun hkind => nomatch hkind⟩
    | prose format =>
      rcases of_mem_ofProse h with hwhole | ⟨s, i, hs, hsection⟩
      · obtain ⟨content, _, rfl⟩ := Option.map_eq_some_iff.1 hwhole
        exact ⟨a.path, _, List.mem_cons_self, rfl, fun hkind => nomatch hkind⟩
      · obtain ⟨content, _, rfl⟩ := Option.map_eq_some_iff.1 hsection
        exact ⟨a.path, _, List.mem_cons_of_mem _ (List.mem_map.2 ⟨(s, i), hs, rfl⟩), rfl,
          fun hkind => nomatch hkind⟩

theorem identified_of_mem_ofArtifact (h : f ∈ ofArtifact limits reader known a) :
    Identified (idTexts limits reader a) f := by
  unfold ofArtifact at h
  unfold idTexts
  by_cases hcode : a.isStructural = true
  · rw [if_pos hcode] at h ⊢
    obtain ⟨file, d, hmade⟩ := mem_ofReading.1 h
    rw [hmade.1.1]
    exact hmade.identified
  · rw [if_neg hcode] at h ⊢
    exact identified_of_mem_ofDocument h

def allIdTexts (limits : ChunkLimits) (reader : Reader) (artifacts : List Artifact) :
    List String :=
  (artifacts.filter (accepts limits)).flatMap (idTexts limits reader)

theorem identified_of_mem_emitted (h : f ∈ emitted limits reader artifacts) :
    Identified (allIdTexts limits reader artifacts) f := by
  obtain ⟨a, ha, haccepts, hf⟩ := mem_emitted.1 h
  obtain ⟨path, name, htext, hid, hentity⟩ := identified_of_mem_ofArtifact hf
  have haccepted := List.mem_filter.2 ⟨ha, haccepts⟩
  exact ⟨path, name, List.mem_flatMap.2 ⟨a, haccepted, htext⟩, hid, hentity⟩

def Apart (texts : List String) : Prop := ∀ s ∈ texts, ∀ t ∈ texts, idOf s = idOf t → s = t

theorem apart_of_nodup {texts : List String} (h : (texts.map idOf).Nodup) : Apart texts :=
  fun _ hs _ ht hid => List.inj_on_of_nodup_map h hs ht hid

/-- Among texts that do not collide, the id of a declared type belongs to its name alone. -/
theorem Apart.entity_of_id_eq {texts : List String} (h : Apart texts) (hf : Identified texts f)
    (hg : Identified texts g) (hid : f.id = g.id) (hentity : f.kind = .entity)
    (hcolon : ∀ k ∈ [f, g], ∀ name, k.kind = .entity → k.entityName = some name →
      ':' ∉ name.toList) : g.kind = .entity ∧ g.entityName = f.entityName := by
  obtain ⟨path, name, htext, hfid, hfname⟩ := hf
  obtain ⟨path', name', htext', hgid, hgname⟩ := hg
  have hsame := h _ htext _ htext' (by rw [← hfid, ← hgid, hid])
  have hkind : g.kind = .entity := (kind_of_idText_eq hsame).1 ▸ hentity
  have hplain := hcolon f (by simp) name hentity (hfname hentity)
  have hplain' := hcolon g (by simp) name' hkind (hgname hkind)
  rw [hfname hentity, hgname hkind, (name_of_idText_eq hplain hplain' hsame).2]
  exact ⟨hkind, rfl⟩

end Chunk

end CodeRetrieval
