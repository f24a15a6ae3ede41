import CodeRetrieval.Proofs.Chunk.Subjects
import CodeRetrieval.Proofs.Json.Fields
import CodeRetrieval.Proofs.Source.Grammar.Names
import Mathlib.Data.List.Sigma

/-!
Which subjects share the text behind their ids. Paths, names and kinds are put together with colons,
dots and numbers and nothing is escaped, but all of them can be told from the text; only types of one
qualified name clash, and members whose names and parameter types are written alike.
-/

set_option autoImplicit false

namespace CodeRetrieval.Chunk

open Source

variable {limits : ChunkLimits} {reader : Reader} {known : KnownNames} {a : Artifact}
  {artifacts : List Artifact}

/-- No two paths are the same, and none goes on after another one and a colon. -/
structure PathsApart (artifacts : List Artifact) : Prop where
  distinct : (artifacts.map (·.path)).Nodup
  behind : ∀ a ∈ artifacts, ∀ b ∈ artifacts, ¬a.path.toList ++ [':'] <+: b.path.toList

namespace Subject

theorem path_of_idText_eq {s t : Subject} (hst : ¬s.path.toList ++ [':'] <+: t.path.toList)
    (hts : ¬t.path.toList ++ [':'] <+: s.path.toList) (h : s.idText = t.idText) :
    s.path = t.path := by
  rcases append_cons_eq_cases (kind_of_idText_eq h).2 with heq | ⟨more, ht, _⟩ | ⟨more, hs, _⟩
  · exact String.toList_inj.1 heq.1
  · exact absurd ⟨more, by simp [ht]⟩ hst
  · exact absurd ⟨more, by simp [hs]⟩ hts

theorem name_of_idText_eq {s t : Subject} (h : s.idText = t.idText) (hpath : s.path = t.path) :
    s.name = t.name := by
  have hnames := (kind_of_idText_eq h).2
  rw [hpath, List.append_cancel_left_eq, List.cons.injEq] at hnames
  exact String.toList_inj.1 hnames.2

theorem idText_eq_iff {s t : Subject} (hpath : s.path = t.path) :
    s.idText = t.idText ↔ s.kind = t.kind ∧ s.name = t.name := by
  constructor
  · intro h
    exact ⟨(kind_of_idText_eq h).1, name_of_idText_eq h hpath⟩
  · intro h
    unfold idText
    rw [hpath, h.1, h.2]

def SameName : Subject → Subject → Prop
  | declared _ _ d, declared _ _ e => d.qualifiedName = e.qualifiedName
  | member _ d m, member _ e n => d.qualifiedName = e.qualifiedName ∧ m.idName = n.idName
  | _, _ => False

end Subject

section Code

theorem toList_idName (m : Member) : ∃ types, m.idName.toList = m.name.toList ++ '(' :: types := by
  refine ⟨(Text.join "," (m.parameters.map (·.typeName)) ++ ")").toList, ?_⟩
  simp [Member.idName]

/-- The parts of a member's name are told by the first parenthesis and the last dot before it. -/
theorem memberName_eq_iff {d e : Declaration} {m n : Member} (hd : d.WellNamed) (he : e.WellNamed)
    (hm : IsName m.name) (hn : IsName n.name) :
    d.qualifiedName ++ "." ++ m.idName = e.qualifiedName ++ "." ++ n.idName ↔
      d.qualifiedName = e.qualifiedName ∧ m.idName = n.idName := by
  constructor
  · intro h
    obtain ⟨types, hmtypes⟩ := toList_idName m
    obtain ⟨types', hntypes⟩ := toList_idName n
    have hopen {c : Declaration} {k : Member} (hc : c.WellNamed) (hk : IsName k.name) :
        '(' ∉ c.qualifiedName.toList ++ '.' :: k.name.toList := by
      have hqualified : '(' ∉ c.qualifiedName.toList := hc.not_mem (by decide) (by decide)
      have hname : '(' ∉ k.name.toList := hk.not_mem (by decide)
      simp [hqualified, hname]
    have hlists : (d.qualifiedName.toList ++ '.' :: m.name.toList) ++ '(' :: types =
        (e.qualifiedName.toList ++ '.' :: n.name.toList) ++ '(' :: types' := by
      simpa [hmtypes, hntypes] using congrArg String.toList h
    obtain ⟨hfront, htypes⟩ := eq_of_append_cons_eq_left (hopen hd hm) (hopen he hn) hlists
    obtain ⟨hqualified, hname⟩ := eq_of_append_cons_eq (hm.not_mem (by decide))
      (hn.not_mem (by decide)) hfront
    refine ⟨String.toList_inj.1 hqualified, String.toList_inj.1 ?_⟩
    rw [hmtypes, hntypes, hname, htypes]
  · intro h
    rw [h.1, h.2]

/-- A subject of a source file in which types and members bear names. -/
def Subject.OfCode : Subject → Prop
  | .declared _ _ d => d.WellNamed
  | .member _ d m => d.WellNamed ∧ IsName m.name
  | _ => False

theorem Subject.OfCode.sameName_iff {s t : Subject} (hs : s.OfCode) (ht : t.OfCode) :
    s.kind = t.kind ∧ s.name = t.name ↔ s.SameName t := by
  cases s with
  | declared file degraded d =>
    cases t with
    | declared => simp [kind, name, SameName]
    | _ => simp [kind, SameName]
  | member file d m =>
    cases t with
    | member file' e n => simpa [kind, name, SameName] using memberName_eq_iff hs.1 ht.1 hs.2 ht.2
    | _ => simp [kind, SameName]
  | _ => exact hs.elim

theorem of_mem_codeSubjects (hpaths : reader.KeepsPaths) (hnames : reader.NamesTypes) {s : Subject}
    (h : s ∈ codeSubjects limits (reader a.path a.text)) : s.path = a.path ∧ s.OfCode := by
  unfold codeSubjects at h
  split at h
  · exact absurd h List.not_mem_nil
  · next file hfile =>
    obtain ⟨d, hd, hs⟩ := List.mem_flatMap.1 h
    have hpath := hpaths _ _ _ hfile
    have hwell := hnames.wellNamed hfile hd
    rcases mem_withParts hs with rfl | hs
    · exact ⟨hpath, hwell⟩
    · obtain ⟨m, hm, rfl⟩ := List.mem_map.1 hs
      exact ⟨hpath, hwell, hnames.isName_member hfile hd m hm⟩

end Code

section Documents

theorem sortedBy_configSections (format : ConfigFormat) (text : String) :
    SortedBy (·.key) (configSections format text) := by
  unfold configSections
  cases format with
  | json =>
    simp only
    split
    · next fields hfields => exact List.pairwise_map.2 (Json.sortedBy_of_parse? hfields)
    · exact .nil
  | toml =>
    simp only
    cases hparse : Toml.parse? text with
    | none => exact .nil
    | some entries =>
      obtain ⟨reading, _, hclose⟩ := Option.bind_eq_some_iff.1 hparse
      obtain ⟨draft, _, rfl⟩ := Option.map_eq_some_iff.1 hclose
      exact List.pairwise_map.2 (Json.sortedBy_orderFields (Toml.finishEntries draft.entries))

theorem pairwise_withParts {wanted : Bool} {whole : Subject} {parts : List Subject}
    (hkinds : ∀ s ∈ parts, whole.kind ≠ s.kind)
    (hparts : parts.Pairwise fun s t => s.idText ≠ t.idText) :
    (withParts wanted whole parts).Pairwise fun s t => s.idText ≠ t.idText := by
  have hwhole : ∀ s ∈ parts, whole.idText ≠ s.idText := fun s hs heq =>
    hkinds s hs (kind_of_idText_eq heq).1
  cases wanted with
  | true => exact List.pairwise_cons.2 ⟨hwhole, hparts⟩
  | false => exact List.pairwise_singleton _ _

theorem pairwise_configSubjects (path : String) (format : ConfigFormat) (text : String) :
    (configSubjects limits known path format text).Pairwise fun s t => s.idText ≠ t.idText := by
  refine pairwise_withParts (List.forall_mem_map.2 fun _ _ hkind => nomatch hkind) ?_
  refine List.pairwise_map.2 ?_
  have hkeys := (sortedBy_configSections format text).keys_nodup
  refine (List.pairwise_map.1 hkeys).imp fun hkey heq => ?_
  exact hkey ((String.append_right_inj _).1 (Subject.name_of_idText_eq heq rfl))

theorem index_of_passageName_eq {stem title title' : String} {i j : Nat}
    (h : s!"{stem}#{i}:" ++ title = s!"{stem}#{j}:" ++ title') : i = j := by
  have hcolon (n : Nat) : ':' ∉ Nat.toDigits 10 n := by
    intro hmem
    have hdigit := Nat.isDigit_of_mem_toDigits (by decide) (by decide) hmem
    cases hdigit
  have hlists : Nat.toDigits 10 i ++ ':' :: title.toList =
      Nat.toDigits 10 j ++ ':' :: title'.toList := by
    simpa [toString] using congrArg String.toList h
  have hdigits := (eq_of_append_cons_eq_left (hcolon i) (hcolon j) hlists).1
  have hnumbers := congrArg (Nat.ofDigitChars 10 · 0) hdigits
  simpa using hnumbers

theorem pairwise_proseSubjects (path : String) (format : ProseFormat) (text : String) :
    (proseSubjects limits path format text).Pairwise fun s t => s.idText ≠ t.idText := by
  refine pairwise_withParts (List.forall_mem_map.2 fun _ _ hkind => nomatch hkind) ?_
  refine List.pairwise_map.2 ?_
  refine (List.pairwise_map.1 (List.nodup_zipIdx_map_snd _)).imp fun hindex heq => ?_
  exact hindex (index_of_passageName_eq (Subject.name_of_idText_eq heq rfl))

theorem pairwise_documentSubjects (a : Artifact) :
    (documentSubjects limits known a).Pairwise fun s t => s.idText ≠ t.idText := by
  unfold documentSubjects
  split
  · exact pairwise_configSubjects _ _ _
  · exact pairwise_proseSubjects _ _ _
  · exact List.Pairwise.nil

theorem path_of_mem_documentSubjects {s : Subject} (h : s ∈ documentSubjects limits known a) :
    s.path = a.path := by
  unfold documentSubjects at h
  split at h
  · rcases mem_withParts h with rfl | hpart
    · rfl
    · obtain ⟨_, _, rfl⟩ := List.mem_map.1 hpart
      rfl
  · rcases mem_withParts h with rfl | hpart
    · rfl
    · obtain ⟨_, _, rfl⟩ := List.mem_map.1 hpart
      rfl
  · exact absurd h List.not_mem_nil

end Documents

/-- No two subjects with a fragment in one accepted source file bear one name. -/
def NamesApart (limits : ChunkLimits) (reader : Reader) (artifacts : List Artifact) : Prop :=
  ∀ a ∈ artifacts, accepts limits a = true → a.isStructural = true →
    (keptOf limits reader (knownOf limits reader artifacts) a).Pairwise fun s t => ¬s.SameName t

theorem path_of_mem_keptOf (hpaths : reader.KeepsPaths) (hnames : reader.NamesTypes) {s : Subject}
    (h : s ∈ keptOf limits reader known a) : s.path = a.path := by
  have hs := List.mem_of_mem_filter h
  unfold subjectsOf at hs
  by_cases hcode : a.isStructural = true
  · rw [if_pos hcode] at hs
    exact (of_mem_codeSubjects hpaths hnames hs).1
  · rw [if_neg hcode] at hs
    exact path_of_mem_documentSubjects hs

theorem nodup_keptOf_iff (hpaths : reader.KeepsPaths) (hnames : reader.NamesTypes) :
    ((keptOf limits reader known a).map (·.idText)).Nodup ↔
      (a.isStructural = true →
        (keptOf limits reader known a).Pairwise fun s t => ¬s.SameName t) := by
  rw [List.Nodup, List.pairwise_map]
  by_cases hcode : a.isStructural = true
  · rw [imp_iff_right hcode]
    refine List.Pairwise.iff_of_mem fun hs ht => not_congr ?_
    have hsubjects : subjectsOf limits reader known a =
        codeSubjects limits (reader a.path a.text) := if_pos hcode
    rw [keptOf, hsubjects] at hs ht
    obtain ⟨hspath, hs⟩ := of_mem_codeSubjects hpaths hnames (List.mem_of_mem_filter hs)
    obtain ⟨htpath, ht⟩ := of_mem_codeSubjects hpaths hnames (List.mem_of_mem_filter ht)
    exact (Subject.idText_eq_iff (hspath.trans htpath.symm)).trans (hs.sameName_iff ht)
  · refine iff_of_true ?_ fun h => absurd h hcode
    have hsubjects : subjectsOf limits reader known a = documentSubjects limits known a :=
      if_neg hcode
    rw [keptOf, hsubjects]
    exact (pairwise_documentSubjects a).filter _

theorem nodup_keptSubjects_iff (hpaths : reader.KeepsPaths) (hnames : reader.NamesTypes)
    (hapart : PathsApart artifacts) :
    ((keptSubjects limits reader artifacts).map (·.idText)).Nodup ↔
      NamesApart limits reader artifacts := by
  rw [keptSubjects, List.map_flatMap, List.nodup_flatMap]
  -- No text is shared by two artifacts, as paths can be told from it.
  have hdisjoint : (artifacts.filter (accepts limits)).Pairwise
      (Function.onFun List.Disjoint fun a =>
        (keptOf limits reader (knownOf limits reader artifacts) a).map (·.idText)) := by
    refine List.Pairwise.imp_of_mem ?_ ((List.pairwise_map.1 hapart.distinct).filter _)
    intro a b ha hb hne text hta htb
    obtain ⟨s, hs, rfl⟩ := List.mem_map.1 hta
    obtain ⟨t, ht, heq⟩ := List.mem_map.1 htb
    have hspath := path_of_mem_keptOf hpaths hnames hs
    have htpath := path_of_mem_keptOf hpaths hnames ht
    have hab := hapart.behind a (List.mem_of_mem_filter ha) b (List.mem_of_mem_filter hb)
    have hba := hapart.behind b (List.mem_of_mem_filter hb) a (List.mem_of_mem_filter ha)
    rw [← hspath, ← htpath] at hne hab hba
    exact hne (Subject.path_of_idText_eq hab hba heq.symm)
  rw [and_iff_left hdisjoint]
  simp only [List.mem_filter, and_imp, nodup_keptOf_iff hpaths hnames, NamesApart]

theorem ofArtifacts_eq_emitted_iff
    (happart : Apart ((keptSubjects limits reader artifacts).map (·.idText))) :
    ofArtifacts limits reader artifacts = emitted limits reader artifacts ↔
      ((keptSubjects limits reader artifacts).map (·.idText)).Nodup := by
  rw [ofArtifacts_eq_emitted_iff_ids, ids_emitted_perm.nodup_iff, ← Function.comp_def,
    ← List.map_map]
  exact ⟨List.Nodup.of_map _, fun h => h.map_on happart⟩

/-- The texts behind ids are pairwise different exactly if names are apart in each source file, and
then, if no two of these texts have one id, every fragment is left. -/
theorem ids_apart_iff (limits : ChunkLimits) {reader : Reader} (hpaths : reader.KeepsPaths)
    (hnames : reader.NamesTypes) (artifacts : List Artifact) (hapart : PathsApart artifacts) :
    let texts := (keptSubjects limits reader artifacts).map (·.idText)
    (texts.Nodup ↔ NamesApart limits reader artifacts) ∧
      (Apart texts →
        (ofArtifacts limits reader artifacts = emitted limits reader artifacts ↔
          NamesApart limits reader artifacts)) := by
  intro texts
  have htexts : texts.Nodup ↔ NamesApart limits reader artifacts :=
    nodup_keptSubjects_iff hpaths hnames hapart
  exact ⟨htexts, fun happart => (ofArtifacts_eq_emitted_iff happart).trans htexts⟩

def cart : List Artifact := [
  ⟨"Cart.java", "class Cart \x7b\n void add(int i) \x7b\x7d\n void add(int[] i) \x7b\x7d\n\x7d\n"⟩,
  ⟨"cart.md", "Cart\n"⟩]

theorem ids_apart_iff_cart :
    let limits : ChunkLimits := ⟨1, 200, 500, 1, true, true⟩
    let reader := Grammar.read.orElse Outline.read
    let texts := (keptSubjects limits reader cart).map (·.idText)
    texts = ["Cart.java:Cart:entity", "Cart.java:Cart.add(int):member",
      "Cart.java:Cart.add(int[]):member", "cart.md:cart:prose_document"] ∧
      reader.KeepsPaths ∧ reader.NamesTypes ∧ PathsApart cart ∧ Apart texts ∧
      NamesApart limits reader cart ∧
      ofArtifacts limits reader cart = emitted limits reader cart := by
  intro limits reader texts
  have htexts : texts = ["Cart.java:Cart:entity", "Cart.java:Cart.add(int):member",
      "Cart.java:Cart.add(int[]):member", "cart.md:cart:prose_document"] := by decide +kernel
  have hkeeps : reader.KeepsPaths := Grammar.keepsPaths_read.orElse Outline.keepsPaths_read
  have hreader : reader.NamesTypes := Grammar.namesTypes_read.orElse Outline.namesTypes_read
  have hpaths : PathsApart cart := ⟨by decide, by decide⟩
  have happart : Apart texts := by
    rw [htexts]
    exact apart_of_nodup (by decide +kernel)
  have hiff := ids_apart_iff limits hkeeps hreader cart hpaths
  have hnames : NamesApart limits reader cart := by
    refine hiff.1.1 ?_
    show texts.Nodup
    rw [htexts]
    decide
  exact ⟨htexts, hkeeps, hreader, hpaths, happart, hnames, (hiff.2 happart).2 hnames⟩

-- A file whose path goes on after the path of another and a colon clashes with one of its headers.
example :
    let limits : ChunkLimits := ⟨1, 2, 500, 50, true, true⟩
    let artifacts : List Artifact := [⟨"x.md", "# y.md:x.md:x#0:y#0:T\n\none\n"⟩,
      ⟨"x.md:x#0:y.md", "# T\n\ntwo\n"⟩]
    ¬((keptSubjects limits Outline.read artifacts).map (·.idText)).Nodup := by
  decide +kernel

/-- Overloads for numbers and for one number, with the array marks behind the name. -/
def overloads : List Artifact :=
  [⟨"A.java", "class A \x7b\n void f(int i[]) \x7b\x7d\n void f(int i) \x7b\x7d\n\x7d\n"⟩]

/-- Legal overloads clash if their parameter types differ in array marks behind a name. -/
theorem not_ids_apart :
    ¬ ∀ (limits : ChunkLimits) (artifacts : List Artifact), PathsApart artifacts →
      (∀ a ∈ artifacts, a.isStructural = true → ∃ file, Grammar.read a.path a.text = .parsed file) →
      ((keptSubjects limits (Grammar.read.orElse Outline.read) artifacts).map (·.idText)).Nodup := by
  intro hall
  have hread : ∀ a ∈ overloads, (Grammar.read a.path a.text).file?.isSome = true ∧
      (Grammar.read a.path a.text).degradedReason? = none := by decide +kernel
  have hparsed : ∀ a ∈ overloads, a.isStructural = true →
      ∃ file, Grammar.read a.path a.text = .parsed file := by
    intro a ha _
    have hfull := hread a ha
    cases hreading : Grammar.read a.path a.text with
    | parsed file => exact ⟨file, rfl⟩
    | degraded => simp [hreading, Reading.degradedReason?] at hfull
    | failed => simp [hreading, Reading.file?] at hfull
  have hnodup := hall ⟨1, 200, 500, 1, true, true⟩ overloads ⟨by decide, by decide⟩ hparsed
  have htexts : (keptSubjects ⟨1, 200, 500, 1, true, true⟩ (Grammar.read.orElse Outline.read)
      overloads).map (·.idText) =
        ["A.java:A:entity", "A.java:A.f(int):member", "A.java:A.f(int):member"] := by
    decide +kernel
  rw [htexts] at hnodup
  exact absurd hnodup (by decide)

end CodeRetrieval.Chunk
