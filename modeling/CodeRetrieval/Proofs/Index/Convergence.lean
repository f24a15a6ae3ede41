import CodeRetrieval.Proofs.Files.Tree
import CodeRetrieval.Proofs.Index.Run
import CodeRetrieval.Proofs.Store.History

/-!
Indexing settles. Where no text is refused a run leaves exactly the fragments of the tree, whatever
was stored before, and a further run finds nothing to do.
-/

set_option autoImplicit false

namespace CodeRetrieval.Index

open KeyedStore

namespace Updates

variable {S : Type} [Store S] [KeyedStore S] {es : EmbeddingSettings} {e : Embedder} {reset : Bool}
  {fresh : List Fragment} {before cleared after : S} {written : Written} {summary : IndexSummary}

theorem keys_itemsOf (s : S) (ps : List Upserted) :
    (itemsOf s ps).map key = ps.map (·.1.id) := by
  rw [itemsOf, List.map_map]
  exact List.map_congr_left fun p _ => key_item _ p

/-- Where every fragment is written nothing else is left: what is stored under another id is stale,
and its file has been forgotten. -/
theorem items_perm (h : Updates es e reset fresh before cleared written summary after)
    (hbefore : Sound before) (hids : (fresh.map (·.id)).Nodup)
    (hall : written.pairs.map (·.1) = fresh) :
    (items after).Perm (itemsOf before written.pairs) := by
  have hwritten : ((itemsOf before written.pairs).map key).Nodup := by
    rw [keys_itemsOf]
    exact h.ids_nodup hids
  refine (List.perm_ext_iff_of_nodup (items_nodup (h.sound hbefore)) hwritten.of_map).2 ?_
  intro x
  rw [h.mem_after hbefore hids]
  constructor
  · intro hcases
    rcases hcases with hx | ⟨hx, hkept, hout⟩
    · exact hx
    · obtain ⟨_, hfresh⟩ := forgotten_eq_false_iff.1 hkept
      have hkey := hfresh x hx rfl
      rw [← hall, List.map_map] at hkey
      exact absurd hkey hout
  · exact .inl

end Updates

theorem forgotten_settled {S : Type} [Store S] [KeyedStore S] {s : S} {fresh : List Fragment}
    (hkeys : ∀ x ∈ items s, key x ∈ fresh.map (·.id)) (file : String) :
    forgotten false s fresh file = false :=
  forgotten_eq_false_iff.2 ⟨rfl, fun x hx _ => hkeys x hx⟩

theorem rewrites_itself {m cleared : Memory} {fresh : List Fragment} {ps : List Upserted}
    {removed : Nat} (hm : m.entries.Sorted) (hids : (ps.map (·.1.id)).Nodup)
    (hfresh : ps.map (·.1) = fresh) (hitems : (items m).Perm (itemsOf m ps))
    (hclear : clear false fresh m = .ok (removed, cleared)) :
    removed = 0 ∧ puts cleared ps = m := by
  have hforgets := forgets_of_clear (S := Memory) hm hclear
  have hkeys : ∀ x ∈ items m, key x ∈ fresh.map (·.id) := by
    intro x hx
    have hkey : key x ∈ (itemsOf m ps).map key := List.mem_map.2 ⟨x, hitems.mem_iff.1 hx, rfl⟩
    rw [Updates.keys_itemsOf] at hkey
    rw [← hfresh, List.map_map]
    exact hkey
  have hsame : items cleared = items m := by
    rw [hforgets.items, List.filter_eq_self]
    intro x _
    rw [forgotten_settled hkeys]
    rfl
  refine ⟨?_, ?_⟩
  · rw [hforgets.removed, List.countP_eq_zero]
    intro x _
    rw [forgotten_settled hkeys]
    exact Bool.false_ne_true
  · -- Two stores in memory with the same items are the same, so only the items matter.
    have hsound := sound_puts ps hforgets.sound
    have hsetting : setting (puts cleared ps) = setting m := by
      rw [setting_puts, hforgets.setting]
    refine Memory.eq_of_items_perm hsound hm hsetting ?_
    refine KeyedStore.items_perm (S := Memory) hsound hm fun x => ?_
    rw [mem_puts hforgets.sound hids, hsame, itemsOf, hforgets.setting]
    constructor
    · intro hcases
      rcases hcases with hx | ⟨hx, _⟩
      · exact hitems.mem_iff.2 hx
      · exact hx
    · intro hx
      exact .inl (hitems.mem_iff.1 hx)

/-- A run that skips no text leaves exactly the fragments of the tree, whatever was stored before
and whether or not all of it was removed first: it removes the files of which something is gone,
and counts what it removes and what it writes. Another run then removes nothing and leaves the
store as it is. -/
theorem run_converges {settings : Settings} {files : FileTree} {here : FilePath} {e : Embedder}
    {reader : Source.Reader} {o : IndexOptions} {m : Memory} {summary : IndexSummary}
    {st : IndexState Memory} (hm : m.Reachable) (hdry : o.dryRun = false)
    (hrun : (run settings files here e reader o).result m = (.ok summary, st))
    (hnone : settings.embedding.isEnabled = true → summary.embedSkipped = 0) :
    ∃ scan, Scan.ofTree files here settings.index = .ok scan ∧
      let fresh := Chunk.ofArtifacts settings.chunking reader scan.artifacts
      st.store.entries.fragments.Perm fresh ∧
      summary.removed = (m.entries.filter fun x => o.reset || m.entries.any fun y =>
        y.fragment.filePath == x.fragment.filePath &&
          !(fresh.map (·.id)).contains y.fragment.id).length ∧
      summary.stored = fresh.length ∧
      ∃ summary' st', (run settings files here e reader {}).result st.store =
        (.ok summary', st') ∧ summary'.removed = 0 ∧ st'.store = st.store := by
  obtain ⟨scan, hscan, cleared, written, h⟩ := run_updates hdry hrun
  have hsorted := hm.sorted
  have hids := Chunk.ofArtifacts_ids settings.chunking reader scan.artifacts
  have hall := supply_all h.supplies hnone
  have hafter : st.store.entries.Sorted := h.sound (S := Memory) hsorted
  have hitems := h.items_perm (S := Memory) hsorted hids hall
  refine ⟨scan, hscan, ?_, ?_, ?_, ?_⟩
  · have hfragments := hitems.map Entry.fragment
    have hwritten : (itemsOf m written.pairs).map Entry.fragment = written.pairs.map (·.1) := by
      rw [itemsOf, List.map_map]
      rfl
    rw [hwritten, hall] at hfragments
    exact hfragments
  · rw [(forgets_of_clear (S := Memory) hsorted h.clears).removed, List.countP_eq_length_filter]
    rfl
  · rw [h.stored, ← List.length_map (·.1), hall]
  -- The second run finds nothing stale and writes what is there already.
  · obtain ⟨n, again, hclear, _⟩ := clear_forgets (S := Memory) false
      (Chunk.ofArtifacts settings.chunking reader scan.artifacts) hafter (.inr ⟨_, rfl⟩)
    obtain ⟨summary', st', hrun', hremoved, hstore⟩ :=
      run_of_steps settings (o := {}) rfl hscan hclear h.supplies
    have hsame : itemsOf st.store written.pairs = itemsOf m written.pairs := by
      rw [itemsOf, h.setting_eq (S := Memory) hsorted, itemsOf]
    obtain ⟨hzero, hself⟩ := rewrites_itself hafter (h.ids_nodup hids) hall (hsame ▸ hitems) hclear
    exact ⟨summary', st', hrun', hremoved.trans hzero, hstore.trans hself⟩

def note : Artifact := ⟨"note.md", "# Note\n\nPaid by card.\n"⟩

def noteTree : FileTree := ⟨[([note.path], .file note.text.toUTF8)]⟩

def readNothing : Source.Reader := fun path _ => .failed path

def treeOf (a : Artifact) : FileTree := ⟨[([a.path], .file a.text.toUTF8)]⟩

theorem scan_treeOf {a : Artifact}
    (hname : Text.replace "\\" "/" (FilePath.text [a.path]) = a.path)
    (hkind : (ArtifactKind.ofPath? a.path).isNone = false) (hnew : Artifact.new a.path a.text = a)
    (hglobs : ((Scan.standardGlobs ++ IndexSettings.standard.excludeGlobs).mapM
      Scan.readGlob).toOption.map (·.any (Glob.covers · a.path)) = some false) :
    Scan.ofTree (treeOf a) [] .standard = .ok ⟨[a], 0⟩ := by
  have hlocate : (treeOf a).locate [] IndexSettings.standard.root = .ok [] :=
    FileTree.locate_dot (treeOf a) []
  have hsights : (treeOf a).sights IndexSettings.standard.followSymlinks [] =
      [.file [a.path] a.text.toUTF8] := rfl
  cases hread : (Scan.standardGlobs ++ IndexSettings.standard.excludeGlobs).mapM Scan.readGlob with
  | error f =>
    rw [hread] at hglobs
    cases hglobs
  | ok globs =>
    rw [hread] at hglobs
    have hout : globs.any (Glob.covers · a.path) = false := Option.some.inj hglobs
    have hartifact : Scan.artifact? globs (.file [a.path] a.text.toUTF8) = .ok (some a) := by
      simp only [Scan.artifact?, hname, hout, hkind, FileTree.decode_toUTF8, hnew]
      rfl
    have hscan : Scan.ofSights globs [.file [a.path] a.text.toUTF8] = ⟨[a], 0⟩ := by
      simp only [Scan.ofSights, List.map_cons, List.map_nil, hartifact]
      simp [Except.toOption]
    simp only [Scan.ofTree, hlocate, hread, Outcome.ok_bind, hsights, hscan]
    rfl

theorem scan_note : Scan.ofTree noteTree [] .standard = .ok ⟨[note], 0⟩ :=
  scan_treeOf (by decide +kernel) (by decide +kernel) (by decide +kernel) (by decide +kernel)

theorem run_converges_note :
    let old : Fragment := ⟨"old", "Unpaid.", "markdown", .proseDocument, note.path, 1, 1, none,
      none, none, [], []⟩
    let m := ((Memory.empty .standard).history [(0, .upsert [old] none)]).2
    let e : Embedder := ⟨"none", 0, fun _ _ => .ok []⟩
    m.Reachable ∧ ∃ summary st,
      (run .standard noteTree [] e readNothing {}).result m = (.ok summary, st) ∧
      st.store.entries.fragments.Perm (Chunk.ofArtifacts .standard readNothing [note]) := by
  intro old m e
  have hm : m.Reachable := ⟨_, _, rfl⟩
  obtain ⟨n, cleared, hclear, _⟩ := clear_forgets (S := Memory) false
    (Chunk.ofArtifacts .standard readNothing [note]) hm.sorted (.inr ⟨_, rfl⟩)
  have hsupply : supply Settings.standard.embedding e
      (Chunk.ofArtifacts .standard readNothing [note]) = .ok (.bare _, 0, 0) := rfl
  obtain ⟨summary, st, hrun, _, _⟩ :=
    run_of_steps .standard (o := {}) rfl scan_note hclear hsupply
  obtain ⟨scan, hscan, hfragments, _⟩ := run_converges hm rfl hrun (fun hon => nomatch hon)
  have hsame := hscan.symm.trans scan_note
  cases hsame
  exact ⟨hm, summary, st, hrun, hfragments⟩

end CodeRetrieval.Index
