import CodeRetrieval.Proofs.Retrieval.Repetition
import CodeRetrieval.Proofs.Text.Search

/-!
Reports on configuration documents. A target calls a document by its path, by the end of its path or
by its name, and of all that are called, in whichever way, the one that is listed first is reported
on. So a path leads to its own document only as long as that is listed before the others.
-/

set_option autoImplicit false

namespace CodeRetrieval

/-- Whether a target calls a document. -/
inductive CalledBy (target : String) (f : Fragment) : Prop where
  | path (h : f.filePath = normalizePath target)
  | pathEnd (h : '/' :: (normalizePath target).toList <:+ f.filePath.toList)
  | name (h : f.documentName = target)

theorem isDocumentCalled_iff {target : String} {f : Fragment} :
    Retriever.isDocumentCalled target f = true ↔ CalledBy target f := by
  simp only [Retriever.isDocumentCalled, Bool.or_eq_true, beq_iff_eq, Text.endsWith_iff,
    String.toList_append]
  constructor
  · intro h
    rcases h with (h | h) | h
    · exact .path h
    · exact .pathEnd h
    · exact .name h
  · intro h
    cases h with
    | path h => exact .inl (.inl h)
    | pathEnd h => exact .inl (.inr h)
    | name h => exact .inr h

namespace Entries

structure HoldsDocument (es : Entries) (f : Fragment) : Prop where
  mem : f ∈ es.fragments
  kind : f.kind = .configDocument

/-- The report on a document, whatever it was called by. -/
def report (es : Entries) (document : Fragment) : Answer where
  text := Retriever.dependencyReport document.filePath
    (document.references.filterMap es.entityNamed?)
    (document.references.filter fun name => (es.entityNamed? name).isNone)
  sources := exact [document]
  dependencies := document.references.filterMap es.entityNamed?
  analysis := none
  listing := false
  model := none

/-- The first document in the listing that a target calls. -/
def document? (es : Entries) (target : String) : Option Fragment :=
  (es.listAll ⟨some .configDocument, none⟩).find? (Retriever.isDocumentCalled target)

def Precedes (f g : Fragment) : Prop := f.ListedBefore (fun f g => f.id < g.id) g

theorem Precedes.asymm {f g : Fragment} : Precedes f g → ¬Precedes g f :=
  Fragment.ListedBefore.asymm String.lt_asymm

variable {es : Entries} {target : String} {d : Fragment}

theorem report_inj {f g : Fragment} (h : es.report f = es.report g) : f = g := by
  have hsources : exact [f] = exact [g] := congrArg Answer.sources h
  simpa [exact] using hsources

theorem report_ne_notFound (what name : String) : es.report d ≠ Answer.notFound what name := by
  intro h
  have hsources : exact [d] = [] := congrArg Answer.sources h
  simp [exact] at hsources

theorem mem_listAll_documents {f : Fragment} :
    f ∈ es.listAll ⟨some .configDocument, none⟩ ↔ es.HoldsDocument f := by
  rw [listAll, (listing_perm _).mem_iff, List.mem_filter]
  constructor
  · exact fun h => ⟨h.1, by simpa [Filter.accepts] using h.2⟩
  · exact fun h => ⟨h.mem, by simp [Filter.accepts, h.kind]⟩

theorem document?_eq_some_iff (h : es.Sorted) : es.document? target = some d ↔
    es.HoldsDocument d ∧ CalledBy target d ∧
      ∀ f, es.HoldsDocument f → CalledBy target f → f = d ∨ Precedes d f := by
  have hlisted : (es.listAll ⟨some .configDocument, none⟩).Pairwise Precedes :=
    listing_pairwise (h.fragments.filter _)
  rw [document?, find?_eq_some_iff_of_pairwise (fun _ _ => Precedes.asymm) hlisted]
  simp only [mem_listAll_documents, isDocumentCalled_iff]

theorem document?_eq_none_iff :
    es.document? target = none ↔ ∀ f, es.HoldsDocument f → ¬CalledBy target f := by
  rw [document?, List.find?_eq_none]
  simp only [mem_listAll_documents, isDocumentCalled_iff]

/-- What is reported for a target. -/
structure Reports (es : Entries) (target : String) (answer : Answer) : Prop where
  missing_iff : answer = Answer.notFound "config document" target ↔
    ∀ f, es.HoldsDocument f → ¬CalledBy target f
  report_iff : ∀ d, answer = es.report d ↔ es.HoldsDocument d ∧ CalledBy target d ∧
    ∀ f, es.HoldsDocument f → CalledBy target f → f = d ∨ Precedes d f
  /-- A path leads to a document of its own as long as one of these precedes all others that are
  called. -/
  exact_iff : (∃ d, es.HoldsDocument d ∧ d.filePath = normalizePath target ∧
      answer = es.report d) ↔
    ∃ d, es.HoldsDocument d ∧ d.filePath = normalizePath target ∧
      ∀ f, es.HoldsDocument f → CalledBy target f → f.filePath ≠ normalizePath target →
        Precedes d f

def reportFor (es : Entries) (target : String) : Option Fragment → Answer
  | none => Answer.notFound "config document" target
  | some d => es.report d

theorem reportFor_eq_notFound_iff {found : Option Fragment} :
    es.reportFor target found = Answer.notFound "config document" target ↔ found = none := by
  cases found with
  | none => simp [reportFor]
  | some d => simp [reportFor, report_ne_notFound]

theorem reportFor_eq_report_iff {found : Option Fragment} :
    es.reportFor target found = es.report d ↔ found = some d := by
  cases found with
  | none => simp [reportFor, Ne.symm (report_ne_notFound _ _)]
  | some f =>
    rw [reportFor, Option.some.injEq]
    exact ⟨report_inj, congrArg es.report⟩

theorem exact_document?_iff (h : es.Sorted) :
    (∃ d, es.HoldsDocument d ∧ d.filePath = normalizePath target ∧
      es.document? target = some d) ↔
    ∃ d, es.HoldsDocument d ∧ d.filePath = normalizePath target ∧
      ∀ f, es.HoldsDocument f → CalledBy target f → f.filePath ≠ normalizePath target →
        Precedes d f := by
  constructor
  · intro hexact
    obtain ⟨d, hd, hpath, hfirst⟩ := hexact
    refine ⟨d, hd, hpath, fun f hf hcalled hother => ?_⟩
    rcases ((document?_eq_some_iff h).1 hfirst).2.2 f hf hcalled with rfl | hbefore
    · exact absurd hpath hother
    · exact hbefore
  · intro hleads
    obtain ⟨d, hd, hpath, hleads⟩ := hleads
    cases hfirst : es.document? target with
    | none => exact absurd (.path hpath) (document?_eq_none_iff.1 hfirst d hd)
    | some e =>
      obtain ⟨he, hcalled, hbefore⟩ := (document?_eq_some_iff h).1 hfirst
      refine ⟨e, he, ?_, rfl⟩
      by_contra hother
      have hde := hleads e he hcalled hother
      rcases hbefore d hd (.path hpath) with rfl | hed
      · exact hother hpath
      · exact hed.asymm hde

theorem reports_reportFor (h : es.Sorted) :
    es.Reports target (es.reportFor target (es.document? target)) where
  missing_iff := reportFor_eq_notFound_iff.trans document?_eq_none_iff
  report_iff _ := reportFor_eq_report_iff.trans (document?_eq_some_iff h)
  exact_iff := by
    simp only [reportFor_eq_report_iff]
    exact exact_document?_iff h

end Entries

namespace Memory

theorem resolveNames_eq (m : Memory) (names : List String) : Retriever.resolveNames m names =
    .ok (names.map fun name => (name, m.entries.entityNamed? name)) := by
  induction names with
  | nil => rfl
  | cons name rest ih =>
    rw [Retriever.resolveNames, Store.entityNamed?, ih]
    rfl

end Memory

theorem Retriever.configDependencies_eq (r : Retriever Memory) (target : String) (t : Trace) :
    (r.configDependencies target).result t =
      (.ok (r.store.entries.reportFor target (r.store.entries.document? target)), t) := by
  refine (Effect.bind_of_ok rfl).trans ?_
  change outcomeOf (match r.store.entries.document? target with | none => _ | some d => _) t = _
  cases hfound : r.store.entries.document? target with
  | none => rfl
  | some d =>
    refine (Effect.bind_of_ok (congrArg (·, t) (Memory.resolveNames_eq _ _))).trans ?_
    have hmissing : ((d.references.map fun name => (name, r.store.entries.entityNamed? name)).filter
        (·.2.isNone)).map (·.1) =
        d.references.filter fun name => (r.store.entries.entityNamed? name).isNone := by
      rw [List.filter_map, List.map_map]
      exact List.map_id _
    rw [hmissing, List.filterMap_map]
    rfl

/-- A report is on the first listed of all documents that the target calls, and there is none only
if it calls none. So whether a path leads to its own document is a matter of the listing. No service
is called for it. -/
theorem configDependencies_reports {r : Retriever Memory} (h : r.store.entries.Sorted)
    (target : String) (t : Trace) :
    ∃ answer, (r.configDependencies target).result t = (.ok answer, t) ∧
      r.store.entries.Reports target answer :=
  ⟨_, r.configDependencies_eq target t, Entries.reports_reportFor h⟩

def checkouts : Entries :=
  let checkout := { orderEntity with
    language := "json", kind := .configDocument, filePath := "checkout.json", entityName := none }
  [⟨{ checkout with id := "old", filePath := "archive/checkout.json" }, none⟩,
   ⟨{ checkout with id := "present" }, none⟩]

theorem checkouts_sorted : checkouts.Sorted := by
  rw [Entries.Sorted, SortedBy]
  decide +kernel

def checkoutShop : Retriever Memory := { shop with store := ⟨checkouts, .standard⟩ }

theorem checkouts_document? :
    checkouts.document? "checkout.json" = some (checkouts.head (by decide)).fragment := by
  refine (Entries.document?_eq_some_iff checkouts_sorted).2 ⟨⟨by decide, rfl⟩, ?_, ?_⟩
  · exact isDocumentCalled_iff.1 (by decide +kernel)
  · intro f hf _
    have hmem : f = (checkouts.head (by decide)).fragment ∨ f = (checkouts[1]).fragment := by
      simpa [checkouts, Entries.fragments] using hf.mem
    rcases hmem with rfl | rfl
    · exact .inl rfl
    · -- They are listed by their paths, in which alone they differ.
      refine .inr ⟨by decide +kernel, fun _ => ⟨rfl, fun _ => ⟨by decide +kernel, ?_⟩⟩⟩
      exact fun hpath => absurd hpath (by decide +kernel)

theorem configDependencies_reports_checkouts :
    checkouts.Sorted ∧ ∃ answer,
      (checkoutShop.configDependencies "checkout.json").result .empty = (.ok answer, .empty) ∧
        checkouts.Reports "checkout.json" answer ∧
        answer = checkouts.report (checkouts.head (by decide)).fragment := by
  obtain ⟨answer, hanswer, hreports⟩ :=
    configDependencies_reports (r := checkoutShop) checkouts_sorted "checkout.json" .empty
  refine ⟨checkouts_sorted, answer, hanswer, hreports, (hreports.report_iff _).2 ?_⟩
  exact (Entries.document?_eq_some_iff checkouts_sorted).1 checkouts_document?

theorem not_configDependencies_exact : ¬∀ (r : Retriever Memory) (target : String) (t : Trace),
    r.store.entries.Sorted →
    (∃ d, r.store.entries.HoldsDocument d ∧ d.filePath = normalizePath target) →
    ∃ d, r.store.entries.HoldsDocument d ∧ d.filePath = normalizePath target ∧
      (r.configDependencies target).result t = (.ok (r.store.entries.report d), t) := by
  intro h
  have hpresent : ∃ d, checkouts.HoldsDocument d ∧ d.filePath = normalizePath "checkout.json" :=
    ⟨(checkouts[1]).fragment, ⟨by decide, rfl⟩, by decide +kernel⟩
  obtain ⟨d, -, hpath, hreport⟩ := h checkoutShop "checkout.json" .empty checkouts_sorted hpresent
  rw [checkoutShop.configDependencies_eq] at hreport
  have heq := Entries.reportFor_eq_report_iff.1 (Except.ok.inj (Prod.mk.inj hreport).1)
  cases heq.symm.trans checkouts_document?
  revert hpath
  decide +kernel

end CodeRetrieval
