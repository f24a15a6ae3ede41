import CodeRetrieval.Proofs.Distinct
import CodeRetrieval.Proofs.Text.Words
import CodeRetrieval.Question.Analysis

/-!
What holds of the analysis of every question. Names start with a letter whose case tells entities
from members, and all words that are taken from elsewhere are in lower case; so the terms of one
kind never repeat those of another.
-/

set_option autoImplicit false

namespace CodeRetrieval

namespace Terms

variable {question w : String}

/-- A word of a question that may name an entity. -/
structure IsEntityName (question w : String) : Prop where
  occurs : Text.HasWord question w
  two_le : 2 ≤ w.length
  capital : ∀ c ∈ w.toList.head?, c.isUpper = true
  alphanum : ∀ c ∈ w.toList, c.isAlphanum = true
  uncommon : w ∉ commonWords

theorem isTypeName_iff : isTypeName w = true ↔ w ≠ "" ∧ (∀ c ∈ w.toList.head?, c.isUpper = true) ∧
    ∀ c ∈ w.toList, c.isAlphanum = true := by
  rw [isTypeName, ne_eq, ← String.toList_eq_nil_iff]
  cases w.toList with
  | nil => simp
  | cons c rest =>
    have hc : c.isUpper = true → c.isAlphanum = true := fun h =>
      Bool.or_eq_true_iff.2 (.inl (Bool.or_eq_true_iff.2 (.inl h)))
    simp only [Bool.and_eq_true, List.all_eq_true, List.head?_cons, Option.mem_some_iff,
      forall_eq', List.forall_mem_cons]
    tauto

theorem mem_entityNames : w ∈ entityNames question ↔ IsEntityName question w := by
  rw [entityNames, mem_distinct, List.mem_filter, Text.mem_words, Bool.and_eq_true,
    Bool.and_eq_true, isTypeName_iff]
  simp only [decide_eq_true_eq, Bool.not_eq_true', List.contains_eq_mem, decide_eq_false_iff_not]
  constructor
  · intro h
    obtain ⟨hoccurs, ⟨⟨-, hcapital, halphanum⟩, hlength⟩, huncommon⟩ := h
    exact ⟨hoccurs, hlength, hcapital, halphanum, huncommon⟩
  · intro h
    exact ⟨h.occurs, ⟨⟨h.occurs.ne_empty, h.capital, h.alphanum⟩, h.two_le⟩, h.uncommon⟩

theorem isLower_of_isMemberName (h : isMemberName w = true) :
    ∃ c ∈ w.toList.head?, c.isLower = true := by
  unfold isMemberName at h
  split at h
  · contradiction
  · next c rest hw =>
    simp only [Bool.and_eq_true] at h
    exact ⟨c, by simp [hw], h.1.1⟩

theorem disjoint_names {n m : String} (hn : n ∈ entityNames question)
    (hm : m ∈ memberNames question) : n ≠ m := by
  rintro rfl
  obtain ⟨c, hc, hlower⟩ := isLower_of_isMemberName (List.mem_filter.1 (mem_distinct.1 hm)).2
  have hupper := (mem_entityNames.1 hn).capital c hc
  rw [Text.isUpper_of_isLower hlower] at hupper
  contradiction

theorem isPlain_of_isPlainWord (h : isPlainWord w = true) :
    ∀ c ∈ w.toList, Text.isPlain c = true := by
  unfold isPlainWord at h
  split at h
  · contradiction
  · next c rest hw =>
    simp only [Bool.and_eq_true, List.all_eq_true] at h
    rw [hw]
    exact List.forall_mem_cons.2 ⟨by simp [Text.isPlain, h.1], h.2⟩

theorem lower_of_isPlainWord (h : isPlainWord w = true) : Text.lower w = w :=
  Text.lower_of_isPlain (isPlain_of_isPlainWord h)

structure IsFurtherWord (lowered : String) (names : List String) (w : String) : Prop where
  occurs : Text.HasWord lowered w
  plain : isPlainWord w = true
  two_lt : 2 < w.length
  uncommon : w ∉ stopWords
  besides : ∀ n ∈ names, Text.lower n ≠ w

def furtherWords (lowered : String) (names : List String) : List String :=
  distinctFrom id (names.map Text.lower) (plainWords lowered)

variable {lowered : String} {names entities members : List String}

theorem mem_furtherWords : w ∈ furtherWords lowered names ↔ IsFurtherWord lowered names w := by
  have hmem : w ∈ (furtherWords lowered names).map id ↔
      w ∈ (plainWords lowered).map id ∧ w ∉ names.map Text.lower := mem_keys_distinctFrom _ _ w
  rw [List.map_id, List.map_id] at hmem
  rw [hmem, plainWords, List.mem_filter, Text.mem_words, List.mem_map]
  simp only [Bool.and_eq_true, decide_eq_true_eq, Bool.not_eq_true', List.contains_eq_mem,
    decide_eq_false_iff_not, not_exists, not_and]
  constructor
  · intro h
    obtain ⟨⟨hoccurs, ⟨hplain, hlength⟩, huncommon⟩, hbesides⟩ := h
    exact ⟨hoccurs, hplain, hlength, huncommon, hbesides⟩
  · intro h
    exact ⟨⟨h.occurs, ⟨h.plain, h.two_lt⟩, h.uncommon⟩, h.besides⟩

theorem nodup_furtherWords : (furtherWords lowered names).Nodup := by
  have hkeys : ((furtherWords lowered names).map id).Nodup := nodup_keys_distinctFrom _ _
  rwa [List.map_id] at hkeys

theorem furtherWords_sublist : (furtherWords lowered names).Sublist (Text.words lowered) :=
  (distinctFrom_sublist _ _).trans List.filter_sublist

theorem primary_eq : primary lowered entities members =
    (entities ++ members ++ furtherWords lowered (entities ++ members)).take 10 := rfl

theorem length_primary : (primary lowered entities members).length ≤ 10 := List.length_take_le _ _

theorem nodup_primary : (primary lowered (entityNames question) (memberNames question)).Nodup := by
  have hnames : (entityNames question ++ memberNames question).Nodup :=
    List.nodup_append.2 ⟨nodup_distinct _, nodup_distinct _, fun _ hn _ hm => disjoint_names hn hm⟩
  rw [primary_eq]
  refine (List.nodup_append.2 ⟨hnames, nodup_furtherWords, ?_⟩).sublist (List.take_sublist _ _)
  rintro n hn _ hw rfl
  have hfurther := mem_furtherWords.1 hw
  exact hfurther.besides n hn (lower_of_isPlainWord hfurther.plain)

theorem isPlainWord_synonyms :
    ∀ entry ∈ synonyms, ∀ w ∈ entry.1 :: entry.2, isPlainWord w = true := by decide +kernel

def Related (term w : String) : Prop :=
  ∃ entry ∈ synonyms, term ∈ entry.1 :: entry.2 ∧ w ∈ entry.1 :: entry.2

theorem Related.lower {term : String} (h : Related term w) : Text.lower w = w := by
  obtain ⟨entry, hentry, -, hw⟩ := h
  exact lower_of_isPlainWord (isPlainWord_synonyms entry hentry w hw)

theorem related_of_mem {term : String} (h : w ∈ related term) : Related (Text.lower term) w := by
  obtain ⟨⟨key, others⟩, hentry, hw⟩ := List.mem_flatMap.1 h
  refine ⟨(key, others), hentry, ?_⟩
  dsimp only at hw ⊢
  split at hw
  · next hkey => exact ⟨by simp [← eq_of_beq hkey], List.mem_cons_of_mem _ hw⟩
  · split at hw
    · next hmem => exact ⟨List.mem_cons_of_mem _ (by simpa using hmem), hw⟩
    · exact absurd hw List.not_mem_nil

theorem mem_expanded {terms : List String} (h : w ∈ expanded terms) :
    (∃ t ∈ terms, Related (Text.lower t) w) ∧ ∀ t ∈ terms, Text.lower t ≠ w := by
  obtain ⟨hw, hnew⟩ := List.mem_filter.1 (mem_distinct.1 (List.mem_of_mem_take h))
  obtain ⟨t, ht, hrelated⟩ := List.mem_flatMap.1 hw
  refine ⟨⟨t, ht, related_of_mem hrelated⟩, ?_⟩
  simpa using hnew

theorem length_expanded (terms : List String) : (expanded terms).length ≤ 15 :=
  List.length_take_le _ _

theorem nodup_expanded (terms : List String) : (expanded terms).Nodup :=
  (nodup_distinct _).sublist (List.take_sublist _ _)

end Terms

namespace Analysis

/-- What holds of an analysis of a question. -/
structure WellFormed (question : String) (a : Analysis) : Prop where
  mem_entityNames : ∀ w, w ∈ a.entityNames ↔ Terms.IsEntityName question w
  nodup_entityNames : a.entityNames.Nodup
  entityNames_occur : ∀ w ∈ a.entityNames, w.toList <:+: question.toList
  primary_eq : ∃ further, a.primaryTerms = (a.entityNames ++ a.memberNames ++ further).take 10 ∧
    further.Sublist (Text.words (Text.lower (Text.trim question))) ∧ further.Nodup ∧
    ∀ w, w ∈ further ↔ Terms.IsFurtherWord (Text.lower (Text.trim question))
      (a.entityNames ++ a.memberNames) w
  length_primary : a.primaryTerms.length ≤ 10
  nodup_primary : a.primaryTerms.Nodup
  length_expanded : a.expandedTerms.length ≤ 15
  nodup_expanded : a.expandedTerms.Nodup
  expanded_related : ∀ w ∈ a.expandedTerms, ∃ t ∈ a.primaryTerms, Terms.Related (Text.lower t) w
  expanded_besides : ∀ w ∈ a.expandedTerms, ∀ t ∈ a.primaryTerms, Text.lower w ≠ Text.lower t
  nodup_search : (a.searchTerms.map Text.lower).Nodup
  expanded_subset : ∀ w ∈ a.expandedTerms, w ∈ a.searchTerms
  primary_found : ∀ t ∈ a.primaryTerms, ∃ w ∈ a.searchTerms, Text.lower w = Text.lower t
  length_keywords : a.keywords.length ≤ 10
  nodup_keywords : (a.keywords.map Text.lower).Nodup

variable {a : Analysis}

theorem nodup_lower_searchTerms : (a.searchTerms.map Text.lower).Nodup := nodup_keys_distinctOn _

theorem length_keywords : a.keywords.length ≤ 10 := List.length_take_le _ _

theorem nodup_lower_keywords : (a.keywords.map Text.lower).Nodup :=
  (nodup_keys_distinctOn _).sublist ((List.take_sublist _ _).map _)

theorem found_of_mem_primary {t : String} (h : t ∈ a.primaryTerms) :
    ∃ w ∈ a.searchTerms, Text.lower w = Text.lower t :=
  exists_mem_distinctOn (List.mem_append_left _ h)

theorem mem_searchTerms_of_expanded (hlower : ∀ w ∈ a.expandedTerms, Text.lower w = w)
    (hbesides : ∀ w ∈ a.expandedTerms, ∀ t ∈ a.primaryTerms, Text.lower w ≠ Text.lower t)
    {w : String} (h : w ∈ a.expandedTerms) : w ∈ a.searchTerms := by
  refine mem_distinctOn_of_unique (List.mem_append_right _ h) ?_
  intro t ht hkey
  rcases List.mem_append.1 ht with ht | ht
  · exact absurd hkey.symm (hbesides w h t ht)
  · rwa [hlower t ht, hlower w h] at hkey

theorem wellFormed_of_parts {question : String}
    (hentities : a.entityNames = Terms.entityNames question)
    (hmembers : a.memberNames = Terms.memberNames question)
    (hprimary : a.primaryTerms =
      Terms.primary (Text.lower (Text.trim question)) a.entityNames a.memberNames)
    (hexpanded : a.expandedTerms = Terms.expanded a.primaryTerms) : a.WellFormed question := by
  have hmem : ∀ w ∈ a.expandedTerms, (∃ t ∈ a.primaryTerms, Terms.Related (Text.lower t) w) ∧
      ∀ t ∈ a.primaryTerms, Text.lower t ≠ w := by
    intro w hw
    rw [hexpanded] at hw
    exact Terms.mem_expanded hw
  have hlower : ∀ w ∈ a.expandedTerms, Text.lower w = w := by
    intro w hw
    obtain ⟨⟨_, _, hrelated⟩, -⟩ := hmem w hw
    exact hrelated.lower
  have hbesides : ∀ w ∈ a.expandedTerms, ∀ t ∈ a.primaryTerms, Text.lower w ≠ Text.lower t := by
    intro w hw t ht
    rw [hlower w hw]
    exact ((hmem w hw).2 t ht).symm
  constructor
  case mem_entityNames =>
    rw [hentities]
    exact fun _ => Terms.mem_entityNames
  case nodup_entityNames =>
    rw [hentities]
    exact nodup_distinct _
  case entityNames_occur =>
    rw [hentities]
    exact fun _ hw => (Terms.mem_entityNames.1 hw).occurs.isInfix
  case primary_eq =>
    rw [hprimary]
    exact ⟨_, Terms.primary_eq, Terms.furtherWords_sublist, Terms.nodup_furtherWords,
      fun _ => Terms.mem_furtherWords⟩
  case length_primary =>
    rw [hprimary]
    exact Terms.length_primary
  case nodup_primary =>
    rw [hprimary, hentities, hmembers]
    exact Terms.nodup_primary
  case length_expanded =>
    rw [hexpanded]
    exact Terms.length_expanded _
  case nodup_expanded =>
    rw [hexpanded]
    exact Terms.nodup_expanded _
  case expanded_related => exact fun w hw => (hmem w hw).1
  case expanded_besides => exact hbesides
  case nodup_search => exact nodup_lower_searchTerms
  case expanded_subset => exact fun _ => mem_searchTerms_of_expanded hlower hbesides
  case primary_found => exact fun _ => found_of_mem_primary
  case length_keywords => exact length_keywords
  case nodup_keywords => exact nodup_lower_keywords

/-- The analysis of a question is well-formed, whatever the question is. -/
theorem wellFormed_ofQuestion (question : String) : (ofQuestion question).WellFormed question := by
  apply wellFormed_of_parts <;> simp only [ofQuestion]

example : ((ofQuestion "How does PaymentService handle a refund?").primaryTerms,
    (ofQuestion "How does PaymentService handle a refund?").expandedTerms) =
      (["PaymentService", "handle", "refund"], ["exception", "error", "throw", "catch"]) := by
  decide +kernel

end Analysis

end CodeRetrieval
