import CodeRetrieval.Proofs.Text.Pattern
import CodeRetrieval.Proofs.Text.Search
import CodeRetrieval.Proofs.Text.Trim
import CodeRetrieval.Question.Analysis

set_option autoImplicit false

namespace CodeRetrieval

namespace Text

/-- A phrase occurs in a text with no word character directly before or after it. -/
def Stands (phrase text : String) : Prop :=
  ∃ lead rest, text.toList = lead ++ (phrase.toList ++ rest) ∧
    (∀ c ∈ lead.getLast?, isWord c = false) ∧ ∀ c ∈ rest.head?, isWord c = false

def StandsFirst (before : Option Char) (phrase s : List Char) : Prop :=
  (∀ c ∈ before, isWord c = false) ∧
    ∃ rest, s = phrase ++ rest ∧ ∀ c ∈ rest.head?, isWord c = false

def StandsBehind (before : Option Char) (phrase s : List Char) : Prop :=
  ∃ lead behind, s = lead ++ behind ∧ StandsFirst (lead.getLast?.or before) phrase behind

theorem stands_iff {phrase text : String} :
    Stands phrase text ↔ StandsBehind none phrase.toList text.toList := by
  constructor
  · rintro ⟨lead, rest, htext, hlead, hrest⟩
    exact ⟨lead, _, htext, by simpa using hlead, rest, rfl, hrest⟩
  · rintro ⟨lead, _, htext, hlead, rest, rfl, hrest⟩
    exact ⟨lead, rest, htext, by simpa using hlead, hrest⟩

variable {before : Option Char} {phrase s : List Char}

theorem standsBehind_nil : StandsBehind before phrase [] ↔ StandsFirst before phrase [] := by
  simp [StandsBehind, and_assoc]

theorem standsBehind_cons {c : Char} : StandsBehind before phrase (c :: s) ↔
    StandsFirst before phrase (c :: s) ∨ StandsBehind (some c) phrase s := by
  constructor
  · rintro ⟨lead, behind, hs, hstands⟩
    cases lead with
    | nil =>
      subst hs
      exact .inl hstands
    | cons d lead =>
      cases hs
      exact .inr ⟨lead, behind, rfl, by rwa [Pattern.getLast?_cons_or] at hstands⟩
  · rintro (hstands | ⟨lead, behind, rfl, hstands⟩)
    · exact ⟨[], c :: s, rfl, hstands⟩
    · exact ⟨c :: lead, behind, rfl, by rwa [Pattern.getLast?_cons_or]⟩

end Text

namespace Intent

open Text

theorem standsFrom_iff {phrase s : List Char} (h : phrase ≠ []) {before : Option Char} :
    standsFrom phrase (!before.any isWord) s = true ↔ StandsBehind before phrase s := by
  induction s generalizing before with
  | nil => simp [standsFrom, standsBehind_nil, StandsFirst, h]
  | cons c s ih =>
    rw [standsFrom, Bool.or_eq_true, standsBehind_cons]
    refine or_congr ?_ (@ih (some c))
    have hbefore : (!before.any isWord) = true ↔ ∀ d ∈ before, isWord d = false := by
      cases before <;> simp
    rw [Bool.and_eq_true, hbefore]
    refine and_congr_right fun _ => ?_
    simp only [← Chars.afterLead_eq_some_iff]
    rcases Chars.afterLead phrase (c :: s) with _ | _ | ⟨d, rest⟩ <;> simp

structure BordersWords (phrase : String) : Prop where
  first : phrase.toList.head?.any isWord = true
  last : phrase.toList.getLast?.any isWord = true

theorem BordersWords.ne_nil {phrase : String} (h : BordersWords phrase) : phrase.toList ≠ [] := by
  intro hnil
  have hfirst := h.first
  simp [hnil] at hfirst

theorem standsIn_iff {phrase text : String} (h : BordersWords phrase) :
    standsIn phrase text = true ↔ Stands phrase text := by
  rw [stands_iff, ← standsFrom_iff h.ne_nil]
  rfl

section Matcher

variable {before last : Option Char} {p s : List Char} {parts : List (Nat × List Char)}
  {phrases : List String}

/-- Any of some phrases between word edges. -/
def matcher (phrases : List String) : Pattern := .all [.wordEdge, .anyText phrases, .wordEdge]

theorem isWordEdge_front (hp : p.head?.any isWord = true) :
    Pattern.isWordEdge ⟨before, p ++ s, parts⟩ = true ↔ ∀ c ∈ before, isWord c = false := by
  cases p with
  | nil => simp at hp
  | cons c p => cases before <;> simp_all [Pattern.isWordEdge]

theorem isWordEdge_behind (h : last.any isWord = true) :
    Pattern.isWordEdge ⟨last.or before, s, parts⟩ = true ↔ ∀ c ∈ s.head?, isWord c = false := by
  cases last with
  | none => simp at h
  | some c => cases s <;> simp_all [Pattern.isWordEdge]

theorem isSome_run_matcher (h : ∀ p ∈ phrases, BordersWords p) :
    ((matcher phrases).run some ⟨before, s, []⟩).isSome = true ↔
      ∃ p ∈ phrases, StandsFirst before p.toList s := by
  simp only [matcher, Pattern.run_all_cons, Pattern.isSome_run_wordEdge,
    Pattern.isSome_run_anyText]
  constructor
  · rintro ⟨hfront, p, hp, rest, rfl, hbehind, -⟩
    exact ⟨p, hp, (isWordEdge_front (h p hp).first).1 hfront, rest, rfl,
      (isWordEdge_behind (h p hp).last).1 hbehind⟩
  · rintro ⟨p, hp, hbefore, rest, rfl, hrest⟩
    exact ⟨(isWordEdge_front (h p hp).first).2 hbefore, p, hp, rest, rfl,
      (isWordEdge_behind (h p hp).last).2 hrest, rfl⟩

theorem isSome_search_matcher (h : ∀ p ∈ phrases, BordersWords p) (text : String) :
    ((matcher phrases).search text).isSome = true ↔ ∃ p ∈ phrases, Stands p text := by
  simp only [Pattern.search, Pattern.isSome_searchFrom, isSome_run_matcher h, stands_iff,
    StandsBehind]
  constructor
  · rintro ⟨lead, behind, htext, p, hp, hfirst⟩
    exact ⟨p, hp, lead, behind, htext, hfirst⟩
  · rintro ⟨p, hp, lead, behind, htext, hfirst⟩
    exact ⟨lead, behind, htext, p, hp, hfirst⟩

end Matcher

section Rules

variable {text : String} {rule : Intent × List String}

theorem bordersWords_of_mem_rules (hrule : rule ∈ rules) : ∀ p ∈ rule.2, BordersWords p := by
  have hall : ∀ rule ∈ rules, ∀ p ∈ rule.2, p.toList.head?.any isWord = true ∧
      p.toList.getLast?.any isWord = true := by decide +kernel
  exact fun p hp => ⟨(hall rule hrule p hp).1, (hall rule hrule p hp).2⟩

def Applies (text : String) (rule : Intent × List String) : Prop := ∃ p ∈ rule.2, Stands p text

def FirstRule (text : String) (rule : Intent × List String) : Prop :=
  ∃ before after, rules = before ++ rule :: after ∧ Applies text rule ∧
    ∀ r ∈ before, ¬Applies text r

theorem any_standsIn_iff (hrule : rule ∈ rules) :
    rule.2.any (standsIn · text) = true ↔ Applies text rule := by
  rw [List.any_eq_true]
  refine exists_congr fun p => and_congr_right fun hp => ?_
  exact standsIn_iff (bordersWords_of_mem_rules hrule p hp)

theorem find?_rules_eq_some_iff :
    rules.find? (fun r => r.2.any (standsIn · text)) = some rule ↔ FirstRule text rule := by
  rw [List.find?_eq_some_iff_append]
  constructor
  · rintro ⟨happlies, before, after, hrules, hbefore⟩
    refine ⟨before, after, hrules, (any_standsIn_iff (by simp [hrules])).1 happlies, ?_⟩
    intro r hr
    rw [← any_standsIn_iff (by simp [hrules, hr])]
    simpa using hbefore r hr
  · rintro ⟨before, after, hrules, happlies, hbefore⟩
    refine ⟨(any_standsIn_iff (by simp [hrules])).2 happlies, before, after, hrules, ?_⟩
    intro r hr
    have hno := hbefore r hr
    rw [← any_standsIn_iff (by simp [hrules, hr])] at hno
    simpa using hno

theorem find?_rules_eq_none_iff :
    rules.find? (fun r => r.2.any (standsIn · text)) = none ↔ ∀ r ∈ rules, ¬Applies text r := by
  rw [List.find?_eq_none]
  exact forall₂_congr fun r hr => not_congr (any_standsIn_iff hr)

theorem FirstRule.mem (h : FirstRule text rule) : rule ∈ rules := by
  obtain ⟨before, after, hrules, -⟩ := h
  simp [hrules]

theorem ne_search_of_mem_rules (hrule : rule ∈ rules) : rule.1 ≠ search := by
  have hall : ∀ rule ∈ rules, rule.1 ≠ search := by decide
  exact hall rule hrule

theorem nodup_rules : (rules.map (·.1)).Nodup := by decide

theorem detect_of_firstRule (h : FirstRule text rule) : detect text = rule.1 := by
  have hfound := find?_rules_eq_some_iff.2 h
  simp only [detect]
  rw [hfound]

theorem detect_of_none (h : ∀ r ∈ rules, ¬Applies text r) : detect text = search := by
  have hfound := find?_rules_eq_none_iff.2 h
  simp only [detect]
  rw [hfound]

theorem exists_firstRule (h : ¬∀ r ∈ rules, ¬Applies text r) : ∃ r, FirstRule text r := by
  rw [← find?_rules_eq_none_iff, ← ne_eq, Option.ne_none_iff_exists'] at h
  obtain ⟨r, hr⟩ := h
  exact ⟨r, find?_rules_eq_some_iff.1 hr⟩

theorem detect_eq_search_iff : detect text = search ↔ ∀ r ∈ rules, ¬Applies text r := by
  refine ⟨fun h => ?_, detect_of_none⟩
  by_contra hsome
  obtain ⟨r, hr⟩ := exists_firstRule hsome
  exact ne_search_of_mem_rules hr.mem ((detect_of_firstRule hr).symm.trans h)

theorem detect_eq_iff (hrule : rule ∈ rules) : detect text = rule.1 ↔ FirstRule text rule := by
  refine ⟨fun h => ?_, detect_of_firstRule⟩
  have hsome : ¬∀ r ∈ rules, ¬Applies text r := fun hnone =>
    ne_search_of_mem_rules hrule (h.symm.trans (detect_of_none hnone))
  obtain ⟨r, hr⟩ := exists_firstRule hsome
  -- No two rules are for one intent.
  have heq := List.inj_on_of_nodup_map nodup_rules hr.mem hrule
    ((detect_of_firstRule hr).symm.trans h)
  exact heq ▸ hr

end Rules

theorem intent_ofQuestion (question : String) :
    (Analysis.ofQuestion question).intent = detect (lower (trim question)) := by
  simp only [Analysis.ofQuestion]

theorem lower_trim_variant {question variant lead trail : String} (h : IsAscii question)
    (hcase : variant.toList.map Char.toLower = question.toList.map Char.toLower)
    (hlead : isBlankText lead = true) (htrail : isBlankText trail = true) :
    lower (trim (lead ++ variant ++ trail)) = lower (trim question) := by
  have htrim : trim (lead ++ variant ++ trail) = trim variant := by
    simp only [trim, String.toList_append]
    rw [Chars.trim_surrounded (List.all_eq_true.1 hlead) (List.all_eq_true.1 htrail)]
  have hvariant : IsAscii variant := h.of_map_toLower hcase
  rw [htrim, ← String.toList_inj, lower_ascii hvariant.trim, lower_ascii h.trim]
  simp only [trim, String.toList_ofList, Chars.trim_map_toLower, hcase]

/-- A text has the intent of the first rule with a phrase that stands in it, and is a mere search if
there is none. A phrase of a rule stands in a text exactly if a search for the phrases of the rule
between word edges finds something. The case of letters and blanks around a question do not
matter. -/
theorem detect_firstRule (text : String) :
    (∀ rule ∈ rules, detect text = rule.1 ↔ FirstRule text rule) ∧
    (detect text = search ↔ ∀ rule ∈ rules, ∀ p ∈ rule.2, ¬Stands p text) ∧
    (∀ rule ∈ rules, ((matcher rule.2).search text).isSome = true ↔ ∃ p ∈ rule.2, Stands p text) ∧
    ∀ question variant lead trail : String, IsAscii question →
      variant.toList.map Char.toLower = question.toList.map Char.toLower →
      isBlankText lead = true → isBlankText trail = true →
      (Analysis.ofQuestion (lead ++ variant ++ trail)).intent =
        (Analysis.ofQuestion question).intent := by
  refine ⟨fun rule hrule => detect_eq_iff hrule, ?_, ?_, ?_⟩
  · rw [detect_eq_search_iff]
    simp [Applies]
  · exact fun rule hrule => isSome_search_matcher (bordersWords_of_mem_rules hrule) text
  · intro question variant lead trail hascii hcase hlead htrail
    rw [intent_ofQuestion, intent_ofQuestion, lower_trim_variant hascii hcase hlead htrail]

theorem detect_firstRule_accounts :
    FirstRule "how do accounts count" (rules.head (by decide)) ∧
    ((matcher (rules.head (by decide)).2).search "how do accounts count").isSome = true ∧
    IsAscii "how do accounts count" ∧
    (Analysis.ofQuestion (" " ++ "How do ACCOUNTS count" ++ "  ")).intent =
      (Analysis.ofQuestion "how do accounts count").intent := by
  obtain ⟨hfirst, -, hmatcher, hcase⟩ := detect_firstRule "how do accounts count"
  have hrule : FirstRule "how do accounts count" (rules.head (by decide)) :=
    (hfirst _ (by decide)).1 (by decide +kernel)
  have happlies : Applies "how do accounts count" (rules.head (by decide)) := by
    obtain ⟨before, after, -, happlies, -⟩ := hrule
    exact happlies
  have hall : "how do accounts count".toList.all (decide <| ·.toNat < 128) = true := by decide
  have hascii : IsAscii "how do accounts count" :=
    fun c hc => of_decide_eq_true (List.all_eq_true.1 hall c hc)
  exact ⟨hrule, (hmatcher _ (by decide)).2 happlies, hascii,
    hcase _ _ _ _ hascii (by decide) (by decide) (by decide)⟩

end Intent

end CodeRetrieval
