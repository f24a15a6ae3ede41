import CodeRetrieval.Chunk.Artifacts
import CodeRetrieval.Proofs.Chunk.Documents
import CodeRetrieval.Proofs.Json.Fields
import CodeRetrieval.Proofs.Json.Pretty
import CodeRetrieval.Proofs.Text.Search

set_option autoImplicit false

namespace CodeRetrieval

namespace Text

/-- The first line with a text in it is line `n`, counted from zero. -/
structure FirstWith (part : String) (ls : List String) (n : Nat) : Prop where
  above : ∀ l ∈ ls.take n, contains l part = false
  here : ∃ l, ls[n]? = some l ∧ contains l part = true

theorem firstWith_iff {part : String} {ls : List String} {n : Nat} :
    FirstWith part ls n ↔ ls.findIdx? (contains · part) = some n := by
  rw [List.findIdx?_eq_some_iff_getElem]
  constructor
  · rintro ⟨habove, l, hl, hhere⟩
    obtain ⟨hn, rfl⟩ := List.getElem?_eq_some_iff.1 hl
    refine ⟨hn, hhere, fun j hj => ?_⟩
    rw [habove _ (List.mem_take_iff_getElem.2 ⟨j, by omega, rfl⟩)]
    exact Bool.false_ne_true
  · rintro ⟨hn, hhere, habove⟩
    refine ⟨fun l hl => ?_, _, List.getElem?_eq_getElem hn, hhere⟩
    obtain ⟨j, hj, rfl⟩ := List.mem_take_iff_getElem.1 hl
    exact Bool.eq_false_iff.2 (habove j (by omega))

end Text

namespace Chunk

open Text

variable {limits : ChunkLimits} {known : KnownNames} {path text : String} {f : Fragment}
  {fields : List (String × Json)}

/-- The first and the last line of an entry in the text of an object, counted from one. -/
def entryLines (before : List (String × Json)) (e : String × Json) : Nat × Nat :=
  let first := (Json.leadText before).count '\n' + 1
  (first, first + (Json.entryText e).count '\n')

def StandsFor (f : Fragment) (key : String) : Prop :=
  f.kind = .configSection ∧ f.metadata.lookup "section" = some (.str key)

theorem ofConfigSection_of_standsFor {k : String} {v : Json}
    (hparse : Json.parse? text = some (.obj fields))
    (hf : f ∈ ofConfig limits known path .json text) (hkey : StandsFor f k)
    (he : (k, v) ∈ fields) :
    ofConfigSection limits known path .json text ⟨k, (Json.obj [(k, v)]).pretty⟩ = some f := by
  rcases of_mem_ofConfig hf with hwhole | ⟨s, hs, hsection⟩
  · obtain ⟨content, _, rfl⟩ := Option.map_eq_some_iff.1 hwhole
    cases hkey.1
  · simp only [configSections, hparse] at hs
    obtain ⟨⟨k', v'⟩, he', rfl⟩ := List.mem_map.1 hs
    have hsame : k' = k := by
      obtain ⟨content, _, rfl⟩ := Option.map_eq_some_iff.1 hsection
      exact Json.str.inj (Option.some.inj hkey.2)
    have hentry := List.inj_on_of_nodup_map (Json.sortedBy_of_parse? hparse).keys_nodup he' he hsame
    cases hentry
    exact hsection

theorem startsRight_iff {before after : List (String × Json)} {k : String} {v : Json}
    (htext : text = (Json.obj (before ++ (k, v) :: after)).pretty)
    (h : ofConfigSection limits known path .json text ⟨k, (Json.obj [(k, v)]).pretty⟩ = some f) :
    (f.startLine, f.endLine) = entryLines before (k, v) ↔
      keyLine .json (lines text) k = (Json.leadText before).count '\n' + 1 := by
  obtain ⟨content, _, rfl⟩ := Option.map_eq_some_iff.1 h
  -- Alone, the entry stands between two braces on lines of their own.
  have hself := Json.lineCount_pretty [] (k, v) []
  have hall := Json.lineCount_pretty before (k, v) after
  have hlead : (Json.leadText []).count '\n' = 1 := by decide
  have htail : (Json.tailText []).count '\n' = 1 := by decide
  have hrest : 1 ≤ (Json.tailText after).count '\n' := by
    simp [Json.tailText]
  rw [List.nil_append, hlead, htail] at hself
  rw [← htext] at hall
  simp only [entryLines, Prod.mk.injEq, hself, hall]
  omega

theorem keyLine_eq_iff {ls : List String} {key : String} {n : Nat} (hn : 0 < n) :
    keyLine .json ls key = n + 1 ↔ FirstWith ("\"" ++ key ++ "\"") ls n := by
  have hsets : setsKey .json key = (contains · ("\"" ++ key ++ "\"")) := rfl
  rw [firstWith_iff, keyLine, hsets]
  cases ls.findIdx? (contains · ("\"" ++ key ++ "\"")) with
  | none =>
    simp only [reduceCtorEq, iff_false]
    omega
  | some i => simp

/-- A key that is written as it is. -/
def Plain (key : String) : Prop := ∀ c ∈ key.toList, Json.escape c = [c]

theorem Plain.quote_eq {key : String} (h : Plain key) :
    Json.quote key = ("\"" ++ key ++ "\"").toList := by
  have hkey : key.toList.flatMap Json.escape = key.toList := by
    rw [List.flatMap_congr h, List.flatMap_singleton']
  have hmark : "\"".toList = ['"'] := by decide
  simp [Json.quote, Json.quoteChars, hkey, hmark]

theorem Plain.newline_not_mem_quote {key : String} (h : Plain key) : '\n' ∉ Json.quote key := by
  have hkey : '\n' ∉ key.toList := fun hmem => absurd (h _ hmem) (by decide)
  have hmark : "\"".toList = ['"'] := by decide
  simp [h.quote_eq, hmark, hkey]

theorem Plain.exists_line {before after : List (String × Json)} {k : String} {v : Json}
    (h : Plain k) (htext : text = (Json.obj (before ++ (k, v) :: after)).pretty) :
    ∃ l, (lines text)[(Json.leadText before).count '\n']? = some l ∧
      contains l ("\"" ++ k ++ "\"") = true := by
  obtain ⟨lead, hlead⟩ := Json.exists_leadText_eq before
  have hsplit : text.toList = lead ++ '\n' :: ((Json.indentOf 1 ++ Json.quote k) ++
      ':' :: (' ' :: Json.prettyChars 1 v ++ Json.tailText after)) := by
    rw [htext, Json.toList_pretty, hlead, Json.entryText]
    simp
  have hindent : Json.indentOf 1 = [' ', ' '] := by decide
  have hpart : '\n' ∉ Json.indentOf 1 ++ Json.quote k := by
    simp [hindent, h.newline_not_mem_quote]
  obtain ⟨l, hl, hprefix⟩ := exists_line_of_eq_append hsplit hpart (by decide)
  refine ⟨l, ?_, ?_⟩
  · rw [hlead, List.count_append, List.count_cons_self, hindent]
    simpa using hl
  · rw [contains_iff, ← h.quote_eq]
    exact (List.suffix_append _ _).isInfix.trans hprefix.isInfix

/-- The lines of a key's fragment are those of its entry just if its first line is the first one
that holds the key in quotes. If the key is written as it is, no other line may stand in the way. -/
theorem lines_eq_entryLines_iff (limits : ChunkLimits) (known : KnownNames) (a : Artifact)
    (fields : List (String × Json)) (hkind : a.kind? = some (.config .json))
    (hparse : Json.parse? a.text = some (.obj fields)) (hpretty : a.text = (Json.obj fields).pretty)
    (f : Fragment) (hf : f ∈ ofDocument limits known a) (before : List (String × Json)) (k : String)
    (v : Json) (after : List (String × Json)) (hfields : fields = before ++ (k, v) :: after)
    (hkey : StandsFor f k) :
    let first := (Json.leadText before).count '\n'
    let quoted := "\"" ++ k ++ "\""
    a.text.toList =
        Json.leadText before ++ Json.entryText (k, v) ++ Json.tailText after ∧
      ((f.startLine, f.endLine) = entryLines before (k, v) ↔
        FirstWith quoted (lines a.text) first) ∧
      (Plain k → ((f.startLine, f.endLine) = entryLines before (k, v) ↔
        ∀ l ∈ (lines a.text).take first, contains l quoted = false)) := by
  intro first quoted
  subst hfields
  have hsection : ofConfigSection limits known a.path .json a.text
      ⟨k, (Json.obj [(k, v)]).pretty⟩ = some f := by
    simp only [ofDocument, hkind] at hf
    exact ofConfigSection_of_standsFor hparse hf hkey (by simp)
  -- No entry is on the first line, where the brace stands.
  have hpos : 0 < first := by
    obtain ⟨lead, hlead⟩ := Json.exists_leadText_eq before
    simp only [first, hlead, List.count_append, List.count_cons_self]
    omega
  have hlines := (startsRight_iff hpretty hsection).trans (keyLine_eq_iff hpos)
  have htext := congrArg String.toList hpretty
  rw [Json.toList_pretty] at htext
  refine ⟨htext, hlines, fun hplain => hlines.trans ⟨fun hfirst => hfirst.above, fun habove => ?_⟩⟩
  exact ⟨habove, hplain.exists_line hpretty⟩

theorem lines_eq_entryLines_iff_shop :
    let limits : ChunkLimits := ⟨1, 3, 99, 50, true, true⟩
    let a : Artifact := ⟨"shop.json", "\x7b\n  \"a\": \x7b\n    \"tax\": 1\n  \x7d,\n  \"b\": 2\n\x7d"⟩
    let before : List (String × Json) := [("a", .obj [("tax", .num (.whole 1))])]
    let e : String × Json := ("b", .num (.whole 2))
    a.kind? = some (.config .json) ∧ Json.parse? a.text = some (.obj (before ++ [e])) ∧
      a.text = (Json.obj (before ++ [e])).pretty ∧
      ∃ f ∈ ofDocument limits ⟨[]⟩ a, StandsFor f "b" ∧
        (f.startLine, f.endLine) = entryLines before e ∧ entryLines before e = (5, 5) := by
  intro limits a before e
  have hkind : a.kind? = some (.config .json) := by decide +kernel
  have hparse : Json.parse? a.text = some (.obj (before ++ [e])) := by decide +kernel
  have hpretty : a.text = (Json.obj (before ++ [e])).pretty := by decide +kernel
  have hsome : ∃ f ∈ ofDocument limits ⟨[]⟩ a,
      f.kind = .configSection ∧ f.metadata.lookup "section" = some (.str "b") := by decide +kernel
  have hplain : Plain "b" := by
    intro c hc
    obtain rfl : c = 'b' := by simpa using hc
    rfl
  obtain ⟨f, hf, hkey⟩ := hsome
  have hlines := lines_eq_entryLines_iff limits ⟨[]⟩ a _ hkind hparse hpretty f hf before "b"
    (.num (.whole 2)) [] rfl hkey
  exact ⟨hkind, hparse, hpretty, f, hf, hkey, (hlines.2.2 hplain).2 (by decide +kernel),
    by decide +kernel⟩

/-- A key below another one, on a line above its own. -/
theorem not_lines_eq_entryLines :
    ¬ ∀ (limits : ChunkLimits) (known : KnownNames) (a : Artifact) (fields : List (String × Json)),
      a.kind? = some (.config .json) → Json.parse? a.text = some (.obj fields) →
      a.text = (Json.obj fields).pretty → isLongConfig limits known a.path a.text = true →
      ∀ f ∈ ofDocument limits known a, ∀ before k v after, fields = before ++ (k, v) :: after →
        StandsFor f k → (f.startLine, f.endLine) = entryLines before (k, v) := by
  intro hall
  have hsome : ∃ f ∈ ofDocument ⟨1, 3, 99, 50, true, true⟩ ⟨[]⟩
      ⟨"a.json", "\x7b\n  \"a\": \x7b\n    \"b\": 1\n  \x7d,\n  \"b\": 2\n\x7d"⟩,
      (f.kind = .configSection ∧ f.metadata.lookup "section" = some (.str "b")) ∧
        (f.startLine, f.endLine) = (3, 3) := by decide +kernel
  obtain ⟨f, hf, hkey, hthree⟩ := hsome
  have hfive := hall _ _ _ [("a", .obj [("b", .num (.whole 1))]), ("b", .num (.whole 2))]
    (by decide +kernel) (by decide +kernel) (by decide +kernel) (by decide +kernel) f hf
    [("a", .obj [("b", .num (.whole 1))])] "b" (.num (.whole 2)) [] rfl hkey
  rw [hthree] at hfive
  exact absurd hfive (by decide +kernel)

end Chunk

end CodeRetrieval
