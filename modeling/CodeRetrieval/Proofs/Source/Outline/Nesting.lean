import CodeRetrieval.Proofs.Source.Outline.Declarations
import Mathlib.Data.List.GetD
import Mathlib.Data.List.TakeWhile

/-!
Which types an outline nests in which. The parent of a type is the nearest one above it that is
indented less, whether or not that one has been closed before; the inner type lies within its parent
exactly if it has not.
-/

set_option autoImplicit false

namespace CodeRetrieval.Source

/-- Every inner type starts below the first line of its parent and ends with its last line at the
latest. -/
def SourceFile.WellNested (file : SourceFile) : Prop :=
  ∀ e, file.Holds e → ∀ nested ∈ e.inner,
    e.declaration.startLine < nested.declaration.startLine ∧
      nested.declaration.endLine ≤ e.declaration.endLine

namespace Outline

variable {ls : List String} {limit : Nat} {outer : String} {hs : List Heading}

section Closing

variable {start indent line : Nat}

/-- Whether a declaration is closed above some line: where it starts, or on a line in between. -/
def ClosedBefore (ls : List String) (start indent line : Nat) : Prop :=
  closesAtOnce (ls.getD start "") = true ∨
    ∃ j < line, start < j ∧ closes indent (ls.getD j "") = true

instance : Decidable (ClosedBefore ls start indent line) :=
  inferInstanceAs (Decidable (closesAtOnce (ls.getD start "") = true ∨
    ∃ j < line, start < j ∧ closes indent (ls.getD j "") = true))

theorem closingLine_le (hstart : start ≤ limit) : closingLine ls start indent limit ≤ limit := by
  simp only [closingLine]
  split
  · exact hstart
  · split
    · next k hk =>
      have hlt := (List.findIdx?_eq_some_iff_findIdx_eq.1 hk).1
      rw [List.length_take, List.length_drop] at hlt
      omega
    · omega

theorem getElem_between {k : Nat}
    (hk : k < ((ls.drop (start + 1)).take (limit - start)).length) :
    ((ls.drop (start + 1)).take (limit - start))[k] = ls.getD (start + 1 + k) "" := by
  rw [List.length_take, List.length_drop] at hk
  rw [List.getElem_take, List.getElem_drop, List.getD_eq_getElem _ _ (by omega)]

theorem closingLine_lt_iff (hline : start < line) (hle : line ≤ limit)
    (hlimit : limit < ls.length) :
    closingLine ls start indent limit < line ↔ ClosedBefore ls start indent line := by
  have hlast : min limit (ls.length - 1) = limit := by omega
  simp only [closingLine, ClosedBefore, hlast]
  by_cases honce : closesAtOnce (ls.getD start "") = true
  · rw [if_pos honce]
    exact iff_of_true hline (.inl honce)
  · -- The search runs up to the limit, and `line` is not beyond it.
    rw [if_neg honce, or_iff_right honce]
    cases hfind : ((ls.drop (start + 1)).take (limit - start)).findIdx? (closes indent) with
    | some k =>
      obtain ⟨hk, hclose, hfirst⟩ := List.findIdx?_eq_some_iff_getElem.1 hfind
      rw [getElem_between hk] at hclose
      change start + 1 + k < line ↔ _
      constructor
      · intro hlt
        exact ⟨start + 1 + k, hlt, by omega, hclose⟩
      · rintro ⟨j, hj, hstart, hcloses⟩
        by_contra hlt
        have hbefore : j - (start + 1) < k := by omega
        have hopen := hfirst (j - (start + 1)) hbefore
        rw [getElem_between, show start + 1 + (j - (start + 1)) = j by omega] at hopen
        exact hopen hcloses
    | none =>
      have hopen := List.findIdx?_eq_none_iff.1 hfind
      change max limit start < line ↔ _
      refine iff_of_false (by omega) ?_
      rintro ⟨j, hj, hstart, hcloses⟩
      have hk : j - (start + 1) < ((ls.drop (start + 1)).take (limit - start)).length := by
        rw [List.length_take, List.length_drop]
        omega
      have hnot := hopen _ (List.getElem_mem hk)
      rw [getElem_between hk, show start + 1 + (j - (start + 1)) = j by omega, hcloses] at hnot
      cases hnot

theorem closes_of_le {indent' : Nat} {l : String} (h : closes indent l = true)
    (hle : indent ≤ indent') : closes indent' l = true := by
  simp only [closes, Bool.and_eq_true, decide_eq_true_eq] at h ⊢
  exact ⟨h.1, h.2.trans hle⟩

theorem closingLine_le_iff {h k : Heading} {here there : Nat} (habove : h.line < k.line)
    (hdeeper : h.indent < k.indent) (hindent : indentation (ls.getD k.line "") = k.indent)
    (hk : k.line ≤ there) (hthere : there ≤ here) (hhere : here < ls.length) :
    closingLine ls k.line k.indent there ≤ closingLine ls h.line h.indent here ↔
      ¬ClosedBefore ls h.line h.indent k.line := by
  have hkLe : k.line ≤ closingLine ls k.line k.indent there :=
    (closingLine_bounds (by omega)).1
  rw [← closingLine_lt_iff habove (hk.trans hthere) hhere]
  constructor
  · omega
  · intro hopen
    by_contra hlt
    have hkLast : closingLine ls k.line k.indent there ≤ there := closingLine_le hk
    -- The line that ends the outer declaration closes the inner one too.
    have hends : ClosedBefore ls h.line h.indent (closingLine ls h.line h.indent here + 1) :=
      (closingLine_lt_iff (by omega) (by omega) hhere).1 (Nat.lt_succ_self _)
    have hstill : ¬ClosedBefore ls h.line h.indent k.line := fun hclosed =>
      hopen ((closingLine_lt_iff habove (hk.trans hthere) hhere).2 hclosed)
    obtain honce | ⟨j, hjEnd, hj, hcloses⟩ := hends
    · exact hstill (.inl honce)
    · have hbelow : k.line < j := by
        rcases Nat.lt_trichotomy j k.line with hbefore | rfl | hbelow
        · exact absurd (.inr ⟨j, hbefore, hj, hcloses⟩) hstill
        · simp only [closes, Bool.and_eq_true, decide_eq_true_eq] at hcloses
          omega
        · exact hbelow
      have hinner : ClosedBefore ls k.line k.indent (closingLine ls h.line h.indent here + 1) :=
        .inr ⟨j, hjEnd, hbelow, closes_of_le hcloses hdeeper.le⟩
      have hkEnds : closingLine ls k.line k.indent there < closingLine ls h.line h.indent here + 1 :=
        (closingLine_lt_iff (by omega) (by omega) (by omega)).2 hinner
      exact hlt (Nat.le_of_lt_succ hkEnds)

end Closing

section Headings

structure Heading.Outermost (hs : List Heading) (k : Heading) : Prop where
  mem : k ∈ hs
  above : ∀ m ∈ hs, m.line < k.line → k.indent ≤ m.indent

/-- The nearest heading above that is indented less. -/
structure Heading.Encloses (hs : List Heading) (h k : Heading) : Prop where
  outer : h ∈ hs
  inner : k ∈ hs
  above : h.line < k.line
  deeper : h.indent < k.indent
  nearest : ∀ m ∈ hs, h.line < m.line → m.line < k.line → k.indent ≤ m.indent

instance (hs : List Heading) (h k : Heading) : Decidable (Heading.Encloses hs h k) :=
  decidable_of_iff (h ∈ hs ∧ k ∈ hs ∧ h.line < k.line ∧ h.indent < k.indent ∧
      ∀ m ∈ hs, h.line < m.line → m.line < k.line → k.indent ≤ m.indent)
    ⟨fun ⟨outer, inner, above, deeper, nearest⟩ => ⟨outer, inner, above, deeper, nearest⟩,
      fun ⟨outer, inner, above, deeper, nearest⟩ => ⟨outer, inner, above, deeper, nearest⟩⟩

structure Split (h : Heading) (deeper later : List Heading) : Prop where
  belowDeeper : ∀ m ∈ deeper, h.line < m.line
  belowLater : ∀ m ∈ later, h.line < m.line
  inside : ∀ m ∈ deeper, h.indent < m.indent
  ordered : ∀ m ∈ deeper, ∀ n ∈ later, m.line < n.line
  back : ∀ n ∈ later, n.indent ≤ h.indent ∨ ∃ m ∈ later, m.line < n.line ∧ m.indent ≤ h.indent

variable {h k m : Heading} {rest deeper later : List Heading}

theorem split_of_pairwise (hsorted : (h :: rest).Pairwise fun m n => m.line < n.line) :
    Split h (rest.takeWhile (h.indent < ·.indent)) (rest.dropWhile (h.indent < ·.indent)) := by
  obtain ⟨hbelow, hrest⟩ := List.pairwise_cons.1 hsorted
  have hparts := List.takeWhile_append_dropWhile (p := (h.indent < ·.indent)) (l := rest)
  rw [← hparts, List.pairwise_append] at hrest
  refine ⟨fun m hm => hbelow m ((List.takeWhile_sublist _).subset hm),
    fun m hm => hbelow m ((List.dropWhile_sublist _).subset hm),
    fun m hm => by simpa using List.mem_takeWhile_imp hm, hrest.2.2, fun n hn => ?_⟩
  obtain ⟨next, more, hnext⟩ := List.exists_cons_of_ne_nil (List.ne_nil_of_mem hn)
  have hback : next.indent ≤ h.indent := by
    have hnot := List.head?_dropWhile_not (fun m : Heading => decide (h.indent < m.indent)) rest
    simpa [hnext] using hnot
  have hlater := hrest.2.1
  rw [hnext] at hn hlater ⊢
  rcases List.mem_cons.1 hn with rfl | hmore
  · exact .inl hback
  · exact .inr ⟨next, List.mem_cons_self, (List.pairwise_cons.1 hlater).1 n hmore, hback⟩

theorem Split.not_encloses (hsplit : Split h deeper later) {n : Heading} (hn : n ∈ later)
    (hm : ∀ l ∈ later, m.line < l.line) (hindent : h.indent ≤ m.indent) :
    ¬Heading.Encloses (h :: (deeper ++ later)) m n := by
  intro hencloses
  have hdeeper := hencloses.deeper
  rcases hsplit.back n hn with hback | ⟨l, hl, hline, hback⟩
  · omega
  · have hnearest := hencloses.nearest l (by simp [hl]) (hm l hl) hline
    omega

theorem Split.outermost_iff (hsplit : Split h deeper later) :
    Heading.Outermost (h :: (deeper ++ later)) k ↔ k = h ∨ Heading.Outermost later k := by
  constructor
  · rintro ⟨hmem, habove⟩
    rcases List.mem_cons.1 hmem with rfl | hrest
    · exact .inl rfl
    · rcases List.mem_append.1 hrest with hdeeper | hlater
      · have hinside := hsplit.inside k hdeeper
        have hle := habove h List.mem_cons_self (hsplit.belowDeeper k hdeeper)
        omega
      · exact .inr ⟨hlater, fun m hm => habove m (by simp [hm])⟩
  · rintro (rfl | ⟨hmem, habove⟩)
    · refine ⟨List.mem_cons_self, fun m hm hlt => ?_⟩
      rcases List.mem_cons.1 hm with rfl | hrest
      · omega
      · rcases List.mem_append.1 hrest with hdeeper | hlater
        · have hbelow := hsplit.belowDeeper m hdeeper
          omega
        · have hbelow := hsplit.belowLater m hlater
          omega
    · have hback : k.indent ≤ h.indent := by
        rcases hsplit.back k hmem with hback | ⟨m, hm, hline, hback⟩
        · exact hback
        · exact (habove m hm hline).trans hback
      refine ⟨by simp [hmem], fun m hm hlt => ?_⟩
      rcases List.mem_cons.1 hm with rfl | hrest
      · exact hback
      · rcases List.mem_append.1 hrest with hdeeper | hlater
        · exact hback.trans (hsplit.inside m hdeeper).le
        · exact habove m hlater hlt

theorem Split.encloses_iff (hsplit : Split h deeper later) :
    Heading.Encloses (h :: (deeper ++ later)) m k ↔ (m = h ∧ Heading.Outermost deeper k) ∨
      Heading.Encloses deeper m k ∨ Heading.Encloses later m k := by
  constructor
  · intro hencloses
    have habove := hencloses.above
    have hindent := hencloses.deeper
    have hnearest := hencloses.nearest
    have houter := hencloses.outer
    have hinner := hencloses.inner
    simp only [List.mem_cons, List.mem_append] at houter hinner
    -- Each of the two headings is the first one, a deeper one or a later one.
    rcases houter with rfl | hm | hm <;> rcases hinner with rfl | hk | hk
    · omega
    · exact .inl ⟨rfl, hk, fun n hn hlt =>
        hnearest n (by simp [hn]) (hsplit.belowDeeper n hn) hlt⟩
    · exact absurd hencloses (hsplit.not_encloses hk hsplit.belowLater le_rfl)
    · have hbelow := hsplit.belowDeeper m hm
      omega
    · exact .inr (.inl ⟨hm, hk, habove, hindent, fun n hn => hnearest n (by simp [hn])⟩)
    · exact absurd hencloses
        (hsplit.not_encloses hk (hsplit.ordered m hm) (hsplit.inside m hm).le)
    · have hbelow := hsplit.belowLater m hm
      omega
    · have hordered := hsplit.ordered k hk m hm
      omega
    · exact .inr (.inr ⟨hm, hk, habove, hindent, fun n hn => hnearest n (by simp [hn])⟩)
  · rintro (⟨rfl, hk, hnearest⟩ | ⟨hm, hk, habove, hindent, hnearest⟩ |
      ⟨hm, hk, habove, hindent, hnearest⟩)
    · refine ⟨by simp, by simp [hk], hsplit.belowDeeper k hk, hsplit.inside k hk,
        fun n hn hbelow hlt => ?_⟩
      simp only [List.mem_cons, List.mem_append] at hn
      rcases hn with rfl | hn | hn
      · omega
      · exact hnearest n hn hlt
      · have hordered := hsplit.ordered k hk n hn
        omega
    · refine ⟨by simp [hm], by simp [hk], habove, hindent, fun n hn hbelow hlt => ?_⟩
      simp only [List.mem_cons, List.mem_append] at hn
      rcases hn with rfl | hn | hn
      · have hfirst := hsplit.belowDeeper m hm
        omega
      · exact hnearest n hn hbelow hlt
      · have hordered := hsplit.ordered k hk n hn
        omega
    · refine ⟨by simp [hm], by simp [hk], habove, hindent, fun n hn hbelow hlt => ?_⟩
      simp only [List.mem_cons, List.mem_append] at hn
      rcases hn with rfl | hn | hn
      · have hfirst := hsplit.belowLater m hm
        omega
      · have hordered := hsplit.ordered n hn m hm
        omega
      · exact hnearest n hn hbelow hlt

theorem limit_bounds {here : Nat}
    (hhere : here = match later with
      | [] => limit
      | next :: _ => max (next.line - 1) h.line)
    (hsplit : Split h deeper later) (hreach : ∀ m ∈ h :: (deeper ++ later), m.line ≤ limit) :
    (∀ m ∈ h :: deeper, m.line ≤ here) ∧ here ≤ limit := by
  have hfirst := hreach h List.mem_cons_self
  cases later with
  | nil =>
    subst hhere
    exact ⟨by simpa using hreach, le_rfl⟩
  | cons next more =>
    have hnext := hreach next (by simp)
    change here = max (next.line - 1) h.line at hhere
    refine ⟨fun m hm => ?_, by omega⟩
    rcases List.mem_cons.1 hm with rfl | hm
    · omega
    · have hbefore := hsplit.ordered m hm next List.mem_cons_self
      omega

end Headings

section Types

/-- A declaration that takes the lines from a heading to the one that closes it. -/
structure Heading.Gives (ls : List String) (limit : Nat) (h : Heading) (d : Declaration) :
    Prop where
  reach : h.line ≤ limit
  start : d.startLine = h.line + 1
  last : d.endLine = closingLine ls h.line h.indent limit + 1

def GiveNested (ls : List String) (limit : Nat) (h k : Heading) (e nested : Entity) : Prop :=
  nested ∈ e.inner ∧ ∃ here there, there ≤ here ∧ here ≤ limit ∧
    h.Gives ls here e.declaration ∧ k.Gives ls there nested.declaration

/-- The types that some headings give, in the tree that the headings make. -/
structure Nesting (ls : List String) (limit : Nat) (hs : List Heading) (es : List Entity) :
    Prop where
  outermost : ∀ e ∈ es, ∃ k, Heading.Outermost hs k ∧ ∃ here ≤ limit, k.Gives ls here e.declaration
  top : ∀ k, Heading.Outermost hs k → ∃ e ∈ es, ∃ here ≤ limit, k.Gives ls here e.declaration
  encloses : ∀ top ∈ es, ∀ e, top.Holds e → ∀ nested ∈ e.inner,
    ∃ h k, Heading.Encloses hs h k ∧ GiveNested ls limit h k e nested
  inner : ∀ h k, Heading.Encloses hs h k →
    ∃ top ∈ es, ∃ e nested, top.Holds e ∧ GiveNested ls limit h k e nested

variable {h k : Heading} {e nested : Entity} {es : List Entity} {deeper later : List Heading}

theorem GiveNested.mono {here : Nat} (hle : here ≤ limit) (h' : GiveNested ls here h k e nested) :
    GiveNested ls limit h k e nested := by
  obtain ⟨hnested, reach, there, hthere, hreach, hgives⟩ := h'
  exact ⟨hnested, reach, there, hthere, hreach.trans hle, hgives⟩

theorem Nesting.nil : Nesting ls limit [] [] where
  outermost := by simp
  top k hk := absurd hk.mem List.not_mem_nil
  encloses := by simp
  inner h k hencloses := absurd hencloses.outer List.not_mem_nil

theorem Nesting.cons (hsplit : Split h deeper later) {here : Nat} (hle : here ≤ limit)
    (hgives : h.Gives ls here e.declaration) (hinner : Nesting ls here deeper e.inner)
    (hlater : Nesting ls limit later es) :
    Nesting ls limit (h :: (deeper ++ later)) (e :: es) where
  outermost f hf := by
    rcases List.mem_cons.1 hf with rfl | hf
    · exact ⟨h, hsplit.outermost_iff.2 (.inl rfl), here, hle, hgives⟩
    · obtain ⟨k, hk, hfgives⟩ := hlater.outermost f hf
      exact ⟨k, hsplit.outermost_iff.2 (.inr hk), hfgives⟩
  top k hk := by
    rcases hsplit.outermost_iff.1 hk with rfl | hk
    · exact ⟨e, List.mem_cons_self, here, hle, hgives⟩
    · obtain ⟨f, hf, hfgives⟩ := hlater.top k hk
      exact ⟨f, List.mem_cons_of_mem e hf, hfgives⟩
  encloses top htop f hholds nested hnested := by
    rcases List.mem_cons.1 htop with rfl | htop
    · cases hholds with
      | self =>
        obtain ⟨k, hk, there, hthere, hkgives⟩ := hinner.outermost nested hnested
        exact ⟨h, k, hsplit.encloses_iff.2 (.inl ⟨rfl, hk⟩),
          hnested, here, there, hthere, hle, hgives, hkgives⟩
      | inner htop hholds =>
        obtain ⟨m, k, hencloses, hgive⟩ := hinner.encloses _ htop f hholds nested hnested
        exact ⟨m, k, hsplit.encloses_iff.2 (.inr (.inl hencloses)), hgive.mono hle⟩
    · obtain ⟨m, k, hencloses, hgive⟩ := hlater.encloses top htop f hholds nested hnested
      exact ⟨m, k, hsplit.encloses_iff.2 (.inr (.inr hencloses)), hgive⟩
  inner m k hencloses := by
    rcases hsplit.encloses_iff.1 hencloses with ⟨rfl, hk⟩ | hdeeper | hmore
    · obtain ⟨nested, hnested, there, hthere, hkgives⟩ := hinner.top k hk
      exact ⟨e, List.mem_cons_self, e, nested, .self e,
        hnested, here, there, hthere, hle, hgives, hkgives⟩
    · obtain ⟨top, htop, f, nested, hholds, hgive⟩ := hinner.inner m k hdeeper
      exact ⟨e, List.mem_cons_self, f, nested, .inner htop hholds, hgive.mono hle⟩
    · obtain ⟨top, htop, hnested⟩ := hlater.inner m k hmore
      exact ⟨top, List.mem_cons_of_mem e htop, hnested⟩

theorem nesting_entities (hsorted : hs.Pairwise fun m n => m.line < n.line)
    (hreach : ∀ m ∈ hs, m.line ≤ limit) : Nesting ls limit hs (entities ls limit outer hs) := by
  fun_induction entities ls limit outer hs with
  | case1 => exact .nil
  | case2 limit outer h rest deeper later limitHere last inner fields members hcontents ihInner
      ihLater =>
    have hsplit : Split h deeper later := split_of_pairwise hsorted
    have hparts : deeper ++ later = rest := List.takeWhile_append_dropWhile
    have htail : rest.Pairwise fun m n => m.line < n.line := (List.pairwise_cons.1 hsorted).2
    have hlater : ∀ m ∈ later, m.line ≤ limit := (forall_parts hreach).2.2
    rw [← hparts] at hreach ⊢
    obtain ⟨hhere, hle⟩ := limit_bounds (show limitHere = _ from rfl) hsplit hreach
    exact .cons hsplit hle ⟨hhere h List.mem_cons_self, rfl, rfl⟩
      (ihInner (htail.sublist (List.takeWhile_sublist _))
        fun m hm => hhere m (List.mem_cons_of_mem h hm))
      (ihLater (htail.sublist (List.dropWhile_sublist _)) hlater)

theorem indent_of_mem_headings (hh : h ∈ headings ls) :
    indentation (ls.getD h.line "") = h.indent := by
  obtain ⟨⟨line, i⟩, hi, hsome⟩ := List.mem_filterMap.1 hh
  simp only [heading?] at hsome
  split at hsome
  · cases hsome
  · obtain ⟨parts, _, rfl⟩ := Option.map_eq_some_iff.1 hsome
    rw [List.mem_zipIdx_iff_getElem?] at hi
    simp [List.getD, hi]

end Types

variable {path text : String} {file : SourceFile}

theorem nesting_of_read (hfile : (read path text).file? = some file) :
    Nesting (Text.lines text) ((Text.lines text).length - 1) (headings (Text.lines text))
      file.entities := by
  obtain ⟨_, _, hentities⟩ := entities_of_read hfile
  rw [hentities]
  refine nesting_entities (pairwise_headings _) fun m hm => ?_
  have hline := line_of_mem_headings hm
  omega

theorem inside_iff {h k : Heading} {e nested : Entity}
    (hencloses : Heading.Encloses (headings ls) h k)
    (hgive : GiveNested ls (ls.length - 1) h k e nested) :
    e.declaration.startLine < nested.declaration.startLine ∧
      (nested.declaration.endLine ≤ e.declaration.endLine ↔
        ¬ClosedBefore ls h.line h.indent k.line) := by
  obtain ⟨_, here, there, hthere, hhere, hh, hk⟩ := hgive
  have habove := hencloses.above
  have hline := line_of_mem_headings hencloses.inner
  rw [hh.start, hk.start, hh.last, hk.last, Nat.add_le_add_iff_right]
  exact ⟨by omega, closingLine_le_iff habove hencloses.deeper
    (indent_of_mem_headings hencloses.inner) hk.reach hthere (by omega)⟩

/-- The types of a text nest well exactly if no heading stands below the line that closes the one
that encloses it. -/
theorem wellNested_iff (hfile : (read path text).file? = some file) :
    (∀ e, file.Holds e → ∀ nested ∈ e.inner,
      e.declaration.startLine < nested.declaration.startLine) ∧
    (file.WellNested ↔ ∀ h k, Heading.Encloses (headings (Text.lines text)) h k →
      ¬ClosedBefore (Text.lines text) h.line h.indent k.line) := by
  have hnesting := nesting_of_read hfile
  have hstarts : ∀ e, file.Holds e → ∀ nested ∈ e.inner,
      e.declaration.startLine < nested.declaration.startLine := by
    rintro e ⟨top, htop, hholds⟩ nested hnested
    obtain ⟨h, k, hencloses, hgive⟩ := hnesting.encloses top htop e hholds nested hnested
    exact (inside_iff hencloses hgive).1
  refine ⟨hstarts, fun hwell h k hencloses => ?_, fun hopen e hholds nested hnested => ?_⟩
  · obtain ⟨top, htop, e, nested, hholds, hgive⟩ := hnesting.inner h k hencloses
    exact (inside_iff hencloses hgive).2.1 (hwell e ⟨top, htop, hholds⟩ nested hgive.1).2
  · refine ⟨hstarts e hholds nested hnested, ?_⟩
    obtain ⟨top, htop, hheld⟩ := hholds
    obtain ⟨h, k, hencloses, hgive⟩ := hnesting.encloses top htop e hheld nested hnested
    exact (inside_iff hencloses hgive).2.2 (hopen h k hencloses)

theorem wellNested_iff_cart :
    let text := "class Cart \x7b\n  class Item \x7b\n  \x7d\n\x7d\nclass Order \x7b\n\x7d\n"
    ∃ file, (read "Cart.java" text).file? = some file ∧ file.WellNested ∧
      ∃ e ∈ file.entities, e.inner ≠ [] := by
  intro text
  have hinner : (read "Cart.java" text).file?.any
      (fun file => file.entities.any fun e => !e.inner.isEmpty) = true := by decide +kernel
  have hopen : ∀ h ∈ headings (Text.lines text), ∀ k ∈ headings (Text.lines text),
      Heading.Encloses (headings (Text.lines text)) h k →
        ¬ClosedBefore (Text.lines text) h.line h.indent k.line := by decide +kernel
  obtain ⟨file, hfile, hsome⟩ := Option.any_eq_true _ _ |>.1 hinner
  refine ⟨file, hfile, (wellNested_iff hfile).2.2 fun h k hencloses =>
    hopen h hencloses.outer k hencloses.inner hencloses, ?_⟩
  simpa using hsome

/-- A type below the closing line of another, which is indented less, is nested in it all the
same. -/
theorem not_wellNested :
    ¬∀ path text file, (read path text).file? = some file → file.WellNested := by
  intro hwell
  have hspans : (read "A.java" "class A \x7b\n\x7d\n  class B \x7b\n  \x7d\n").file?.map
      (fun file => file.entities.map fun e =>
        (e.declaration.endLine, e.inner.map (·.declaration.endLine))) = some [(2, [4])] := by
    decide +kernel
  obtain ⟨file, hfile, hentities⟩ := Option.map_eq_some_iff.1 hspans
  obtain ⟨e, he, hspan⟩ := List.map_eq_singleton_iff.1 hentities
  obtain ⟨hlast, hnested⟩ := Prod.mk.inj hspan
  obtain ⟨nested, hinner, hend⟩ := List.map_eq_singleton_iff.1 hnested
  have hwithin := hwell _ _ file hfile e ⟨e, by simp [he], .self e⟩ nested (by simp [hinner])
  omega

end Outline

end CodeRetrieval.Source
