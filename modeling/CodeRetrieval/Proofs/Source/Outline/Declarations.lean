import CodeRetrieval.Proofs.Placing
import CodeRetrieval.Proofs.Source.Names

set_option autoImplicit false

namespace CodeRetrieval.Source.Outline

def declaredName? (line : String) : Option String :=
  if isComment line then none else (Line.declaration.matchFront line).map (·.get 5)

def declaredLines (text : String) : List (Nat × String) :=
  (Text.lines text).zipIdx.filterMap fun (line, i) => (declaredName? line).map (i + 1, ·)

variable {ls : List String} {limit : Nat} {outer owner : String} {hs : List Heading}

theorem heading?_declares (ls : List String) (i : Nat) (line : String) :
    (heading? ls i line).map (fun h => (h.line + 1, h.name)) =
      (declaredName? line).map (i + 1, ·) := by
  unfold heading? declaredName?
  split
  · rfl
  · rw [Option.map_map, Option.map_map]
    rfl

theorem headings_eq_nil_iff : headings ls = [] ↔
    ∀ line ∈ ls, isComment line = false → Line.declaration.matchFront line = none := by
  rw [headings, List.filterMap_eq_nil_iff]
  constructor
  · intro hnone line hline hcode
    obtain ⟨i, hi, rfl⟩ := List.getElem_of_mem hline
    have h := hnone (ls[i], i) (List.mem_zipIdx_iff_getElem?.2 (List.getElem?_eq_getElem hi))
    simpa [heading?, hcode] using h
  · intro hnone x hx
    have hline := List.fst_mem_of_mem_zipIdx hx
    simp only [heading?]
    split
    · rfl
    · next hcode => simp [hnone x.1 hline (by simpa using hcode)]

theorem headings_declare (text : String) :
    (headings (Text.lines text)).map (fun h => (h.line + 1, h.name)) = declaredLines text := by
  rw [headings, declaredLines, List.map_filterMap]
  exact List.filterMap_congr fun x _ => heading?_declares _ x.2 x.1

theorem line_of_heading? {i : Nat} {line : String} {h : Heading}
    (hh : heading? ls i line = some h) : h.line = i := by
  simp only [heading?] at hh
  split at hh
  · cases hh
  · obtain ⟨parts, _, rfl⟩ := Option.map_eq_some_iff.1 hh
    rfl

/-- Headings come in the order of their lines. -/
theorem pairwise_headings (ls : List String) :
    (headings ls).Pairwise fun h k => h.line < k.line := by
  refine List.pairwise_filterMap.2 ((pairwise_zipIdx ls).imp fun hlt h hh k hk => ?_)
  rw [line_of_heading? hh, line_of_heading? hk]
  exact hlt

/-- Every heading gives one type, and the types come in the order of their headings. -/
theorem declarations_of_entities (ls : List String) (limit : Nat) (outer : String)
    (hs : List Heading) :
    (walkAll (entities ls limit outer hs)).map (fun d => (d.startLine, d.name)) =
      hs.map fun h => (h.line + 1, h.name) := by
  fun_induction entities ls limit outer hs with
  | case1 => rfl
  | case2 limit outer h rest deeper later limitHere last inner fields members hcontents ihInner
      ihLater =>
    have hparts : deeper ++ later = rest := List.takeWhile_append_dropWhile
    simp only [walkAll, Entity.walk, List.cons_append, List.map_cons, List.map_append, ihLater]
    rw [ihInner, ← List.map_append, hparts]

theorem contents_of_mem_entities {d : Declaration}
    (hd : d ∈ walkAll (entities ls limit outer hs)) :
    ∃ start last nested, d.members = (contents ls start last d.name nested).2 := by
  fun_induction entities ls limit outer hs with
  | case1 => simp [walkAll] at hd
  | case2 limit outer h rest deeper later limitHere last inner fields members hcontents ihInner
      ihLater =>
    simp only [walkAll, Entity.walk, List.cons_append, List.mem_cons, List.mem_append] at hd
    rcases hd with rfl | hinner | hmore
    · exact ⟨h.line, last, inner.map span, by rw [hcontents]⟩
    · exact ihInner hinner
    · exact ihLater hmore

section Members

variable {start last : Nat} {nested : List (Nat × Nat)}

theorem pairwise_scan_members {look : Nat → String → Item} {next i : Nat}
    (hlook : ∀ j line m, look j line = .member m → m.startLine = j + 1) :
    (scan look next i ls).2.Pairwise fun m n => m.endLine < n.startLine := by
  induction ls generalizing next i with
  | nil => exact .nil
  | cons line ls ih =>
    unfold scan
    split
    · exact ih
    · cases hitem : look i line with
      | nothing => exact ih
      | field f => exact ih
      | member m =>
        refine List.pairwise_cons.2 ⟨fun n hn => ?_, ih⟩
        obtain ⟨j, l, hj, _, hn⟩ := mem_scan_members hn
        rw [hlook j l n hn]
        omega

theorem pairwise_members_contents :
    (contents ls start last owner nested).2.Pairwise fun m n => m.endLine < n.startLine := by
  simp only [contents]
  split
  · exact .nil
  · refine pairwise_scan_members fun j line m hitem => ?_
    obtain ⟨_, _, _, hstart, _⟩ := parts_of_member? (item_eq_member hitem)
    exact hstart

def linesBetween (ls : List String) (first last : Nat) : List String :=
  (ls.take last).drop (first - 1)

theorem body_of_mem_contents {m : Member} (hm : m ∈ (contents ls start last owner nested).2) :
    m.body = Text.unlines (linesBetween ls m.startLine m.endLine) := by
  obtain ⟨i, _, hmember⟩ := member?_of_mem_contents hm
  obtain ⟨_, _, _, hstart, _, hbody⟩ := parts_of_member? hmember
  rw [hbody, linesBetween, hstart, Nat.add_sub_cancel, List.drop_take]

end Members

/-- All that an outline may find in a text is in the file, as it stands in the text. -/
structure Outlines (text : String) (file : SourceFile) : Prop where
  declared : file.declarations.map (fun d => (d.startLine, d.name)) = declaredLines text
  increasing : file.declarations.Pairwise fun d e => d.startLine < e.startLine
  topNames : ∀ e ∈ file.entities, e.declaration.qualifiedName = e.declaration.name
  innerNames : ∀ e, file.Holds e → ∀ nested ∈ e.inner,
    nested.declaration.qualifiedName =
      e.declaration.qualifiedName ++ "." ++ nested.declaration.name
  placed : ∀ d ∈ file.declarations, d.Placed (Text.lineCount text)
  apart : ∀ d ∈ file.declarations, d.members.Pairwise fun m n => m.endLine < n.startLine
  bodies : ∀ d ∈ file.declarations, ∀ m ∈ d.members,
    m.body = Text.unlines (linesBetween (Text.lines text) m.startLine m.endLine)

section Read

variable {path text : String} {file : SourceFile}

theorem declared_of_read (h : (read path text).file? = some file) :
    file.declarations.map (fun d => (d.startLine, d.name)) = declaredLines text := by
  obtain ⟨_, _, hentities⟩ := entities_of_read h
  rw [SourceFile.declarations, hentities, declarations_of_entities, headings_declare]

theorem increasing_of_read (h : (read path text).file? = some file) :
    file.declarations.Pairwise fun d e => d.startLine < e.startLine := by
  have hlines : file.declarations.map (·.startLine) =
      (headings (Text.lines text)).map (·.line + 1) := by
    have hdeclared := (declared_of_read h).trans (headings_declare text).symm
    simpa [Function.comp_def] using congrArg (List.map Prod.fst) hdeclared
  rw [← List.pairwise_map (f := Declaration.startLine), hlines, List.pairwise_map]
  exact (pairwise_headings _).imp Nat.succ_lt_succ

theorem contents_of_read (h : (read path text).file? = some file) : ∀ d ∈ file.declarations,
    ∃ start last nested, d.members = (contents (Text.lines text) start last d.name nested).2 := by
  intro d hd
  obtain ⟨_, _, hentities⟩ := entities_of_read h
  rw [SourceFile.declarations, hentities] at hd
  exact contents_of_mem_entities hd

theorem outlines_of_read (h : (read path text).file? = some file) : Outlines text file where
  declared := declared_of_read h
  increasing := increasing_of_read h
  topNames e he := by
    obtain ⟨_, hname, _, _⟩ := namesTypes_read path text file h e he
    rw [hname, String.empty_append]
  innerNames e he nested hnested := by
    obtain ⟨top, htop, hholds⟩ := he
    obtain ⟨_, _, _, _, hinner⟩ := (namesTypes_read path text file h top htop).holds hholds
    obtain ⟨_, hname, _, _⟩ := hinner nested hnested
    exact hname
  placed := (placed_of_read h).2
  apart d hd := by
    obtain ⟨start, last, nested, hmembers⟩ := contents_of_read h d hd
    rw [hmembers]
    exact pairwise_members_contents
  bodies d hd m hm := by
    obtain ⟨start, last, nested, hmembers⟩ := contents_of_read h d hd
    rw [hmembers] at hm
    exact body_of_mem_contents hm

end Read

/-- An outline fails exactly where no line but a comment looks like a declaration. From every other
text it makes a file of all declarations. -/
theorem read_outlines (path text : String) :
    ((∃ reason, read path text = .failed reason) ↔ ∀ line ∈ Text.lines text,
      isComment line = false → Line.declaration.matchFront line = none) ∧
    ((∃ reason, read path text = .failed reason) ∨
      ∃ file reason, read path text = .degraded file reason ∧ Outlines text file) := by
  rw [← headings_eq_nil_iff]
  cases hhs : headings (Text.lines text) with
  | nil =>
    have hfailed : read path text = .failed "no type declaration found" := by
      simp only [read, hhs]
    exact ⟨by simp [hfailed], .inl ⟨_, hfailed⟩⟩
  | cons h hs =>
    obtain ⟨file, hread⟩ : ∃ file, read path text = .degraded file "regex extraction" :=
      ⟨_, by simp only [read, hhs]; rfl⟩
    have hfile : (read path text).file? = some file := by rw [hread, Reading.file?]
    exact ⟨by simp [hread], .inr ⟨file, _, hread, outlines_of_read hfile⟩⟩

end CodeRetrieval.Source.Outline
