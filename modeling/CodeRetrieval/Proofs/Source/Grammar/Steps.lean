import CodeRetrieval.Proofs.Source.Names
import CodeRetrieval.Source.Grammar.File

/-!
Steps of the grammar on tokens whose words are names. No step puts a token in front that was not
there, so every word that a step meets is a name.
-/

set_option autoImplicit false

namespace CodeRetrieval.Source

def Token.Sound (t : Token) : Prop := t.isWord = true → IsName t.text

def Cursor.Sound (c : Cursor) : Prop := ∀ t ∈ c.ahead, t.Sound

namespace Parse

variable {α β : Type} {post : α → Prop} {post' : β → Prop} {p : Parse α} {f : α → Parse β}

/-- A step from sound tokens to sound tokens whose result is as told. -/
def Gives (post : α → Prop) (p : Parse α) : Prop :=
  ∀ c a d, c.Sound → p c = some (a, d) → d.Sound ∧ post a

abbrev Keeps (p : Parse α) : Prop := Gives (fun _ => True) p

theorem Gives.imp {weaker : α → Prop} (h : Gives post p) (himp : ∀ a, post a → weaker a) :
    Gives weaker p := fun c a d hc hrun =>
  let ⟨hd, ha⟩ := h c a d hc hrun
  ⟨hd, himp a ha⟩

theorem Gives.keeps (h : Gives post p) : Keeps p := h.imp fun _ _ => trivial

theorem gives_pure {a : α} (h : post a) : Gives post (pure a : Parse α) := by
  intro c b d hc hrun
  cases hrun
  exact ⟨hc, h⟩

theorem Gives.bind (hp : Gives post p) (hf : ∀ a, post a → Gives post' (f a)) :
    Gives post' (p >>= f) := by
  intro c b d hc hrun
  obtain ⟨⟨a, middle⟩, hfirst, hrest⟩ := Option.bind_eq_some_iff.1 hrun
  obtain ⟨hmiddle, ha⟩ := hp c a middle hc hfirst
  exact hf a ha middle b d hmiddle hrest

theorem Keeps.bind (hp : Keeps p) (hf : ∀ a, Gives post' (f a)) : Gives post' (p >>= f) :=
  Gives.bind hp fun a _ => hf a

theorem keeps_pure (a : α) : Keeps (pure a : Parse α) := gives_pure trivial

theorem gives_ite {c : Prop} [Decidable c] {q : Parse α} (hp : Gives post p) (hq : Gives post q) :
    Gives post (if c then p else q) := by
  split
  · exact hp
  · exact hq

theorem gives_join {c : Prop} [Decidable c] {q : Parse α} (hp : Keeps p) (hq : Keeps q)
    (hf : ∀ a, Gives post' (f a)) : Gives post' (if c then p >>= f else q >>= f) :=
  gives_ite (hp.bind hf) (hq.bind hf)

theorem gives_optionally {c : Prop} [Decidable c] {q : Parse α} (hq : Gives post q)
    (hp : Gives post q → Gives post p) : Gives post (if c then p else q) :=
  gives_ite (hp hq) hq

theorem gives_fail : Gives post (fail : Parse α) := by
  intro c a d _ hrun
  cases hrun

theorem keeps_of_subset (h : ∀ c a d, p c = some (a, d) → d.ahead ⊆ c.ahead) : Keeps p :=
  fun c a d hc hrun => ⟨fun t ht => hc t (h c a d hrun ht), trivial⟩

theorem keeps_look (look : Cursor → α) : Keeps fun c => some (look c, c) :=
  keeps_of_subset fun c a d hrun => by
    cases hrun
    exact List.Subset.refl _

theorem keeps_get : Keeps (get : Parse Cursor) := keeps_look fun c => c

theorem keeps_peek : Keeps peek := keeps_look _

theorem keeps_peekAny : Keeps peekAny := keeps_look _

theorem keeps_next (text : String) : Keeps (next text) := keeps_look _

theorem keeps_fault : Keeps fault := keeps_of_subset fun c a d hrun => by
  cases hrun
  exact List.Subset.refl _

theorem gives_take (test : Token → Bool) :
    Gives (fun t => test t = true ∧ t.Sound) (take test) := by
  intro c a d hc hrun
  simp only [take] at hrun
  cases hahead : c.ahead.dropWhile Token.isComment with
  | nil =>
    rw [hahead] at hrun
    cases hrun
  | cons t rest =>
    have hsubset : t :: rest ⊆ c.ahead := hahead ▸ (List.dropWhile_sublist _).subset
    rw [hahead] at hrun
    by_cases ht : test t = true
    · simp only [if_pos ht] at hrun
      cases hrun
      exact ⟨fun u hu => hc u (hsubset (List.mem_cons_of_mem _ hu)), ht, hc _ (hsubset (by simp))⟩
    · simp only [if_neg ht] at hrun
      cases hrun

theorem keeps_take (test : Token → Bool) : Keeps (take test) := (gives_take test).keeps

theorem gives_word : Gives (fun t => IsName t.text) word :=
  (gives_take _).imp fun _ ht => ht.2 ht.1

theorem keeps_word : Keeps word := gives_word.keeps

theorem Keeps.discard (h : Keeps p) : Keeps (discard p) := h.bind fun _ => keeps_pure _

theorem keeps_advance : Keeps advance := (keeps_take _).discard

theorem keeps_expect (text : String) : Keeps (expect text) := (keeps_take _).discard

theorem keeps_comment : Keeps comment := keeps_of_subset fun c a d hrun => by
  simp only [comment] at hrun
  cases hahead : c.ahead with
  | nil =>
    rw [hahead] at hrun
    cases hrun
  | cons t rest =>
    rw [hahead] at hrun
    by_cases hcomment : t.isComment = true
    · simp only [if_pos hcomment] at hrun
      cases hrun
      exact List.subset_cons_self _ rest
    · simp only [if_neg hcomment] at hrun
      cases hrun

theorem Gives.opt (h : Gives post p) : Gives (fun o => ∀ a ∈ o, post a) (opt p) := by
  intro c o d hc hrun
  simp only [Parse.opt] at hrun
  cases hp : p c with
  | none =>
    rw [hp] at hrun
    cases hrun
    exact ⟨hc, by simp⟩
  | some found =>
    rw [hp] at hrun
    cases hrun
    obtain ⟨hd, ha⟩ := h c found.1 found.2 hc hp
    exact ⟨hd, by simpa using ha⟩

theorem Keeps.opt (h : Keeps p) : Keeps (opt p) := (Gives.opt h).keeps

theorem Keeps.upTo (h : Keeps p) (n : Nat) : Keeps (upTo p n) := by
  induction n with
  | zero => exact keeps_pure _
  | succ n ih =>
    refine h.opt.bind fun o => ?_
    cases o with
    | none => exact keeps_pure _
    | some a => exact ih.bind fun _ => keeps_pure _

theorem Keeps.many (h : Keeps p) : Keeps (many p) := fun c => h.upTo c.ahead.length c

theorem keeps_require (text : String) : Keeps (require text) :=
  (keeps_next text).bind fun _ => gives_ite (keeps_expect text) keeps_fault

theorem subset_of_afterClosing {depth : Nat} {ts rest : List Token} {t : Token}
    (h : afterClosing depth ts = some (t, rest)) : rest ⊆ ts := by
  fun_induction afterClosing depth ts
  case case1 => cases h
  case case3 =>
    cases h
    exact List.subset_cons_self _ _
  case case2 ih | case4 ih | case5 ih => exact List.subset_cons_of_subset _ (ih h)

theorem keeps_group : Keeps group := by
  refine (keeps_take _).bind fun opening => keeps_of_subset fun c a d hrun => ?_
  cases hclosing : afterClosing 0 c.ahead with
  | none =>
    rw [hclosing] at hrun
    cases hrun
    exact List.nil_subset _
  | some found =>
    rw [hclosing] at hrun
    cases hrun
    exact subset_of_afterClosing hclosing

theorem keeps_statementWithin (n : Nat) : Keeps (statementWithin n) := by
  induction n with
  | zero => exact keeps_pure _
  | succ n ih =>
    refine keeps_peek.bind fun o => ?_
    cases o with
    | none => exact keeps_fault
    | some t =>
      exact gives_ite keeps_advance (gives_ite keeps_group (gives_ite keeps_fault
        (gives_ite (keeps_group.bind fun _ => ih) (keeps_advance.bind fun _ => ih))))

theorem keeps_statement : Keeps statement := fun c => keeps_statementWithin (c.ahead.length + 1) c

theorem keeps_textOf (source : List Char) {p : Parse Unit} (h : Keeps p) :
    Keeps (textOf source p) := by
  refine keeps_peek.bind fun o => ?_
  cases o with
  | none => exact gives_fail
  | some t => exact h.bind fun _ => keeps_get.bind fun _ => keeps_pure _

theorem keeps_name : Keeps name :=
  keeps_word.bind fun _ => (Keeps.many ((keeps_expect _).bind fun _ => keeps_word)).bind fun _ =>
    keeps_pure _

theorem keeps_annotation : Keeps annotation :=
  (keeps_expect _).bind fun _ => keeps_name.bind fun _ => (keeps_next _).bind fun _ =>
    gives_ite keeps_group (keeps_pure _)

theorem keeps_annotations : Keeps (many annotation) := keeps_annotation.many

theorem subset_of_afterAngles {depth parens : Nat} {ts rest : List Token} {t : Token}
    (h : afterAngles depth parens ts = some (t, rest)) : rest ⊆ ts := by
  fun_induction afterAngles depth parens ts
  case case1 | case10 => cases h
  case case6 =>
    cases h
    exact List.subset_cons_self _ _
  case case2 ih | case3 ih | case4 ih | case5 ih | case7 ih | case8 ih | case9 ih =>
    exact List.subset_cons_of_subset _ (ih h)

theorem keeps_typeArguments : Keeps typeArguments := by
  refine (keeps_expect _).bind fun _ => keeps_of_subset fun c a d hrun => ?_
  obtain ⟨found, hangles, hfound⟩ := Option.map_eq_some_iff.1 hrun
  cases hfound
  exact subset_of_afterAngles hangles

theorem keeps_dimensions : Keeps dimensions :=
  (Keeps.many (keeps_annotations.bind fun _ => (keeps_expect _).bind fun _ =>
    keeps_expect _)).discard

theorem keeps_type : Keeps type :=
  keeps_word.bind fun _ => keeps_typeArguments.opt.bind fun _ =>
    (Keeps.many ((keeps_expect _).bind fun _ => keeps_annotations.bind fun _ =>
      keeps_word.bind fun _ => keeps_typeArguments.opt)).bind fun _ => keeps_dimensions

theorem keeps_annotatedType : Keeps annotatedType :=
  keeps_annotations.bind fun _ => keeps_type

variable {source : List Char}

theorem keeps_modifiers : Keeps (modifiers source) := by
  have hmodifier : Keeps (modifier source) :=
    (keeps_next _).bind fun _ => gives_ite
      ((keeps_textOf source keeps_annotation).bind fun _ => keeps_pure _)
      ((keeps_take _).bind fun _ => keeps_pure _)
  exact hmodifier.many.bind fun _ => keeps_pure _

theorem keeps_typeOrComment {p : Parse Unit} (h : Keeps p) : Keeps (typeOrComment source p) := by
  refine keeps_comment.opt.bind fun o => ?_
  cases o with
  | none => exact keeps_textOf source h
  | some t => exact h.bind fun _ => keeps_pure _

theorem keeps_repeatedType (m : Modifiers) : Keeps (repeatedType source m) :=
  gives_join (keeps_textOf source keeps_type) (keeps_typeOrComment keeps_type) fun _ =>
    keeps_annotations.bind fun _ => (keeps_expect _).bind fun _ => keeps_pure _

theorem keeps_param : Keeps (param source) := by
  refine keeps_modifiers.bind fun m => (keeps_repeatedType m).opt.bind fun o => ?_
  cases o with
  | some typeName =>
    exact keeps_word.bind fun _ => keeps_dimensions.bind fun _ => keeps_pure _
  | none =>
    refine (keeps_textOf source keeps_type).bind fun _ => keeps_word.bind fun _ =>
      (keeps_next _).bind fun _ => gives_ite ?_ (keeps_dimensions.bind fun _ => keeps_pure _)
    exact (Keeps.many ((keeps_expect _).bind fun _ => keeps_word)).bind fun _ => keeps_pure _

theorem keeps_params : Keeps (params source) :=
  (keeps_expect _).bind fun _ => keeps_param.opt.bind fun _ =>
    (Keeps.many ((keeps_expect _).bind fun _ => keeps_param)).bind fun _ =>
      (keeps_expect _).bind fun _ => keeps_pure _

theorem keeps_typeList : Keeps (typeList source) := by
  have htype := keeps_textOf source keeps_annotatedType
  refine htype.bind fun _ => (Keeps.many ?_).bind fun _ => keeps_pure _
  exact keeps_comment.many.bind fun _ => (keeps_expect _).bind fun _ =>
    keeps_comment.many.bind fun _ => htype.bind fun _ => keeps_pure _

theorem keeps_valueWithin (n : Nat) : Keeps (valueWithin n) := by
  induction n with
  | zero => exact keeps_pure _
  | succ n ih =>
    refine keeps_peek.bind fun o => ?_
    cases o with
    | none => exact keeps_pure _
    | some t =>
      refine gives_ite (keeps_pure _) (gives_ite (keeps_group.bind fun _ => ih) ?_)
      refine keeps_typeArguments.opt.bind fun arguments => ?_
      cases arguments with
      | none => exact keeps_advance.bind fun _ => ih
      | some _ => exact ih

theorem keeps_declarators : Keeps declarators := by
  have hdeclarator : Keeps declarator :=
    keeps_word.bind fun _ => keeps_dimensions.bind fun _ => (keeps_next _).bind fun _ =>
      gives_ite ((keeps_expect _).bind fun _ =>
        Keeps.bind (fun c => keeps_valueWithin c.ahead.length c) fun _ => keeps_pure _)
        (keeps_pure _)
  exact hdeclarator.bind fun _ =>
    (Keeps.many ((keeps_expect _).bind fun _ => hdeclarator)).bind fun _ =>
      (keeps_require _).bind fun _ => keeps_pure _

end Parse

end CodeRetrieval.Source
