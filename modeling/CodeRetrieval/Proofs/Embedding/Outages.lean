import CodeRetrieval.Proofs.Embedding.Requests

/-!
What becomes of the failures of a service while a batch is embedded. A group that fails, and not for
its length, ends the batch with that failure. A text that is sent alone never does: whatever its
call fails with is the reason why the text is skipped.
-/

set_option autoImplicit false

namespace CodeRetrieval

def Request.Fails (e : Embedder) (texts : List String) (log : CallLog) (f : Failure) :
    Request → Prop
  | group is => (e.call log ((group is).sent texts)).1 = .error f
  | alone i => (e.embed log (texts.getD i "")).1 = .error f

/-- One of some calls, made one after the other, is this one and fails. -/
def FailedCall (e : Embedder) (texts : List String) (r : Request) (f : Failure) :
    CallLog → List Request → Prop
  | _, [] => False
  | log, c :: calls =>
    c = r ∧ c.Fails e texts log f ∨ FailedCall e texts r f (log ++ [c.sent texts]) calls

/-- The calls made for a group: its texts follow, each alone, if it is refused for its length. -/
def callsOf (e : Embedder) (texts : List String) (log : CallLog) (is : List Nat) : List Request :=
  .group is :: match e.embedTexts log.length ((Request.group is).sent texts) with
    | .ok _ => []
    | .error f => if f.isTokenLimit then is.map .alone else []

/-- A group is done with if each of its texts has got a vector or been sent alone. -/
def served (e : Embedder) (texts : List String) (log : CallLog) (is : List Nat) : Bool :=
  match e.embedTexts log.length ((Request.group is).sent texts) with
  | .ok vectors => vectors.length == is.length
  | .error f => f.isTokenLimit

def callsFor (e : Embedder) (texts : List String) : CallLog → List (List Nat) → List Request
  | _, [] => []
  | log, is :: groups =>
    let calls := callsOf e texts log is
    if served e texts log is then
      calls ++ callsFor e texts (log ++ calls.map (·.sent texts)) groups
    else calls

def failedText (limits : BatchLimits) (texts : List String) (i : Nat) (f : Failure) :
    SkippedText :=
  ⟨i, limits.tokens (texts.getD i ""), f.fullText⟩

section Calls

variable {e : Embedder} {texts : List String} {limits : BatchLimits} {log : CallLog}
  {r : Request} {f : Failure} {is : List Nat}

theorem failedCall_append (front rest : List Request) :
    FailedCall e texts r f log (front ++ rest) ↔ FailedCall e texts r f log front ∨
      FailedCall e texts r f (log ++ front.map (·.sent texts)) rest := by
  induction front generalizing log with
  | nil => simp [FailedCall]
  | cons c front ih => simp [FailedCall, ih, or_assoc]

theorem not_failedCall_alone (places : List Nat) :
    ¬FailedCall e texts (.group is) f log (places.map .alone) := by
  induction places generalizing log with
  | nil => exact id
  | cons i places ih => simp [FailedCall, ih]

theorem mem_skips_embedSingly (limits : BatchLimits) (is : List Nat) {s : SkippedText} :
    s ∈ (embedSingly e limits log (pick texts is)).1.filterMap Slot.skip? ↔
      ∃ i f, FailedCall e texts (.alone i) f log (is.map .alone) ∧
        s = failedText limits texts i f := by
  -- The log grows by one call for each text, so the rest starts from another log.
  induction is generalizing log with
  | nil => simp [pick, embedSingly, FailedCall]
  | cons i is ih =>
    have hlog := embed_log e log (texts.getD i "")
    rcases h : e.embed log (texts.getD i "") with ⟨answer, log'⟩
    rw [h] at hlog
    obtain rfl : log' = log ++ [(Request.alone i).sent texts] := hlog
    have hpick : pick texts (i :: is) = (i, texts.getD i "") :: pick texts is := rfl
    simp only [hpick, embedSingly, h, List.map_cons, FailedCall, Request.Fails, Request.alone.injEq]
    cases answer with
    | ok v =>
      rw [List.filterMap_cons_none rfl, ih]
      simp
    | error f =>
      have hskip : (skipAfter limits i (texts.getD i "") f).skip? =
          some (failedText limits texts i f) := rfl
      rw [List.filterMap_cons_some hskip, List.mem_cons, ih]
      constructor
      · rintro (rfl | ⟨j, g, hfailed, rfl⟩)
        · exact ⟨i, f, .inl ⟨rfl, rfl⟩, rfl⟩
        · exact ⟨j, g, .inr hfailed, rfl⟩
      · rintro ⟨j, g, ⟨rfl, hsame⟩ | hfailed, rfl⟩
        · cases hsame
          exact .inl rfl
        · exact .inr ⟨j, g, hfailed, rfl⟩

theorem sent_group (texts : List String) (is : List Nat) :
    (Request.group is).sent texts = (pick texts is).map (·.2) := rfl

theorem length_pick (texts : List String) (is : List Nat) : (pick texts is).length = is.length := by
  simp [pick]

theorem embedOne_log (e : Embedder) (texts : List String) (limits : BatchLimits) (log : CallLog)
    (is : List Nat) : (embedOne e limits log (pick texts is)).2 =
      log ++ (callsOf e texts log is).map (·.sent texts) := by
  simp only [embedOne, Embedder.call, callsOf, sent_group]
  cases e.embedTexts log.length ((pick texts is).map (·.2)) with
  | ok vectors =>
    dsimp only
    split <;> rfl
  | error f =>
    dsimp only
    split
    · rw [embedSingly_log, List.map_cons, sent_alone, List.append_assoc]
      rfl
    · rfl

theorem embedOne_served (e : Embedder) (texts : List String) (limits : BatchLimits) (log : CallLog)
    (is : List Nat) : (∃ slots, (embedOne e limits log (pick texts is)).1 = .ok slots) ↔
      served e texts log is = true := by
  simp only [embedOne, Embedder.call, served, sent_group, length_pick]
  cases e.embedTexts log.length ((pick texts is).map (·.2)) with
  | ok vectors =>
    dsimp only
    split <;> simp_all
  | error f =>
    dsimp only
    split <;> simp_all

theorem embedOne_failed {places : List Nat}
    (h : FailedCall e texts (.group places) f log (callsOf e texts log is))
    (hother : f.isTokenLimit = false) :
    (embedOne e limits log (pick texts is)).1 = .error f := by
  rw [callsOf, FailedCall] at h
  rcases h with ⟨-, hfails⟩ | hlater
  · simp only [Request.Fails, Embedder.call, sent_group] at hfails
    simp [embedOne, Embedder.call, hfails, hother]
  · refine absurd hlater ?_
    cases e.embedTexts log.length ((Request.group is).sent texts) with
    | ok vectors => exact id
    | error g =>
      dsimp only
      split
      · exact not_failedCall_alone is
      · exact id

theorem mem_skips_embedOne {slots : List Slot}
    (h : (embedOne e limits log (pick texts is)).1 = .ok slots) {s : SkippedText} :
    s ∈ slots.filterMap Slot.skip? ↔
      ∃ i f, FailedCall e texts (.alone i) f log (callsOf e texts log is) ∧
        s = failedText limits texts i f := by
  rcases embedOne_ok (Prod.ext h rfl) with ⟨vectors, hcall, -, -, rfl⟩ | ⟨⟨g, hcall, hlimit⟩, hsingly⟩
  · have hcalls : callsOf e texts log is = [.group is] := by simp only [callsOf, sent_group, hcall]
    have hnone : (((pick texts is).zip vectors).map fun x => Slot.filled x.1.1 x.2).filterMap
        Slot.skip? = [] := by simp [Slot.skip?]
    simp [hcalls, hnone, FailedCall]
  · have hcalls : callsOf e texts log is = .group is :: is.map .alone := by
      simp only [callsOf, sent_group, hcall, hlimit, if_true]
    rw [(Prod.mk.inj hsingly).1, mem_skips_embedSingly]
    simp [hcalls, FailedCall, sent_group]

theorem embedAll_cons_cases (e : Embedder) (texts : List String) (limits : BatchLimits)
    (log : CallLog) (is : List Nat) (groups : List (List Nat)) :
    (∃ f, (embedOne e limits log (pick texts is)).1 = .error f ∧
      callsFor e texts log (is :: groups) = callsOf e texts log is ∧
      embedAll e limits log ((is :: groups).map (pick texts)) =
        (.error f, log ++ (callsOf e texts log is).map (·.sent texts))) ∨
    ∃ slots called, (embedOne e limits log (pick texts is)).1 = .ok slots ∧
      called = log ++ (callsOf e texts log is).map (·.sent texts) ∧
      callsFor e texts log (is :: groups) =
        callsOf e texts log is ++ callsFor e texts called groups ∧
      embedAll e limits log ((is :: groups).map (pick texts)) =
        ((embedAll e limits called (groups.map (pick texts))).1.map (slots ++ ·),
          (embedAll e limits called (groups.map (pick texts))).2) := by
  have hlog := embedOne_log e texts limits log is
  have hserved := embedOne_served e texts limits log is
  rcases hone : embedOne e limits log (pick texts is) with ⟨answer, called⟩
  rw [hone] at hlog hserved
  obtain rfl : called = _ := hlog
  cases answer with
  | error f =>
    have hstops : served e texts log is = false := by simpa using hserved
    refine .inl ⟨f, rfl, ?_, ?_⟩
    · simp only [callsFor, hstops, Bool.false_eq_true, if_false]
    · simp only [List.map_cons, embedAll, hone]
  | ok slots =>
    have hgoes : served e texts log is = true := hserved.1 ⟨slots, rfl⟩
    refine .inr ⟨slots, _, rfl, rfl, ?_, ?_⟩
    · simp only [callsFor, hgoes, if_true]
    · simp only [List.map_cons, embedAll, hone]
      -- Only what the later groups answer is left, whatever that is.
      generalize embedAll e limits _ (groups.map (pick texts)) = rest
      obtain ⟨more, log'⟩ := rest
      cases more <;> rfl

theorem embedAll_log (e : Embedder) (texts : List String) (limits : BatchLimits) (log : CallLog)
    (groups : List (List Nat)) : (embedAll e limits log (groups.map (pick texts))).2 =
      log ++ (callsFor e texts log groups).map (·.sent texts) := by
  induction groups generalizing log with
  | nil => simp [embedAll, callsFor]
  | cons is groups ih =>
    rcases embedAll_cons_cases e texts limits log is groups with
      ⟨f, -, hcalls, hall⟩ | ⟨slots, called, -, rfl, hcalls, hall⟩
    · rw [hall, hcalls]
    · rw [hall, hcalls, ih, List.map_append, List.append_assoc]

theorem embedAll_failed {groups : List (List Nat)}
    (h : FailedCall e texts (.group is) f log (callsFor e texts log groups))
    (hother : f.isTokenLimit = false) :
    (embedAll e limits log (groups.map (pick texts))).1 = .error f := by
  induction groups generalizing log with
  | nil => exact h.elim
  | cons first groups ih =>
    rcases embedAll_cons_cases e texts limits log first groups with
      ⟨g, hone, hcalls, hall⟩ | ⟨slots, called, hone, rfl, hcalls, hall⟩
    · rw [hcalls] at h
      rw [hall]
      exact hone.symm.trans (embedOne_failed h hother)
    · rw [hcalls, failedCall_append] at h
      rcases h with hfirst | hlater
      · exact nomatch hone.symm.trans (embedOne_failed hfirst hother)
      · rw [hall, ih hlater]
        rfl

theorem mem_skips_embedAll {groups : List (List Nat)} {slots : List Slot}
    (h : (embedAll e limits log (groups.map (pick texts))).1 = .ok slots) {s : SkippedText} :
    s ∈ slots.filterMap Slot.skip? ↔
      ∃ i f, FailedCall e texts (.alone i) f log (callsFor e texts log groups) ∧
        s = failedText limits texts i f := by
  induction groups generalizing log slots with
  | nil =>
    cases h
    simp [callsFor, FailedCall]
  | cons is groups ih =>
    rcases embedAll_cons_cases e texts limits log is groups with
      ⟨g, -, -, hall⟩ | ⟨first, called, hone, rfl, hcalls, hall⟩
    · rw [hall] at h
      cases h
    · rw [hall] at h
      cases hmore : (embedAll e limits (log ++ (callsOf e texts log is).map (·.sent texts))
          (groups.map (pick texts))).1 with
      | error g =>
        rw [hmore] at h
        cases h
      | ok more =>
        rw [hmore] at h
        cases h
        simp only [List.filterMap_append, List.mem_append, mem_skips_embedOne hone, ih hmore,
          hcalls, failedCall_append, or_and_right, exists_or]

end Calls

theorem mem_skippedOf {texts : List String} {limits : BatchLimits} {slots : List Slot}
    {s : SkippedText} : s ∈ skippedOf texts limits slots ↔
      (∃ i ∈ (planBatches texts limits).oversize, s = oversizeText limits i (texts.getD i "")) ∨
        s ∈ slots.filterMap Slot.skip? := by
  simp [skippedOf, pick, eq_comm]

/-- A group that fails for another reason than its length fails the batch with that failure. A text
without a vector is too long, or was sent alone and failed, for whatever reason. So a failure of the
service is what the batch fails with unless it hits a text that is sent alone. -/
theorem embedBatch_failures (e : Embedder) (texts : List String) (limits : BatchLimits)
    (log : CallLog) :
    let calls := callsFor e texts log (planBatches texts limits).batches
    let answer := (embedBatch e texts limits log).1
    (embedBatch e texts limits log).2 = log ++ calls.map (·.sent texts) ∧
    (∀ is f, FailedCall e texts (.group is) f log calls → f.isTokenLimit = false →
      answer = .error f) ∧
    (∀ b, answer = .ok b → ∀ s, s ∈ b.skipped ↔
      (∃ i ∈ (planBatches texts limits).oversize, s = oversizeText limits i (texts.getD i "")) ∨
      ∃ i f, FailedCall e texts (.alone i) f log calls ∧ s = failedText limits texts i f) ∧
    ((∀ i f, FailedCall e texts (.alone i) f log calls → f.isTokenLimit = true) →
      ∀ r f, FailedCall e texts r f log calls → f.isTokenLimit = false → answer = .error f) := by
  intro calls answer
  have hlog : (embedBatch e texts limits log).2 =
      (embedAll e limits log ((planBatches texts limits).batches.map (pick texts))).2 := by
    simp only [embedBatch]
    split <;> simp_all
  have hgroup : ∀ is f, FailedCall e texts (.group is) f log calls → f.isTokenLimit = false →
      answer = .error f := by
    intro is f hfailed hother
    have hall : (embedAll e limits log ((planBatches texts limits).batches.map (pick texts))).1 =
      .error f := embedAll_failed hfailed hother
    simp only [answer, embedBatch]
    split <;> simp_all
  refine ⟨hlog ▸ embedAll_log .., hgroup, ?_, ?_⟩
  · intro b hb s
    obtain ⟨slots, hall, -, hskipped⟩ := embedBatch_ok (Prod.ext hb rfl)
    rw [hskipped, (List.mergeSort_perm _ _).mem_iff, mem_skippedOf,
      mem_skips_embedAll (congrArg Prod.fst hall)]
  · intro halone r f hfailed hother
    cases r with
    | group is => exact hgroup is f hfailed hother
    | alone i =>
      -- A call for one text that fails for another reason is what the assumption excludes.
      rw [halone i f hfailed] at hother
      cases hother

def vectorless : Embedder := ⟨"stub", 1, fun _ texts => match texts with
  | [_] => .ok []
  | _ => .error (.plain "too many tokens")⟩

theorem not_embedBatch_reports_failures : ¬∀ (e : Embedder) (texts : List String)
    (limits : BatchLimits) (log : CallLog) (r : Request) (f : Failure),
    FailedCall e texts r f log (callsFor e texts log (planBatches texts limits).batches) →
      f.isTokenLimit = false → (embedBatch e texts limits log).1 = .error f := by
  intro hreports
  have hplan : planBatches ["aaaa", "bbbb"] ⟨15000, 100, 0⟩ = ⟨[[0, 1]], []⟩ := by decide +kernel
  have hcalls : callsFor vectorless ["aaaa", "bbbb"] [] [[0, 1]] =
      [.group [0, 1], .alone 0, .alone 1] := by decide +kernel
  have hanswer := hreports vectorless ["aaaa", "bbbb"] ⟨15000, 100, 0⟩ [] (.alone 0)
    (.plain "embedding service returned no vector")
    (by rw [hplan, hcalls]; exact .inr (.inl ⟨rfl, rfl⟩)) (by decide +kernel)
  have hok : ∃ b, (embedBatch vectorless ["aaaa", "bbbb"] ⟨15000, 100, 0⟩ []).1 = .ok b := by
    rw [embedBatch, hplan]
    exact ⟨_, rfl⟩
  obtain ⟨b, hb⟩ := hok
  rw [hb] at hanswer
  cases hanswer

end CodeRetrieval
