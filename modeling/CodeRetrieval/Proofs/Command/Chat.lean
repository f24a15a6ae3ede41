import CodeRetrieval.Command.Chat
import CodeRetrieval.Proofs.Session

set_option autoImplicit false

namespace CodeRetrieval

inductive ChatEvent where
  | cleared
  | answered (question : String) (answer : Answer)
  | failed (question : String) (failure : Failure)

def ChatEvent.step? : ChatEvent → Option SessionStep
  | cleared => some .clear
  | answered question answer => some (.record ⟨question, answer.text⟩)
  | failed .. => none

section Conversation

variable {S : Type} [Store S] {r : Retriever S} {o : QueryOptions}

/-- Each line is taken up with the session that the lines before it have left. A question is put to
the index as it is, and to the generator after the session; what it leaves depends on whether the
query succeeds. -/
inductive Conversation (r : Retriever S) (o : QueryOptions) :
    Session → Trace → List String → List ChatEvent → Session → Prop where
  | ended (s : Session) (t : Trace) : Conversation r o s t [] [] s
  | left {line : String} (s : Session) (t : Trace) (rest : List String)
      (hline : ChatLine.of line = .leave) : Conversation r o s t (line :: rest) [] s
  | blank {s s' : Session} {t : Trace} {line : String} {rest : List String}
      {events : List ChatEvent} (hline : ChatLine.of line = .blank)
      (hrest : Conversation r o s t rest events s') :
      Conversation r o s t (line :: rest) events s'
  | cleared {s s' : Session} {t : Trace} {line : String} {rest : List String}
      {events : List ChatEvent} (hline : ChatLine.of line = .clear)
      (hrest : Conversation r o s.clear t rest events s') :
      Conversation r o s t (line :: rest) (.cleared :: events) s'
  | answered {s s' : Session} {t t' : Trace} {line question : String} {rest : List String}
      {events : List ChatEvent} {answer : Answer} (hline : ChatLine.of line = .question question)
      (hquery : (r.query question { o with generationQuestion := some (s.enhance question) }).result
        { t with statuses := [] } = (.ok answer, t'))
      (hrest : Conversation r o (s.record question answer.text) t' rest events s') :
      Conversation r o s t (line :: rest) (.answered question answer :: events) s'
  | failed {s s' : Session} {t t' : Trace} {line question : String} {rest : List String}
      {events : List ChatEvent} {failure : Failure} (hline : ChatLine.of line = .question question)
      (hquery : (r.query question { o with generationQuestion := some (s.enhance question) }).result
        { t with statuses := [] } = (.error failure, t'))
      (hrest : Conversation r o s t' rest events s') :
      Conversation r o s t (line :: rest) (.failed question failure :: events) s'

theorem Conversation.session_eq {s s' : Session} {t : Trace} {lines : List String}
    {events : List ChatEvent} (h : Conversation r o s t lines events s') :
    s' = s.after (events.filterMap ChatEvent.step?) := by
  induction h with
  | ended => rfl
  | left => rfl
  | blank _ _ ih => exact ih
  | cleared _ _ ih => exact ih
  | answered _ _ _ ih => exact ih
  | failed _ _ _ ih => exact ih

theorem answer_of_ok (mode : ProgressMode) {c : Chat} {question : String} {answer : Answer}
    {t' : Trace}
    (h : (Chat.ask r o c.session question).result { c.trace with statuses := [] } =
      (.ok answer, t')) :
    (c.answer r o mode question).session = c.session.record question answer.text ∧
      (c.answer r o mode question).trace = t' := by
  simp [Chat.answer, h]

theorem answer_of_error (mode : ProgressMode) {c : Chat} {question : String} {failure : Failure}
    {t' : Trace}
    (h : (Chat.ask r o c.session question).result { c.trace with statuses := [] } =
      (.error failure, t')) :
    (c.answer r o mode question).session = c.session ∧
      (c.answer r o mode question).trace = t' := by
  simp [Chat.answer, h]

theorem conversation_run (mode : ProgressMode) (c : Chat) (lines : List String) :
    ∃ events, Conversation r o c.session c.trace lines events (c.run r o mode lines).session := by
  induction lines generalizing c with
  | nil => exact ⟨[], .ended _ _⟩
  | cons line rest ih =>
    rw [Chat.run]
    cases hline : ChatLine.of line with
    | blank =>
      obtain ⟨events, hrest⟩ := ih (c.say "> ")
      exact ⟨events, .blank hline hrest⟩
    | leave => exact ⟨[], .left _ _ _ hline⟩
    | clear =>
      obtain ⟨events, hrest⟩ :=
        ih ({ c.say "> " with session := c.session.clear }.say "(history cleared)\n")
      exact ⟨.cleared :: events, .cleared hline hrest⟩
    | question question =>
      obtain ⟨events, hrest⟩ := ih ((c.say "> ").answer r o mode question)
      rcases hquery : (Chat.ask r o (c.say "> ").session question).result
        { (c.say "> ").trace with statuses := [] } with ⟨failure | answer, t'⟩
      · obtain ⟨hsession, htrace⟩ := answer_of_error mode hquery
        rw [hsession, htrace] at hrest
        exact ⟨_, .failed hline hquery hrest⟩
      · obtain ⟨hsession, htrace⟩ := answer_of_ok mode hquery
        rw [hsession, htrace] at hrest
        exact ⟨_, .answered hline hquery hrest⟩

end Conversation

/-- A session of some room that has been used in any way holds the turns of the last exchanges
since it was cleared. It shows the last two of them before a question, and leaves the question alone
if there are none. In a conversation the exchanges are those of the queries that succeeded. -/
theorem session_history (n : Nat) :
    (∀ steps : List SessionStep,
      let s := (Session.new n).after steps
      let kept := (SessionStep.sinceClear steps).rtake n
      s.turns = kept.flatMap Exchange.turns ∧
      ∀ question,
        (s.enhance question = question ↔ kept = []) ∧
        s.enhance question = if kept.isEmpty then question else
          "Previous conversation:\n" ++ Text.join "\n" ((kept.rtake 2).flatMap Exchange.shown) ++
            "\n\nCurrent question: " ++ question) ∧
    ∀ (S : Type) [Store S] (r : Retriever S) (o : QueryOptions) (mode : ProgressMode)
      (lines : List String),
      ∃ events, Conversation r o (.new n) .empty lines events
          ((Chat.new n).run r o mode lines).session ∧
        ((Chat.new n).run r o mode lines).session.turns =
          ((SessionStep.sinceClear (events.filterMap ChatEvent.step?)).rtake n).flatMap
            Exchange.turns := by
  have hturns : ∀ steps : List SessionStep, ((Session.new n).after steps).turns =
      ((SessionStep.sinceClear steps).rtake n).flatMap Exchange.turns := by
    intro steps
    obtain ⟨hmax, hholds⟩ := Session.holds_after n steps
    rw [hholds, hmax]
  refine ⟨fun steps => ⟨hturns steps, fun question => ?_⟩, ?_⟩
  · exact ⟨Session.enhance_eq_iff (hturns steps) question, Session.enhance_eq (hturns steps) question⟩
  · intro S _ r o mode lines
    -- A conversation is a history of steps: those of its lines that were answered or cleared it.
    obtain ⟨events, hevents⟩ := conversation_run (r := r) (o := o) mode (Chat.new n) lines
    refine ⟨events, hevents, ?_⟩
    rw [hevents.session_eq]
    exact hturns _

example : ((Session.new 1).after [.record ⟨"a", "1"⟩, .clear, .record ⟨"b", "2"⟩,
    .record ⟨"c", "3"⟩]).turns = [⟨.user, "c"⟩, ⟨.assistant, "3"⟩] := by decide

end CodeRetrieval
