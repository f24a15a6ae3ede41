import CodeRetrieval.Proofs.Text.Search
import CodeRetrieval.Service.Network

set_option autoImplicit false

namespace CodeRetrieval

namespace Http

/-- A failure of a request, with those parts of its text that come from elsewhere. -/
inductive Fault (n : Network) (e : Endpoint) (body : Json) (call : Nat) :
    Failure → List String → Prop where
  | refused {r : HttpRequest} {i status : Nat} {text : String} (hrequest : request e body = .ok r)
      (hreply : n.reply call i r = .answered status text) (hstatus : isSuccess status = false) :
      Fault n e body call (apiError e status text) [text]
  | unreadable {r : HttpRequest} {i status : Nat} {text : String}
      (hrequest : request e body = .ok r) (hreply : n.reply call i r = .answered status text)
      (hstatus : isSuccess status = true) (htext : Json.parse? text = none) :
      Fault n e body call (.plain "error decoding response body") []
  | lost {r : HttpRequest} {i : Nat} (hrequest : request e body = .ok r)
      (hreply : n.reply call i r = .lost) :
      Fault n e body call
        (connectionError e ("error sending request for url (" ++ r.address.text ++ ")"))
        [e.url, r.address.text]
  | unsent {why : String} (hrequest : request e body = .error why) :
      Fault n e body call (connectionError e why) [e.url, why]

def Attempt.failure? : Attempt → Option Failure
  | success _ => none
  | passing f => some f
  | final f => some f

section Faults

variable {n : Network} {e : Endpoint} {body : Json} {call : Nat} {f : Failure}

theorem fault_of_attempt {i : Nat} (h : (attempt n e body call i).failure? = some f) :
    ∃ foreign, Fault n e body call f foreign := by
  unfold attempt at h
  cases hrequest : request e body with
  | error why =>
    rw [hrequest] at h
    cases h
    exact ⟨_, .unsent hrequest⟩
  | ok r =>
    simp only [hrequest] at h
    cases hreply : n.reply call i r with
    | lost =>
      rw [hreply] at h
      cases h
      exact ⟨_, .lost hrequest hreply⟩
    | answered status text =>
      simp only [hreply] at h
      by_cases hstatus : isSuccess status = true
      · rw [if_pos hstatus] at h
        cases htext : Json.parse? text with
        | some answer =>
          rw [htext] at h
          cases h
        | none =>
          rw [htext] at h
          cases h
          exact ⟨_, .unreadable hrequest hreply hstatus htext⟩
      · -- Worth another attempt or not, a refusal reads the same.
        obtain rfl : apiError e status text = f := by
          rw [if_neg hstatus] at h
          split at h
          · exact Option.some.inj h
          · exact Option.some.inj h
        exact ⟨_, .refused hrequest hreply (by simpa using hstatus)⟩

theorem post_refused {r : HttpRequest} {status : Nat} {text : String}
    (hrequest : request e body = .ok r)
    (hreply : ∀ i, n.reply call i r = .answered status text) (hstatus : isSuccess status = false)
    (retries : Nat) : post n e retries call body = .error (apiError e status text) := by
  have hattempt (i : Nat) : attempt n e body call i =
      if isPassing status then .passing (apiError e status text)
      else .final (apiError e status text) := by
    simp only [attempt, hrequest, hreply, hstatus, Bool.false_eq_true, if_false]
  have hattempts (more i : Nat) :
      (attempts n e body call more i).answer = .error (apiError e status text) := by
    induction more generalizing i with
    | zero =>
      rw [attempts, hattempt]
      cases isPassing status <;> rfl
    | succ more ih =>
      rw [attempts, hattempt]
      cases isPassing status with
      | false => rfl
      | true => exact ih (i + 1)
  exact hattempts retries 0

theorem exists_attempt {more i : Nat} (h : (attempts n e body call more i).answer = .error f) :
    ∃ j, (attempt n e body call j).failure? = some f := by
  induction more generalizing i with
  | zero =>
    refine ⟨i, ?_⟩
    unfold attempts at h
    cases hattempt : attempt n e body call i <;> simp_all [Attempt.failure?]
  | succ more ih =>
    unfold attempts at h
    cases hattempt : attempt n e body call i with
    | success answer =>
      rw [hattempt] at h
      cases h
    | passing g =>
      rw [hattempt] at h
      exact ih h
    | final g =>
      rw [hattempt] at h
      cases h
      exact ⟨i, by rw [hattempt, Attempt.failure?]⟩

theorem fault_of_post {retries : Nat} (h : post n e retries call body = .error f) :
    ∃ foreign, Fault n e body call f foreign := by
  obtain ⟨i, hattempt⟩ := exists_attempt h
  exact fault_of_attempt hattempt

end Faults

section Words

theorem contains_phrase (status : Nat) :
    Text.contains ((phrase? status).getD "<unknown status code>") "disabled" = false := by
  unfold phrase?
  split <;> decide

theorem contains_statusText (status : Nat) :
    Text.contains (statusText status) "disabled" = false := by
  have hnumber : Text.contains (toString status) "disabled" = false := by
    rw [← Bool.not_eq_true, Text.contains_iff]
    intro h
    have hdigit : ('d').isDigit = true := by
      refine Nat.isDigit_of_mem_toDigits (b := 10) (n := status) (by decide) (by decide) ?_
      simpa [toString] using h.subset (a := 'd') (by decide)
    cases hdigit
  rw [statusText, Text.contains_divided (by decide), hnumber, contains_phrase, Bool.false_or]

variable {n : Network} {e : Endpoint} {body : Json} {call : Nat} {f : Failure}
  {foreign : List String}

theorem contains_apiError (hname : Text.contains e.service "disabled" = false) (status : Nat)
    (text : String) : Text.contains (apiError e status text).message "disabled" =
      Text.contains text "disabled" := by
  have hmessage : (apiError e status text).message =
      e.service ++ " API error " ++ statusText status ++ ": " ++ text := rfl
  rw [hmessage, Text.contains_divided (m := ": ") (by decide),
    Text.contains_divided (m := " API error ") (by decide), hname, contains_statusText,
    Bool.false_or, Bool.false_or]

theorem contains_connectionError (hname : Text.contains e.service "disabled" = false)
    (why : String) : Text.contains (connectionError e why).message "disabled" =
      (Text.contains e.url "disabled" || Text.contains why "disabled") := by
  have hmessage : (connectionError e why).message =
      e.service ++ " connection error (" ++ e.url ++ "): " ++ why := rfl
  rw [hmessage, Text.contains_divided (m := "): ") (by decide),
    Text.contains_divided (m := " connection error (") (by decide), hname, Bool.false_or]

theorem contains_sendingError (url : String) :
    Text.contains ("error sending request for url (" ++ url ++ ")") "disabled" =
      Text.contains url "disabled" := by
  have hends := Text.contains_divided (w := "disabled") (m := ")") (by decide)
    ("error sending request for url (" ++ url) ""
  have hbegins := Text.contains_divided (w := "disabled") (m := " (") (by decide)
    "error sending request for url" url
  have hempty : Text.contains "" "disabled" = false := by decide
  have hfixed : Text.contains "error sending request for url" "disabled" = false := by decide
  rw [String.append_empty, hempty, Bool.or_false] at hends
  rw [hfixed, Bool.false_or] at hbegins
  exact hends.trans hbegins

/-- No word of the program's own reads like a service that is switched off. -/
theorem Fault.contains_message (h : Fault n e body call f foreign)
    (hname : Text.contains e.service "disabled" = false) :
    Text.contains f.message "disabled" = foreign.any (Text.contains · "disabled") := by
  cases h with
  | refused hrequest hreply hstatus => simp [contains_apiError hname]
  | unreadable hrequest hreply hstatus htext => decide
  | lost hrequest hreply => simp [contains_connectionError hname, contains_sendingError]
  | unsent hrequest => simp [contains_connectionError hname]

end Words

end Http

end CodeRetrieval
