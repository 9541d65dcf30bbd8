import Mathlib.Logic.Function.Iterate
import AgentSwarm.Adapters.AdapterManager
import AgentSwarm.Orchestrator.ExternalExecute

/-!
# Resuming a session

At the beginning of a turn, `Orchestrator.execute` adds the plan and the last result that
the session service has stored to the shared context of the session, unless they are in it.
A long result is looked for as a whole, and added cut.

* `resume` — the step.
* `Idempotent` — doing it again changes nothing, at any later turn.
* `Found` — the condition: the result is short, or is found in the context already, or in
  what the context makes with the part of the result that is added.
* `idempotent_iff` — **main result**: resuming is idempotent exactly then.
* `not_overlaps_of_line` — a long result of one line does not overlap the context.
* `long_result_grows` — a result of 501 characters is added again at every turn.
-/

namespace AgentSwarm
namespace Resume

open Adapters (truthy)
open ExternalOrchestrator (cut)
open Orchestrator (isPartOf isPartOf_iff)

/-! ## The step -/

/-- `part in text`. -/
def contains (text part : String) : Bool := isPartOf part.toList text.toList

def planHeading : String := "## 上轮计划回顾\n"

def resultHeading : String := "\n\n## 上轮结果\n"

/-- `plan.get("api_contract") or plan.get("analysis") or ""`, if the plan is an object. -/
def planSummary (state : JsonObj) : Json :=
  match state.get "plan" with
  | some (.obj plan) =>
      let contract := (Dict.get plan "api_contract").getD .null
      let analysis := (Dict.get plan "analysis").getD .null
      if truthy contract then contract else if truthy analysis then analysis else .str ""
  | _ => .str ""

/-- The plan is put before the context.  A value that is not a text cannot be looked for in
one: a `TypeError`. -/
def withPlan (context : String) : Json → Except Unit String
  | .str summary =>
      if summary ≠ "" ∧ contains context summary = false then
        .ok (planHeading ++ summary ++ "\n\n" ++ context)
      else .ok context
  | value => if truthy value then .error () else .ok context

/-- The result is put after it, cut; what is not a text is left out, with a `TypeError` or
without. -/
def withResult (context : String) : Json → String
  | .str result =>
      if result ≠ "" ∧ contains context result = false then
        context ++ (resultHeading ++ cut 500 result)
      else context
  | _ => context

/-- The shared context of a turn, from that of the session and the stored state.  An
exception is caught, and ends the step. -/
def resume (state : JsonObj) (context : String) : String :=
  match withPlan context (planSummary state) with
  | .ok context => withResult context ((state.get "last_result").getD .null)
  | .error () => context

/-! ## The property and the condition -/

/-- The next turn, and every later one, leaves the context as it is. -/
structure Idempotent (state : JsonObj) (context : String) : Prop where
  again : resume state (resume state context) = resume state context
  turns : ∀ n, (resume state)^[n + 1] context = resume state context

/-- The result is an end of the context continued by the heading and the part of the result
that is added, up to some character. -/
def Overlaps (context result : String) : Prop :=
  ∃ n, result.toList <:+ context.toList ++ (resultHeading ++ cut 500 result).toList.take n

/-- The last result has at most 500 characters, or it is in the context with the plan, or
overlaps the end of it. -/
def Found (state : JsonObj) (context : String) : Prop :=
  ∀ context' result, withPlan context (planSummary state) = .ok context' →
    state.get "last_result" = some (.str result) →
      result.length ≤ 500 ∨ contains context' result = true ∨ Overlaps context' result

/-! ## Parts of texts -/

theorem contains_iff (text part : String) :
    contains text part = true ↔ part.toList <:+: text.toList :=
  isPartOf_iff _ _

/-! ## The plan -/

variable {state : JsonObj} {context context' : String}

theorem contains_append_right (text part more : String) (h : contains text part = true) :
    contains (text ++ more) part = true := by
  rw [contains_iff] at h ⊢
  rw [String.toList_append]
  exact h.trans (List.prefix_append _ _).isInfix

/-- Once the plan is in the context, it is not added again. -/
theorem withPlan_again {value : Json} (h : withPlan context value = .ok context')
    (more : String) : withPlan (context' ++ more) value = .ok (context' ++ more) := by
  by_cases htext : ∃ summary, value = .str summary
  · obtain ⟨summary, rfl⟩ := htext
    have hin : summary = "" ∨ contains context' summary = true := by
      rw [withPlan] at h
      split at h
      · cases h
        right
        rw [contains_iff, String.toList_append, String.toList_append, String.toList_append]
        refine List.IsInfix.trans ?_ (List.prefix_append _ _).isInfix
        exact (List.suffix_append planHeading.toList summary.toList).isInfix.trans
          (List.prefix_append _ _).isInfix
      · rename_i hnot
        cases h
        by_cases hempty : summary = ""
        · exact .inl hempty
        · exact .inr (by simpa [hempty] using hnot)
    refine if_neg ?_
    rintro ⟨hne, hout⟩
    rw [contains_append_right _ _ more (hin.resolve_left hne)] at hout
    cases hout
  · have hother : ∀ text, withPlan text value =
        if truthy value then .error () else .ok text := by
      intro text
      cases value with
      | str summary => exact absurd ⟨summary, rfl⟩ htext
      | _ => rfl
    rw [hother] at h ⊢
    split at h
    · cases h
    · exact if_neg ‹_›

/-! ## The result -/

/-- The result is added at the end, or not at all. -/
theorem withResult_eq_append (context : String) (value : Json) :
    ∃ more, withResult context value = context ++ more := by
  have hnone : ∃ more, context = context ++ more := ⟨"", String.append_empty.symm⟩
  cases value with
  | str result =>
      rw [withResult]
      split
      · exact ⟨_, rfl⟩
      · exact hnone
  | _ => exact hnone

/-- The step, once more after itself, only looks for the result again. -/
theorem resume_resume (h : withPlan context (planSummary state) = .ok context') :
    resume state (resume state context) =
      withResult (withResult context' ((state.get "last_result").getD .null))
        ((state.get "last_result").getD .null) := by
  have hresume : resume state context =
      withResult context' ((state.get "last_result").getD .null) := by rw [resume, h]
  obtain ⟨more, hmore⟩ := withResult_eq_append context' ((state.get "last_result").getD .null)
  rw [hresume, hmore, resume, withPlan_again h more]

/-- What is added is not empty. -/
theorem append_heading_ne (text result : String) :
    text ++ (resultHeading ++ cut 500 result) ≠ text := by
  intro h
  have hlen := congrArg (fun s => s.toList.length) h
  have hheading : 0 < resultHeading.toList.length := by decide +kernel
  simp only [String.toList_append, List.length_append] at hlen
  omega

/-- A result that is in the context is not added again, and only that. -/
theorem withResult_eq_self_iff (context result : String) :
    withResult context (.str result) = context ↔ result = "" ∨ contains context result = true := by
  rw [withResult]
  split
  · rename_i hadd
    refine iff_of_false (append_heading_ne context result) ?_
    rintro (h | h)
    · exact hadd.1 h
    · rw [hadd.2] at h
      cases h
  · rename_i hnot
    refine iff_of_true rfl ?_
    by_cases hempty : result = ""
    · exact .inl hempty
    · exact .inr (by simpa [hempty] using hnot)

/-- A short result is found once it has been added. -/
theorem contains_added {result : String} (h : result.length ≤ 500) (context : String) :
    contains (context ++ (resultHeading ++ cut 500 result)) result = true := by
  have hcut : cut 500 result = result := by
    rw [cut, List.take_of_length_le h, String.ofList_toList]
  rw [contains_iff, hcut, String.toList_append, String.toList_append, ← List.append_assoc]
  exact (List.suffix_append _ _).isInfix

/-- A result that has been added is not added again if it is short or overlaps what is
before it. -/
theorem contains_added_iff {result : String} (hout : contains context' result = false) :
    contains (context' ++ (resultHeading ++ cut 500 result)) result = true ↔
      result.length ≤ 500 ∨ contains context' result = true ∨ Overlaps context' result := by
  constructor
  · intro h
    rw [contains_iff, String.toList_append, Split.infix_append_iff_take] at h
    rcases h with h | h
    · exact .inr (.inl ((contains_iff _ _).2 h))
    · exact .inr (.inr h)
  · rintro (h | h | h)
    · exact contains_added h context'
    · rw [hout] at h
      cases h
    · rw [contains_iff, String.toList_append, Split.infix_append_iff_take]
      exact .inr h

/-- The result of a text, added once more: only a long one that does not overlap what is
before it is in the context twice. -/
theorem withResult_again_iff (context' result : String) :
    withResult (withResult context' (.str result)) (.str result) =
        withResult context' (.str result) ↔
      result.length ≤ 500 ∨ contains context' result = true ∨ Overlaps context' result := by
  rw [withResult_eq_self_iff]
  by_cases hempty : result = ""
  · subst hempty
    exact iff_of_true (.inl rfl) (.inl (by decide))
  · rw [or_iff_right hempty]
    cases hout : contains context' result with
    | true =>
        have hsame := (withResult_eq_self_iff context' result).2 (.inr hout)
        rw [hsame, hout]
        simp
    | false =>
        rw [withResult, if_pos ⟨hempty, hout⟩, contains_added_iff hout, hout]

/-- A value that is not a text is not added. -/
theorem withResult_of_not_text (context : String) {value : Json}
    (h : ∀ result, value ≠ .str result) : withResult context value = context := by
  cases value with
  | str result => exact absurd rfl (h result)
  | _ => rfl

theorem found_iff {result : String} (hplan : withPlan context (planSummary state) = .ok context')
    (hresult : state.get "last_result" = some (.str result)) : Found state context ↔
      result.length ≤ 500 ∨ contains context' result = true ∨ Overlaps context' result := by
  constructor
  · exact fun h => h context' result hplan hresult
  · intro h c r hc hr
    cases hplan.symm.trans hc
    cases hresult.symm.trans hr
    exact h

/-- The second step changes nothing exactly when the result is found. -/
theorem again_iff_found : resume state (resume state context) = resume state context ↔
    Found state context := by
  cases hplan : withPlan context (planSummary state) with
  | error e =>
      have hresume : resume state context = context := by rw [resume, hplan]
      refine iff_of_true (by rw [hresume, hresume]) ?_
      intro context' result h
      cases hplan.symm.trans h
  | ok context' =>
      rw [resume_resume hplan]
      have hresume : resume state context =
          withResult context' ((state.get "last_result").getD .null) := by rw [resume, hplan]
      rw [hresume]
      by_cases htext : ∃ result, state.get "last_result" = some (.str result)
      · obtain ⟨result, hresult⟩ := htext
        rw [found_iff hplan hresult, hresult, Option.getD_some]
        exact withResult_again_iff context' result
      · have hnot : ∀ result, (state.get "last_result").getD .null ≠ .str result := by
          intro result heq
          cases hget : state.get "last_result" with
          | none =>
              rw [hget] at heq
              cases heq
          | some value =>
              rw [hget, Option.getD_some] at heq
              exact htext ⟨result, hget.trans (congrArg some heq)⟩
        refine iff_of_true ?_ fun c r _ hr => absurd ⟨r, hr⟩ htext
        rw [withResult_of_not_text _ hnot, withResult_of_not_text _ hnot]

/-- **Resuming is idempotent**, and the context of no later turn grows, exactly when the last
result is short or found. -/
theorem idempotent_iff (state : JsonObj) (context : String) :
    Idempotent state context ↔ Found state context := by
  rw [← again_iff_found]
  constructor
  · exact Idempotent.again
  · intro h
    refine ⟨h, fun n => ?_⟩
    rw [Function.iterate_succ_apply]
    exact Function.iterate_fixed h n

/-! ## Long results -/

/-- A long result of one line that is not in the context does not overlap its end either: it
would have to reach across the line breaks of the heading. -/
theorem not_overlaps_of_line {result : String} (hline : '\n' ∉ result.toList)
    (hlong : 500 < result.length) (hout : contains context result = false) :
    ¬ Overlaps context result := by
  intro h
  have hheading : resultHeading.toList = [] ++ '\n' :: ([] ++ '\n' ::
      ("## 上轮结果".toList ++ '\n' :: [])) := by decide +kernel
  have hinfix : result.toList <:+: context.toList ++ (resultHeading ++ cut 500 result).toList :=
    Split.infix_append_iff_take.2 (.inr h)
  have hshort : ∀ text : List Char, text.length ≤ 500 → ¬ result.toList <:+: text := by
    intro text hlen hin
    have hle := hin.length_le
    rw [String.length_toList] at hle
    omega
  have hcut : (cut 500 result).toList.length ≤ 500 := by
    rw [cut, String.toList_ofList]
    exact List.length_take_le 500 _
  rw [String.toList_append, hheading] at hinfix
  simp only [List.append_assoc, List.cons_append, List.nil_append] at hinfix
  rw [Split.infix_append_cons hline] at hinfix
  rcases hinfix with hin | hin
  · rw [(contains_iff _ _).2 hin] at hout
    cases hout
  · rw [← List.nil_append ('\n' :: _), Split.infix_append_cons hline,
      Split.infix_append_cons hline] at hin
    rcases hin with hin | hin | hin
    · exact hshort [] (by decide) hin
    · exact hshort _ (by decide +kernel) hin
    · exact hshort _ hcut hin

/-- A long result of one line is added again. -/
theorem not_idempotent_of_line {result : String}
    (hplan : withPlan context (planSummary state) = .ok context')
    (hresult : state.get "last_result" = some (.str result)) (hline : '\n' ∉ result.toList)
    (hlong : 500 < result.length) (hout : contains context' result = false) :
    ¬ Idempotent state context := by
  intro h
  rcases again_iff_found.1 h.again context' result hplan hresult with hshort | hin | hover
  · exact absurd hshort (not_le.2 hlong)
  · rw [hout] at hin
    cases hin
  · exact not_overlaps_of_line hline hlong hout hover

/-- A reply of 501 characters. -/
def longReply : String := String.ofList (List.replicate 501 'a')

/-- The state that an external orchestration with this reply has stored. -/
def longState : JsonObj := [("last_result", .str (cut 2000 longReply))]

/-- The context of the next turn has the beginning of the reply in it once more. -/
theorem long_result_grows : ¬ Idempotent longState "" := by
  have hlist : longReply.toList = List.replicate 501 'a' := String.toList_ofList
  have hcut : cut 2000 longReply = longReply := by
    rw [cut, List.take_of_length_le (by rw [hlist, List.length_replicate]; decide),
      String.ofList_toList]
  refine @not_idempotent_of_line longState "" "" longReply ?_ ?_ ?_ ?_ ?_
  · simp [withPlan, planSummary, longState, Dict.get_cons]
  · rw [longState, hcut]
    rfl
  · rw [hlist, List.mem_replicate]
    exact fun h => absurd h.2 (by decide)
  · rw [← String.length_toList, hlist, List.length_replicate]
    decide
  · rw [contains, hlist]
    rfl

end Resume
end AgentSwarm
