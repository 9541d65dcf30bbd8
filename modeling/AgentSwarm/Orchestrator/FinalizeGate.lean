import AgentSwarm.Orchestrator.External
import AgentSwarm.Orchestrator.Finalize

/-!
# What a finalize has to pass

A `finalize` should end the loop exactly when no review is required or the review
passes.  The verdict reaches the loop as a mark in a text, and that text also has the
summary of the LLM in it, and the names of the files.

* `GateOpen` — no review is required, or each dispatched type has a file with content.
* `EndsIffOpen` — a `finalize` ends the loop exactly then.
* `Unmarked` — the condition on a `finalize` at an open gate: neither the summary nor the
  name of a listed file has the mark in it, and the tool does not raise.
* `marked_finalizeText_iff` — where the mark of an accepted `finalize` can come from.
* `endsIffOpen_iff` — **main result**: the calls of a run are judged rightly exactly when
  they all meet the condition.
* `blocked_by_summary` — a summary that speaks of the mark.
-/

namespace AgentSwarm
namespace Orchestrator
namespace Finalize

open AgentSwarm.Path (PurePath)

/-! ## The gate -/

/-- No review is required, or the review passes: each dispatched type has a file with
content under the directory of its role. -/
def GateOpen (f : Fields) (dispatched : Dict String String) (m : Moment) : Prop :=
  f.taskManager = false ∨ dispatched = [] ∨ f.artifactsDir m = none ∨
    ∃ dir, f.artifactsDir m = some dir ∧
      ∀ agentType ∈ dispatched.map Prod.snd, HasFile m.review dir agentType

/-- A call of the tool ends the loop, as accepted, exactly when the gate is open. -/
def EndsIffOpen (f : Fields) (s : Loop) (e : Event) (t : Loop) : Prop :=
  ∀ call calls args m, s.place = .calling (call :: calls) → call.name = "finalize" →
    f.loads call.arguments = .value args → e = .finalize m →
      (t.place = .over .finalized ↔ GateOpen f s.dispatched m)

/-! ## The condition -/

/-- The characters of `"[REVIEW_FAILED]"`. -/
def mark : List Char := "[REVIEW_FAILED]".toList

/-- `"[REVIEW_FAILED]" in text`. -/
def Marked (text : String) : Prop := mark <:+: text.toList

instance (text : String) : Decidable (Marked text) := inferInstanceAs (Decidable (_ <:+: _))

/-- No file is listed that has the mark in its name, or in that of a directory on the way
to it. -/
def NamesUnmarked (f : Fields) (m : Moment) : Prop :=
  f.taskManager = true → ∀ files, f.listed m = some files →
    ∀ file ∈ files, ∀ name ∈ file.parts, ¬ Marked name

/-- The condition on a call at an open gate.  Its arguments are an object, and its event is
recorded, if one is to be; neither the summary nor a name of a listed file has the mark in
it. -/
def Unmarked (f : Fields) (s : Loop) (e : Event) : Prop :=
  ∀ call calls args m, s.place = .calling (call :: calls) → call.name = "finalize" →
    f.loads call.arguments = .value args → e = .finalize m → GateOpen f s.dispatched m →
      ∃ fields, args = .obj fields ∧ f.Recorded m fields ∧
        ¬ Marked (f.format (summaryArg fields)) ∧ NamesUnmarked f m

/-! ## The verdict of the tool -/

variable {f : Fields} {dispatched : Dict String String} {m : Moment} {fields : JsonObj}

theorem gateOpen_iff : GateOpen f dispatched m ↔
    ∀ dir, f.reviewed dispatched m = some dir →
      (reviewArtifacts m.review (dispatched.map Prod.snd) dir).passed = true := by
  unfold GateOpen Fields.reviewed
  simp only [passed_reviewArtifacts]
  cases f.taskManager with
  | false => simp
  | true =>
      by_cases hnone : dispatched = []
      · simp [hnone]
      · cases f.artifactsDir m <;> simp [hnone]

theorem toolFinalize_of_open (h : GateOpen f dispatched m) :
    toolFinalize f dispatched m (.obj fields) = f.accept dispatched m fields := by
  rw [gateOpen_iff] at h
  unfold toolFinalize
  cases hdir : f.reviewed dispatched m with
  | none => rfl
  | some dir => exact if_pos (h dir hdir)

theorem toolFinalize_of_closed (h : ¬ GateOpen f dispatched m) :
    ∃ review, toolFinalize f dispatched m (.obj fields) =
      .returns (reviewFailedText review) false := by
  rw [gateOpen_iff] at h
  push Not at h
  obtain ⟨dir, hdir, hfailed⟩ := h
  refine ⟨reviewArtifacts m.review (dispatched.map Prod.snd) dir, ?_⟩
  simp only [toolFinalize, hdir]
  exact if_neg hfailed

/-! ## The mark -/

theorem reviewFailed_iff (result : String) : reviewFailed result = true ↔ Marked result :=
  isPartOf_iff _ _

/-- A failed review is always recognised. -/
theorem marked_reviewFailedText (review : Review) : Marked (reviewFailedText review) := by
  have hmarked : ∀ text : String, Marked ("[REVIEW_FAILED]" ++ text) := fun text =>
    ⟨[], text.toList, String.toList_append.symm⟩
  exact hmarked _

/-- The mark does not reach across a line break. -/
theorem marked_append_line (a b : String) : Marked (a ++ "\n" ++ b) ↔ Marked a ∨ Marked b := by
  have htext : (a ++ "\n" ++ b).toList = a.toList ++ '\n' :: b.toList := by simp
  rw [Marked, htext, Split.infix_append_cons (by decide)]
  rfl

/-- A text without the bracket that the mark begins with. -/
theorem not_marked_of_not_mem {text : String} (h : '[' ∉ text.toList) : ¬ Marked text :=
  fun hmark => h (hmark.subset (by decide))

theorem bracket_not_mem_append {a b : String} (ha : '[' ∉ a.toList) (hb : '[' ∉ b.toList) :
    '[' ∉ (a ++ b).toList := by
  rw [String.toList_append, List.mem_append]
  exact not_or.2 ⟨ha, hb⟩

theorem bracket_not_mem_digits (n : ℕ) : '[' ∉ (toString n).toList := by
  intro h
  have hdigits : (toString n).toList = Nat.toDigits 10 n := Nat.toList_repr
  rw [hdigits] at h
  exact absurd (Nat.isDigit_of_mem_toDigits (by decide) (by decide) h) (by decide)

/-- The mark in the line of a file stands in one of the names on the way to it. -/
theorem marked_line_iff (file : Found) :
    Marked ("  - " ++ Path.joined file.parts) ↔ ∃ name ∈ file.parts, Marked name := by
  have hpath : ("  - " ++ Path.joined file.parts).toList =
      "  -".toList ++ ' ' :: (['/'].intercalate (file.parts.map String.toList)) := by
    simp [Path.joined]
  have hdash : ¬ mark <:+: "  -".toList := by decide
  rw [Marked, hpath, Split.infix_append_cons (by decide), or_iff_right hdash,
    Split.infix_intercalate (by decide) (by decide)]
  simp [Marked]

theorem marked_lines_iff (lines : List String) :
    Marked ("\n".intercalate lines) ↔ ∃ line ∈ lines, Marked line := by
  have hbreak : ("\n" : String).toList = ['\n'] := by decide
  rw [Marked, String.toList_intercalate, hbreak, Split.infix_intercalate (by decide) (by decide)]
  simp [Marked]

/-- The mark in a list of files stands in one of the names. -/
theorem marked_fileList_iff (files : List Found) :
    Marked (fileList files) ↔ ∃ file ∈ files, ∃ name ∈ file.parts, Marked name := by
  have hcount : '[' ∉ ("\n\n已验证产出物（" ++ toString files.length ++ " 个文件）：").toList :=
    bracket_not_mem_append (bracket_not_mem_append (by decide +kernel)
      (bracket_not_mem_digits files.length)) (by decide +kernel)
  refine (marked_append_line _ _).trans ((or_iff_right (not_marked_of_not_mem hcount)).trans ?_)
  rw [marked_lines_iff]
  simp only [List.mem_map, exists_exists_and_eq_and, marked_line_iff]

/-- What begins with a line break is apart from what stands before it. -/
theorem marked_append_of_line {w w' : String} (h : w = "\n" ++ w') (a : String) :
    Marked (a ++ w) ↔ Marked a ∨ Marked w := by
  have hall : (a ++ w).toList = a.toList ++ '\n' :: w'.toList := by simp [h]
  have hlast : w.toList = [] ++ '\n' :: w'.toList := by simp [h]
  rw [Marked, Marked, Marked, hall, hlast, Split.infix_append_cons (by decide),
    Split.infix_append_cons (by decide), or_iff_right (a := mark <:+: []) (by decide)]

theorem line_append {a b : String} (h : ∃ w, a = "\n" ++ w) : ∃ w, a ++ b = "\n" ++ w := by
  obtain ⟨w, rfl⟩ := h
  exact ⟨w ++ b, String.append_assoc⟩

/-- The warning is empty or begins with a line break. -/
theorem artifactWarning_line (f : Fields) (dispatched : Dict String String) (m : Moment) :
    f.artifactWarning dispatched m = "" ∨
      ∃ w, f.artifactWarning dispatched m = "\n" ++ w := by
  unfold Fields.artifactWarning
  split
  · split
    · exact .inr ⟨"\n⚠️ 警告：工作目录中没有产出文件。请确认 Worker 是否已正确执行任务。", by decide +kernel⟩
    · have hopen : ("\n\n已验证产出物（" : String) = "\n" ++ "\n已验证产出物（" := by decide +kernel
      exact .inr (line_append (line_append (line_append (line_append ⟨_, hopen⟩))))
    · split
      · exact .inr ⟨"\n⚠️ 警告：已分派 Agent 但找不到工作目录。产出物可能未正确保存。", by decide +kernel⟩
      · exact .inl rfl
  · exact .inl rfl

/-- The mark in the warning stands in one of the names. -/
theorem marked_artifactWarning_iff (f : Fields) (dispatched : Dict String String) (m : Moment) :
    Marked (f.artifactWarning dispatched m) ↔ ¬ NamesUnmarked f m := by
  unfold Fields.artifactWarning NamesUnmarked
  cases f.taskManager with
  | false => simp [show ¬ Marked "" by decide]
  | true =>
      rw [if_pos rfl]
      split
      · rename_i hfiles
        have hno : ¬ Marked noFilesWarning := not_marked_of_not_mem (by decide +kernel)
        simp [hfiles, hno]
      · rename_i files _ hfiles
        rw [marked_fileList_iff]
        simp [hfiles]
      · rename_i hfiles
        have hno : ¬ Marked (if dispatched ≠ [] then noDirWarning else "") := by
          split
          · exact not_marked_of_not_mem (by decide +kernel)
          · decide
        exact iff_of_false hno (by simp [hfiles])

/-- **The mark of an accepted `finalize`** comes from the summary or from the name of a
listed file. -/
theorem marked_finalizeText_iff (f : Fields) (dispatched : Dict String String) (m : Moment)
    (fields : JsonObj) : Marked (f.finalizeText dispatched m fields) ↔
      Marked (f.format (summaryArg fields)) ∨ ¬ NamesUnmarked f m := by
  have hhead : ¬ Marked "[FINALIZE] 任务已完成。摘要：" := by decide +kernel
  refine (marked_append_line _ _).trans ((or_iff_right hhead).trans ?_)
  rw [← marked_artifactWarning_iff f dispatched m]
  obtain hnone | ⟨w, hw⟩ := artifactWarning_line f dispatched m
  · simp [hnone, show ¬ Marked "" by decide]
  · exact marked_append_of_line hw _

/-! ## One call -/

variable {s t : Loop} {e : Event} {call : ToolCall} {calls : List ToolCall} {args : Json}

theorem next_not_finalized (s : Loop) (calls : List ToolCall) :
    (s.next calls).place ≠ .over .finalized := by
  cases calls with
  | cons call calls =>
      intro h
      cases h
  | nil =>
      rw [Loop.next]
      split
      · intro h
        cases h
      · intro h
        cases h

/-- The loop ends with a result that does not have the mark in it. -/
theorem finalize_place_iff (outcome : ToolOutcome) :
    (s.finalize f.loads call calls args outcome).place = .over .finalized ↔
      ∃ result flag, outcome = .returns result flag ∧ ¬ Marked result := by
  cases outcome with
  | raises => simp [Loop.finalize, Loop.finish]
  | cancelled => simp [Loop.finalize, Loop.finish]
  | returns result flag =>
      rw [Loop.finalize]
      by_cases hmark : reviewFailed result = true
      · rw [if_pos hmark]
        refine iff_of_false (next_not_finalized _ calls) ?_
        rintro ⟨result', flag', heq, hno⟩
        cases heq
        exact hno ((reviewFailed_iff result).1 hmark)
      · rw [if_neg hmark]
        exact iff_of_true rfl ⟨result, flag, rfl, fun h => hmark ((reviewFailed_iff result).2 h)⟩

/-- What the tool returns without the mark: an open gate, and nothing that could be
mistaken for a failed review. -/
theorem toolFinalize_unmarked_iff (f : Fields) (dispatched : Dict String String) (m : Moment)
    (args : Json) :
    (∃ result flag, toolFinalize f dispatched m args = .returns result flag ∧ ¬ Marked result) ↔
      GateOpen f dispatched m ∧ ∃ fields, args = .obj fields ∧ f.Recorded m fields ∧
        ¬ Marked (f.format (summaryArg fields)) ∧ NamesUnmarked f m := by
  by_cases hobj : ∃ fields, args = .obj fields
  · obtain ⟨fields, rfl⟩ := hobj
    by_cases hopen : GateOpen f dispatched m
    · rw [toolFinalize_of_open hopen]
      obtain ⟨hrecorded, haccept⟩ | ⟨hnot, haccept⟩ := accept_cases f dispatched m fields
      · simp [haccept, hopen, hrecorded, marked_finalizeText_iff]
      · have hno : ¬ ∃ result flag,
            f.accept dispatched m fields = .returns result flag ∧ ¬ Marked result := by
          rintro ⟨result, flag, heq, -⟩
          rcases haccept with h | h <;> rw [h] at heq <;> cases heq
        simp only [hno, false_iff]
        rintro ⟨-, fields', heq, hrecorded, -⟩
        cases heq
        exact hnot hrecorded
    · obtain ⟨review, hreturns⟩ := @toolFinalize_of_closed f dispatched m fields hopen
      refine iff_of_false ?_ fun h => hopen h.1
      rintro ⟨result, flag, heq, hno⟩
      rw [hreturns] at heq
      cases heq
      exact hno (marked_reviewFailedText review)
  · have hraises : toolFinalize f dispatched m args = .raises := by
      cases args with
      | obj fields => exact absurd ⟨fields, rfl⟩ hobj
      | _ => rfl
    refine iff_of_false ?_ fun h => hobj (h.2.imp fun fields h => h.1)
    rintro ⟨result, flag, heq, -⟩
    rw [hraises] at heq
    cases heq

/-- **One call.**  It is judged rightly exactly when it meets the condition. -/
theorem endsIffOpen_step (h : step f s e = some t) : EndsIffOpen f s e t ↔ Unmarked f s e := by
  have hend : ∀ call calls args m, s.place = .calling (call :: calls) → call.name = "finalize" →
      f.loads call.arguments = .value args → e = .finalize m →
        (t.place = .over .finalized ↔ GateOpen f s.dispatched m ∧
          ∃ fields, args = .obj fields ∧ f.Recorded m fields ∧
            ¬ Marked (f.format (summaryArg fields)) ∧ NamesUnmarked f m) := by
    rintro call calls args m hplace hname hload rfl
    simp only [step, hplace, hload, if_pos hname, Option.some.injEq] at h
    rw [← h, finalize_place_iff, toolFinalize_unmarked_iff]
  constructor
  · intro hends call calls args m hplace hname hload he hopen
    have hover := (hends call calls args m hplace hname hload he).2 hopen
    exact ((hend call calls args m hplace hname hload he).1 hover).2
  · intro hunmarked call calls args m hplace hname hload he
    rw [hend call calls args m hplace hname hload he]
    exact and_iff_left_of_imp (hunmarked call calls args m hplace hname hload he)

/-- **The gate.**  In a run, each `finalize` ends the loop exactly when no review is
required or the review passes, if and only if each one at an open gate meets the
condition. -/
theorem endsIffOpen_iff (f : Fields) (systemPrompt : String) (session : Option History)
    (userMessage : String) (events : List Event) :
    Run.Obeys (step f) (EndsIffOpen f) (Loop.start systemPrompt session userMessage) events ↔
      Run.Along (step f) (Unmarked f) (Loop.start systemPrompt session userMessage) events := by
  refine Run.obeys_iff_along (B := fun _ => True) (fun _ _ _ _ _ => trivial)
    (fun s e t _ => endsIffOpen_step) ?_ trivial
  rintro s e - hstuck call calls args m hplace hname hload rfl -
  simp [step, hplace, hload, hname] at hstuck

/-! ## A summary that speaks of the mark -/

/-- An orchestrator without a session, at work in the directory of a task. -/
def oneRun : Fields where
  taskManager := true
  currentSessionWorkDir := none
  recordsEvents := false
  loads := fun _ => .value (.obj [("summary", .str "修复了 [REVIEW_FAILED] 的提示")])
  repr := fun _ => ""

/-- The backend has left a file with content. -/
def backendFiles : Look := fun p =>
  if p = .ofString "/work/backend" then some [⟨["app.py"], true, 120⟩]
  else if p = .ofString "/work" then
    some [⟨["backend"], false, 0⟩, ⟨["backend", "app.py"], true, 120⟩]
  else none

def reviewPasses : Moment where
  taskDir := some (.ofString "/work")
  review := backendFiles
  listing := backendFiles
  appended := .returns

/-- The backend is dispatched, and the task is finalized. -/
def dispatchAndFinalize : List Event :=
  [.completion (.reply none [⟨"c1", "dispatch_agent", "{}"⟩]),
    .tool (.returns "任务状态: completed" [("d1", "backend-engineer")]),
    .completion (.reply none [⟨"c2", "finalize", "{}"⟩]),
    .finalize reviewPasses]

/-- The review passes, and the loop goes on: the summary has the mark in it. -/
theorem blocked_by_summary :
    ¬ Run.Obeys (step oneRun) (EndsIffOpen oneRun) (Loop.start "" none "修复提示")
      dispatchAndFinalize := by
  intro h
  have hopen : GateOpen oneRun [("d1", "backend-engineer")] reviewPasses := by
    refine .inr (.inr (.inr ⟨.ofString "/work", rfl, ?_⟩))
    intro agentType hmem
    obtain rfl : agentType = "backend-engineer" := by simpa using hmem
    exact ⟨[⟨["app.py"], true, 120⟩], by decide +kernel, by simp⟩
  have hends := h (dispatchAndFinalize.take 3) (.finalize reviewPasses) [] rfl _ _ rfl rfl
    ⟨"c2", "finalize", "{}"⟩ [] _ reviewPasses rfl rfl rfl rfl
  exact absurd (hends.2 hopen) (by decide +kernel)

end Finalize
end Orchestrator
end AgentSwarm
