import Mathlib.Data.List.DropRight

/-!
# Sliding windows

A program that keeps the last `n` entries of a growing list cuts its list back
after every entry.  What it has is then a function of the whole list.

* `slide` — one more entry, and the cut.
* `slide_rtake` — the cut list is the end of the whole one, at each step.
* `map_rtake` — the end of a list with its entries changed.
-/

namespace AgentSwarm
namespace Window

universe u

variable {α : Type u}

/-- The last `n` entries once `a` has been added. -/
def slide (n : ℕ) (w : List α) (a : α) : List α := (w ++ [a]).rtake n

/-- What is cut off at one step is not missed at the next. -/
theorem slide_rtake (n : ℕ) (l : List α) (a : α) : slide n (l.rtake n) a = (l ++ [a]).rtake n := by
  cases n with
  | zero => simp [slide]
  | succ n =>
      have htwice : (l.rtake (n + 1)).rtake n = l.rtake n := by
        simp only [List.rtake, List.drop_drop, List.length_drop]
        congr 1
        omega
      rw [slide, List.rtake_concat_succ, List.rtake_concat_succ, htwice]

theorem map_rtake {β : Type*} (f : α → β) (n : ℕ) (l : List α) :
    (l.rtake n).map f = (l.map f).rtake n := by
  rw [List.rtake, List.rtake, List.map_drop, List.length_map]

end Window
end AgentSwarm
