import Mathlib.Data.List.Infix

/-!
# Splitting a text at a separator

`text.split(sep)` of Python: the text is searched from the left, a separator
that is found is skipped, and the pieces between the separators are returned.

* `split` — the pieces.
* `lastPiece` — `text.split(sep)[-1]`.
* `lastPiece_of_not_infix` — a text without the separator is its own last piece.
* `lastPiece_append` — what stands before a separator does not matter for the
  last piece, if no two occurrences of the separator can overlap.
* `not_infix_lastPiece` — the last piece has no separator in it.
* `infix_append_iff_take` — where a part of two texts put together may stand.
* `infix_append_cons`, `infix_intercalate` — a text without some character does not
  reach across it.
-/

namespace AgentSwarm
namespace Split

universe u

variable {α : Type u} [DecidableEq α] (sep : List α)

/-- The pieces of a text, of which `skip` characters belong to the separator that
was found last.  `piece` are the characters since then. -/
def splitFrom : ℕ → List α → List α → List (List α)
  | _, piece, [] => [piece]
  | 0, piece, c :: cs =>
      if sep.isPrefixOf (c :: cs) then piece :: splitFrom (sep.length - 1) [] cs
      else splitFrom 0 (piece ++ [c]) cs
  | skip + 1, piece, _ :: cs => splitFrom skip piece cs

/-- `text.split(sep)`, for a separator that is not empty. -/
def split (text : List α) : List (List α) := splitFrom sep 0 [] text

/-- `text.split(sep)[-1]`. -/
def lastPiece (text : List α) : List α := ((split sep text).getLast?).getD []

/-- No end of the separator is a beginning of it: two occurrences never
overlap. -/
def BorderFree : Prop :=
  ∀ k < sep.length, 0 < k → ¬ sep.drop (sep.length - k) <+: sep

instance : Decidable (BorderFree sep) := inferInstanceAs (Decidable (∀ k < _, _ → _))

variable {sep}

theorem splitFrom_ne_nil (skip : ℕ) (piece text : List α) : splitFrom sep skip piece text ≠ [] := by
  induction text generalizing skip piece with
  | nil => cases skip <;> simp [splitFrom]
  | cons c cs ih =>
      cases skip with
      | zero =>
          rw [splitFrom]
          split
          · simp
          · exact ih 0 _
      | succ skip => exact ih skip piece

/-- A piece before the others is not the last one. -/
theorem getLast_cons_splitFrom (first : List α) (skip : ℕ) (piece text : List α) :
    (first :: splitFrom sep skip piece text).getLast? =
      (splitFrom sep skip piece text).getLast? := by
  have hne : splitFrom sep skip piece text ≠ [] := splitFrom_ne_nil skip piece text
  obtain ⟨q, qs, hq⟩ := List.exists_cons_of_ne_nil hne
  rw [hq, List.getLast?_cons_cons]

/-- The characters of a separator are skipped. -/
theorem splitFrom_append (piece x u : List α) :
    splitFrom sep x.length piece (x ++ u) = splitFrom sep 0 piece u := by
  induction x with
  | nil => rfl
  | cons c x ih => exact ih

theorem splitFrom_of_not_infix {text : List α} (h : ¬ sep <:+: text) (piece : List α) :
    splitFrom sep 0 piece text = [piece ++ text] := by
  induction text generalizing piece with
  | nil => simp [splitFrom]
  | cons c cs ih =>
      have hhere : ¬ sep <+: c :: cs := fun hc => h hc.isInfix
      have hrest : ¬ sep <:+: cs := fun hc => h (hc.trans (List.suffix_cons c cs).isInfix)
      rw [splitFrom, if_neg (by simpa using hhere), ih hrest]
      simp

/-- **A text without the separator is its own last piece.** -/
theorem lastPiece_of_not_infix {text : List α} (h : ¬ sep <:+: text) :
    lastPiece sep text = text := by
  simp [lastPiece, split, splitFrom_of_not_infix h]

/-- The search comes to a separator that stands in the text outside of any it has
found before: what it skips at a place is an end of the separator. -/
theorem getLast_splitFrom_append (hsep : sep ≠ []) (hborder : BorderFree sep) (u a : List α)
    (skip : ℕ) (piece : List α) (hskip : skip < sep.length)
    (hend : skip = 0 ∨ sep.drop (sep.length - skip) <+: a ++ (sep ++ u)) :
    (splitFrom sep skip piece (a ++ (sep ++ u))).getLast? = (splitFrom sep 0 [] u).getLast? := by
  induction a generalizing skip piece with
  | nil =>
      obtain ⟨c, cs, rfl⟩ := List.exists_cons_of_ne_nil hsep
      cases skip with
      | zero =>
          have hhere : (c :: cs).isPrefixOf (c :: (cs ++ u)) = true := by
            rw [List.isPrefixOf_iff_prefix]
            exact List.prefix_append (c :: cs) u
          rw [List.nil_append, List.cons_append, splitFrom, if_pos hhere, getLast_cons_splitFrom]
          exact congrArg List.getLast? (splitFrom_append [] cs u)
      | succ skip =>
          -- an end of the separator would be a beginning of it
          refine absurd ?_ (hborder (skip + 1) hskip (Nat.succ_pos skip))
          have hinitial := hend.resolve_left (Nat.succ_ne_zero skip)
          refine List.prefix_of_prefix_length_le hinitial (List.prefix_append (c :: cs) u) ?_
          simp
  | cons c a ih =>
      cases skip with
      | zero =>
          rw [List.cons_append, splitFrom]
          split
          · rename_i hhere
            rw [List.isPrefixOf_iff_prefix] at hhere
            rw [getLast_cons_splitFrom]
            have hpos : 0 < sep.length := List.length_pos_iff.2 hsep
            refine ih _ _ (by omega) (.inr ?_)
            have hone : sep.length - (sep.length - 1) = 1 := by omega
            rw [hone]
            obtain ⟨x, xs, rfl⟩ := List.exists_cons_of_ne_nil hsep
            exact (List.cons_prefix_cons.1 hhere).2
          · exact ih 0 _ hskip (.inl rfl)
      | succ skip =>
          refine ih skip piece (by omega) (.inr ?_)
          have hinitial := hend.resolve_left (Nat.succ_ne_zero skip)
          have hdrop : sep.drop (sep.length - skip) =
              (sep.drop (sep.length - (skip + 1))).drop 1 := by
            rw [List.drop_drop]
            congr 1
            omega
          rw [hdrop]
          simpa using hinitial.drop 1

/-- **What stands before a separator does not matter.** -/
theorem lastPiece_append (hsep : sep ≠ []) (hborder : BorderFree sep) (a u : List α) :
    lastPiece sep (a ++ (sep ++ u)) = lastPiece sep u := by
  rw [lastPiece, split, getLast_splitFrom_append hsep hborder u a 0 [] (List.length_pos_iff.2 hsep)
    (.inl rfl)]
  rfl

/-! ## The last piece has no separator -/

/-- No separator begins in `piece`, which goes on with `text`; none has been looked for while
the characters of one are skipped. -/
theorem not_infix_getLast_splitFrom (hsep : sep ≠ []) (text : List α) (skip : ℕ) (piece : List α)
    (hskip : skip = 0 ∨ piece = [])
    (hpiece : ∀ a b, piece = a ++ b → b ≠ [] → ¬ sep <+: b ++ text) :
    ∀ last ∈ (splitFrom sep skip piece text).getLast?, ¬ sep <:+: last := by
  induction text generalizing skip piece with
  | nil =>
      have hlast : splitFrom sep skip piece [] = [piece] := by cases skip <;> rfl
      rw [hlast]
      rintro last hmem ⟨a, b, hinfix⟩
      obtain rfl : piece = last := by simpa using hmem
      refine hpiece a (sep ++ b) (by rw [← hinfix, List.append_assoc]) (by simp [hsep]) ?_
      rw [List.append_nil]
      exact List.prefix_append sep b
  | cons c cs ih =>
      cases skip with
      | succ skip =>
          obtain rfl := hskip.resolve_left (Nat.succ_ne_zero skip)
          refine ih skip [] (.inr rfl) ?_
          intro a b hab hb
          exact absurd (List.append_eq_nil_iff.1 hab.symm).2 hb
      | zero =>
          rw [splitFrom]
          split
          · rw [getLast_cons_splitFrom]
            refine ih _ [] (.inr rfl) ?_
            intro a b hab hb
            exact absurd (List.append_eq_nil_iff.1 hab.symm).2 hb
          · rename_i hhere
            rw [List.isPrefixOf_iff_prefix] at hhere
            refine ih 0 (piece ++ [c]) (.inl rfl) ?_
            intro a b hab hb
            obtain ⟨b', x, rfl⟩ : ∃ b' x, b = b' ++ [x] :=
              ⟨b.dropLast, b.getLast hb, (List.dropLast_append_getLast hb).symm⟩
            rw [← List.append_assoc] at hab
            obtain ⟨hpiece', hx⟩ := List.append_inj' hab rfl
            cases hx
            rw [List.append_assoc, List.singleton_append]
            by_cases hnil : b' = []
            · rw [hnil]
              exact hhere
            · exact hpiece a b' hpiece' hnil

/-- **The last piece has no separator.** -/
theorem not_infix_lastPiece (hsep : sep ≠ []) (text : List α) : ¬ sep <:+: lastPiece sep text := by
  have hne : splitFrom sep 0 [] text ≠ [] := splitFrom_ne_nil 0 [] text
  have hlast := List.getLast?_eq_getLast_of_ne_nil hne
  generalize (splitFrom sep 0 [] text).getLast hne = last at hlast
  rw [lastPiece, split, hlast]
  refine not_infix_getLast_splitFrom hsep text 0 [] (.inl rfl) ?_ last hlast
  intro a b hab hb
  exact absurd (List.append_eq_nil_iff.1 hab.symm).2 hb

/-! ## Parts of texts -/

omit [DecidableEq α] in
/-- A part of two texts put together is part of the first, or ends in the second. -/
theorem infix_append_iff_take {part a b : List α} :
    part <:+: a ++ b ↔ part <:+: a ∨ ∃ n, part <:+ a ++ b.take n := by
  constructor
  · rintro ⟨s, t, h⟩
    have htake : s ++ part = (a ++ b).take (s ++ part).length := by
      rw [← h, List.take_left]
    rw [List.take_append] at htake
    by_cases hlen : (s ++ part).length ≤ a.length
    · left
      rw [Nat.sub_eq_zero_of_le hlen, List.take_zero, List.append_nil] at htake
      exact (List.suffix_append s part).isInfix.trans (htake ▸ (List.take_prefix _ a).isInfix)
    · right
      rw [List.take_of_length_le (by omega)] at htake
      exact ⟨_, htake ▸ List.suffix_append s part⟩
  · rintro (h | ⟨n, h⟩)
    · exact h.trans (List.prefix_append a b).isInfix
    · refine h.isInfix.trans ?_
      exact ((List.prefix_append_right_inj a).2 (List.take_prefix n b)).isInfix

omit [DecidableEq α] in
/-- A text without the character `c` that stands in `a ++ c :: b` stands in one of them. -/
theorem infix_append_cons {part : List α} {c : α} (hc : c ∉ part) (a b : List α) :
    part <:+: a ++ c :: b ↔ part <:+: a ∨ part <:+: b := by
  constructor
  · rintro ⟨s, t, h⟩
    rw [List.append_assoc, List.append_eq_append_iff] at h
    obtain ⟨a', rfl, h⟩ | ⟨b', rfl, h⟩ := h
    · -- the part begins in `a`
      rw [List.append_eq_append_iff] at h
      obtain ⟨a'', rfl, -⟩ | ⟨b'', rfl, h⟩ := h
      · exact .inl ⟨s, a'', (List.append_assoc _ _ _)⟩
      · cases b'' with
        | nil => exact .inl ⟨s, [], by simp⟩
        | cons x b'' =>
            cases h
            exact absurd (List.mem_append_right a' List.mem_cons_self) hc
    · -- or after it
      cases b' with
      | nil =>
          cases part with
          | nil => exact .inl List.nil_infix
          | cons x part =>
              cases h
              exact absurd List.mem_cons_self hc
      | cons x b' =>
          cases h
          exact .inr ⟨b', t, by simp⟩
  · rintro (h | h)
    · exact h.trans (List.prefix_append a (c :: b)).isInfix
    · exact h.trans ((List.suffix_cons c b).trans (List.suffix_append a (c :: b))).isInfix

omit [DecidableEq α] in
/-- A text that is not empty and stands in pieces joined by a character it does not
have stands in one of the pieces. -/
theorem infix_intercalate {part : List α} (hne : part ≠ []) {c : α} (hc : c ∉ part)
    (pieces : List (List α)) :
    part <:+: [c].intercalate pieces ↔ ∃ piece ∈ pieces, part <:+: piece := by
  induction pieces with
  | nil => simp [hne]
  | cons piece pieces ih =>
      cases pieces with
      | nil => simp
      | cons piece' pieces =>
          rw [List.intercalate_cons_cons, List.append_assoc, List.singleton_append,
            infix_append_cons hc, ih]
          simp

end Split
end AgentSwarm
