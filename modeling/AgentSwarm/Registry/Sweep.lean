import Mathlib.Algebra.GroupWithZero.Nat
import AgentSwarm.Registry.SkillIndex

/-!
# What a sweep removes

`health_sweep` deletes the stale records, and then the members of the skill sets that have no
record.  Whether a member is an orphan is asked once the stale records are gone.

* `memberships` — the members of all skill sets, with their sets.
* `ExactSweep` — a sweep removes what is stale or orphaned, keeps the rest, and counts it.
* `read_healthSweep`, `mem_healthSweep` — the records and the members that are left.
* `removeOrphans_count` — the count of the second phase.
* `healthSweep_exact` — **every sweep is exact, and another one right after it does nothing**.
-/

namespace AgentSwarm
namespace Registry

variable (cfg : Config)

/-- The members of the skill sets, each with its set. -/
def Redis.memberships (r : Redis) : List (String × String) :=
  r.skillIndex.keys.flatMap fun skill => (r.skillIndex.members skill).map (Prod.mk skill)

/-- A sweep at `now` from `r` to `r'` that returns `swept`. -/
structure ExactSweep (now : ℕ) (r r' : Redis) (swept : ℕ) : Prop where
  none_offline : ∀ id record, r'.agents.read id = some record → isOnline cfg now record
  all_indexed : ∀ skill, ∀ id ∈ r'.skillIndex.members skill, (r'.agents.read id).isSome
  record_kept : ∀ id record, r.agents.read id = some record → isOnline cfg now record →
    r'.agents.entry id = r.agents.entry id
  membership_kept : ∀ skill id record, r.agents.read id = some record →
    isOnline cfg now record → (id ∈ r'.skillIndex.members skill ↔ id ∈ r.skillIndex.members skill)
  count : swept = (r.stale cfg now).length +
    (r.memberships.filter fun m => m ∉ r'.memberships).length

/-! ## What is left -/

theorem mem_stale {r : Redis} {now : ℕ} {id : String} :
    id ∈ r.stale cfg now ↔ ∃ record, r.agents.read id = some record ∧ ¬isOnline cfg now record := by
  rw [Redis.stale, List.mem_filter, ← Keyspace.read_isSome_iff_mem_keys]
  cases r.agents.read id with
  | none => simp
  | some record => simp

/-- The server once the stale records are gone. -/
def Redis.withoutStale (r : Redis) (now : ℕ) : Redis :=
  { r with agents := (r.stale cfg now).foldl (fun agents id => agents.del id) r.agents }

theorem healthSweep_fst (r : Redis) (now : ℕ) : (r.healthSweep cfg now).1 =
    (r.stale cfg now).length + ((r.withoutStale cfg now).removeOrphans r.skillIndex.keys).1 := rfl

theorem healthSweep_snd (r : Redis) (now : ℕ) : (r.healthSweep cfg now).2 =
    ((r.withoutStale cfg now).removeOrphans r.skillIndex.keys).2 := rfl

theorem entry_healthSweep (r : Redis) (now : ℕ) (id : String) :
    (r.healthSweep cfg now).2.agents.entry id =
      if id ∈ r.stale cfg now then none else r.agents.entry id := by
  rw [healthSweep_snd, (removeOrphans_spec _ _).1]
  exact Keyspace.entry_foldl_del r.agents (r.stale cfg now) id

/-- **The records that are left**: those that are online. -/
theorem read_healthSweep (r : Redis) (now : ℕ) (id : String) (record : AgentRecord) :
    (r.healthSweep cfg now).2.agents.read id = some record ↔
      r.agents.read id = some record ∧ isOnline cfg now record := by
  rw [Keyspace.read, entry_healthSweep]
  by_cases hstale : id ∈ r.stale cfg now
  · obtain ⟨stored, hread, hoff⟩ := (mem_stale cfg).1 hstale
    rw [if_pos hstale, hread]
    refine iff_of_false (Option.some_ne_none record).symm ?_
    rintro ⟨hsame, hon⟩
    cases hsame
    exact hoff hon
  · rw [if_neg hstale, ← Keyspace.read]
    refine (and_iff_left_of_imp fun hread => ?_).symm
    by_contra hoff
    exact hstale ((mem_stale cfg).2 ⟨record, hread, hoff⟩)

/-- A set with a member is there. -/
theorem mem_keys_of_mem_members {r : Redis} {skill id : String}
    (h : id ∈ r.skillIndex.members skill) : skill ∈ r.skillIndex.keys := by
  rw [← Keyspace.read_isSome_iff_mem_keys]
  rw [Keyspace.members] at h
  cases hread : r.skillIndex.read skill with
  | none =>
      rw [hread] at h
      cases h
  | some ids => rfl

/-- **The members that are left**: those with a record that is left. -/
theorem mem_healthSweep (r : Redis) (now : ℕ) (skill id : String) :
    id ∈ (r.healthSweep cfg now).2.skillIndex.members skill ↔
      id ∈ r.skillIndex.members skill ∧
        ((r.healthSweep cfg now).2.agents.read id).isSome := by
  obtain ⟨hagents, hmem⟩ := removeOrphans_spec (r.withoutStale cfg now) r.skillIndex.keys
  rw [healthSweep_snd, hmem, hagents]
  refine and_congr_right fun hin => ?_
  exact forall_prop_of_true (mem_keys_of_mem_members (r := r) hin)

/-! ## The count -/

theorem mem_memberships {r : Redis} {skill id : String} :
    (skill, id) ∈ r.memberships ↔ id ∈ r.skillIndex.members skill := by
  rw [Redis.memberships, List.mem_flatMap]
  constructor
  · rintro ⟨skill', -, hmem⟩
    obtain ⟨id', hid, heq⟩ := List.mem_map.1 hmem
    cases heq
    exact hid
  · intro hid
    exact ⟨skill, mem_keys_of_mem_members hid, List.mem_map_of_mem hid⟩

/-- The second phase counts the orphans there are when it begins: a set is not touched before
its turn. -/
theorem removeOrphans_count (r : Redis) {skills : List String} (h : skills.Nodup) :
    (r.removeOrphans skills).1 = (skills.map fun skill => (r.orphans skill).length).sum := by
  induction skills generalizing r with
  | nil => rfl
  | cons k skills ih =>
      obtain ⟨hk, hrest⟩ := List.nodup_cons.1 h
      rw [Redis.removeOrphans, List.map_cons, List.sum_cons]
      dsimp only
      rw [ih _ hrest]
      refine congrArg (_ + List.sum ·) (List.map_congr_left fun skill hskill => ?_)
      have hne : skill ≠ k := by
        rintro rfl
        exact hk hskill
      have hmembers := Keyspace.members_sremMembers_of_ne r.skillIndex hne (r.orphans k)
      exact congrArg (fun ids => (ids.filter fun id => !(r.agents.read id).isSome).length) hmembers

/-- Without orphans the second phase does nothing. -/
theorem removeOrphans_eq_self (r : Redis) {skills : List String}
    (h : ∀ skill ∈ skills, r.orphans skill = []) : r.removeOrphans skills = (0, r) := by
  induction skills with
  | nil => rfl
  | cons k skills ih =>
      have hk : r.orphans k = [] := h k List.mem_cons_self
      rw [Redis.removeOrphans, hk]
      show ([].length + (r.removeOrphans skills).1, (r.removeOrphans skills).2) = (0, r)
      rw [ih fun skill hskill => h skill (List.mem_cons_of_mem k hskill)]
      rfl

/-- The memberships a sweep removes are the orphans of its second phase. -/
theorem removed_length (r : Redis) (now : ℕ) :
    (r.memberships.filter fun m => m ∉ (r.healthSweep cfg now).2.memberships).length =
      (r.skillIndex.keys.map fun skill => ((r.withoutStale cfg now).orphans skill).length).sum := by
  have hall : r.memberships = r.skillIndex.keys.flatMap fun skill =>
    (r.skillIndex.members skill).map (Prod.mk skill) := rfl
  rw [hall, List.filter_flatMap, List.length_flatMap]
  refine congrArg List.sum (List.map_congr_left fun skill _ => ?_)
  rw [List.filter_map, List.length_map, Redis.orphans]
  refine congrArg List.length (List.filter_congr fun id hid => ?_)
  have hagents : (r.healthSweep cfg now).2.agents = (r.withoutStale cfg now).agents := by
    rw [healthSweep_snd]
    exact (removeOrphans_spec _ _).1
  have hleft : (skill, id) ∈ (r.healthSweep cfg now).2.memberships ↔
      ((r.withoutStale cfg now).agents.read id).isSome := by
    rw [mem_memberships, mem_healthSweep, and_iff_right hid, hagents]
  simp [hleft]

/-- A sweep is exact. -/
theorem exactSweep_healthSweep (r : Redis) (now : ℕ) :
    ExactSweep cfg now r (r.healthSweep cfg now).2 (r.healthSweep cfg now).1 := by
  constructor
  · intro id record hread
    exact ((read_healthSweep cfg r now id record).1 hread).2
  · intro skill id hid
    exact ((mem_healthSweep cfg r now skill id).1 hid).2
  · intro id record hread hon
    have hnot : id ∉ r.stale cfg now := by
      intro hstale
      obtain ⟨stored, hstored, hoff⟩ := (mem_stale cfg).1 hstale
      obtain rfl : record = stored := Option.some.inj (hread.symm.trans hstored)
      exact hoff hon
    rw [entry_healthSweep, if_neg hnot]
  · intro skill id record hread hon
    have hleft := (read_healthSweep cfg r now id record).2 ⟨hread, hon⟩
    rw [mem_healthSweep, hleft]
    exact and_iff_left rfl
  · rw [healthSweep_fst, removed_length]
    exact congrArg _ (removeOrphans_count _ r.skillIndex.nodup)

/-- A sweep that finds nothing stale and no orphan does nothing. -/
theorem healthSweep_eq_self {r : Redis} {now : ℕ} (hstale : r.stale cfg now = [])
    (horphans : ∀ skill ∈ r.skillIndex.keys, r.orphans skill = []) :
    r.healthSweep cfg now = (0, r) := by
  have hwithout : r.withoutStale cfg now = r := by
    rw [Redis.withoutStale, hstale]
    rfl
  have hfst := healthSweep_fst cfg r now
  have hsnd := healthSweep_snd cfg r now
  rw [hwithout, removeOrphans_eq_self r horphans] at hfst hsnd
  rw [hstale] at hfst
  exact Prod.ext hfst hsnd

/-- **Every sweep is exact, and another one at the same time does nothing.** -/
theorem healthSweep_exact (r : Redis) (now : ℕ) :
    ExactSweep cfg now r (r.healthSweep cfg now).2 (r.healthSweep cfg now).1 ∧
      (r.healthSweep cfg now).2.healthSweep cfg now = (0, (r.healthSweep cfg now).2) := by
  refine ⟨exactSweep_healthSweep cfg r now, healthSweep_eq_self cfg ?_ ?_⟩
  · refine List.eq_nil_iff_forall_not_mem.2 fun id hid => ?_
    obtain ⟨record, hread, hoff⟩ := (mem_stale cfg).1 hid
    exact hoff ((read_healthSweep cfg r now id record).1 hread).2
  · intro skill _
    refine List.filter_eq_nil_iff.2 fun id hid => ?_
    simp [((mem_healthSweep cfg r now skill id).1 hid).2]

end Registry
end AgentSwarm
