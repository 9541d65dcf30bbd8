import AgentSwarm.Lib.Dict

/-!
# Keys that expire

A family of keys of a Redis server: every key has a value and, perhaps, a
deadline after which the server deletes it.  The commands differ in what they do
to the deadline.

* `Keyspace` — the keys of one family, none of them twice.
* `write`, `overwrite` — `HSET` of the whole value keeps the deadline, `SET`
  clears it.
* `expire`, `del`, `tick` — `EXPIRE`, `DEL`, and the passage of time.
* `sadd`, `srem`, `members` — `SADD`, `SREM`, `SMEMBERS`, for keys that hold sets;
  a set that loses its last member is deleted.
* `read_write`, `read_expire`, `read_tick`, … — what a read finds afterwards.
* `mem_sadd`, `mem_srem`, `mem_saddAll`, `mem_sremAll`, `mem_sremMembers` — the
  same for sets.
* `KeepsUntil` — a set has a member and does not expire before a time; the commands
  on other members, and those that renew the set, keep it.
-/

namespace AgentSwarm

universe u

/-- A value with the time its key is deleted after. -/
structure Entry (V : Type u) where
  value : V
  deadline : Option ℕ := none
  deriving DecidableEq

/-- The time is past the deadline. -/
def Entry.expired {V : Type u} (now : ℕ) (e : Entry V) : Bool :=
  match e.deadline with
  | some deadline => deadline < now
  | none => false

/-- A family of keys. -/
structure Keyspace (V : Type u) where
  entries : Dict String (Entry V)
  nodup : entries.NodupKeys

namespace Keyspace

variable {V : Type u}

/-- No key. -/
def empty : Keyspace V := ⟨[], List.nodup_nil⟩

/-- The entry of a key. -/
def entry (ks : Keyspace V) (k : String) : Option (Entry V) := ks.entries.get k

/-- The value of a key: `GET`, `HGET`. -/
def read (ks : Keyspace V) (k : String) : Option V := (ks.entry k).map Entry.value

/-- The keys of the family: `KEYS`. -/
def keys (ks : Keyspace V) : List String := ks.entries.keys

/-- A key gets a value and a deadline. -/
def put (ks : Keyspace V) (k : String) (e : Entry V) : Keyspace V :=
  ⟨ks.entries.set k e, ks.nodup.set k e⟩

/-- `HSET` of the whole value: the deadline of the key stays. -/
def write (ks : Keyspace V) (k : String) (v : V) : Keyspace V :=
  ks.put k ⟨v, (ks.entry k).bind Entry.deadline⟩

/-- `SET`: the deadline of the key is cleared. -/
def overwrite (ks : Keyspace V) (k : String) (v : V) : Keyspace V := ks.put k ⟨v, none⟩

/-- `EXPIRE`, for a key that exists. -/
def expire (ks : Keyspace V) (k : String) (deadline : ℕ) : Keyspace V :=
  match ks.entry k with
  | some e => ks.put k { e with deadline := some deadline }
  | none => ks

/-- `DEL`. -/
def del (ks : Keyspace V) (k : String) : Keyspace V := ⟨ks.entries.erase k, ks.nodup.erase k⟩

/-- The keys left at the time `now`. -/
def tick (ks : Keyspace V) (now : ℕ) : Keyspace V :=
  ⟨ks.entries.filter fun p => !p.2.expired now, ks.nodup.filter _⟩

variable (ks : Keyspace V)

@[simp] theorem entry_empty (k : String) : (empty : Keyspace V).entry k = none := rfl

theorem entry_put (k : String) (e : Entry V) (j : String) :
    (ks.put k e).entry j = if j = k then some e else ks.entry j :=
  Dict.get_set _ _ _ _

theorem entry_write (k : String) (v : V) (j : String) :
    (ks.write k v).entry j =
      if j = k then some ⟨v, (ks.entry k).bind Entry.deadline⟩ else ks.entry j :=
  ks.entry_put _ _ _

theorem entry_expire (k : String) (deadline : ℕ) (j : String) :
    (ks.expire k deadline).entry j =
      if j = k then (ks.entry k).map fun e => { e with deadline := some deadline }
      else ks.entry j := by
  unfold expire
  split
  · rename_i e he
    rw [entry_put, he]
    rfl
  · rename_i he
    split
    · rename_i hj
      rw [hj, he]
      rfl
    · rfl

theorem entry_del (k j : String) : (ks.del k).entry j = if j = k then none else ks.entry j :=
  Dict.get_erase _ _ _

theorem entry_tick (now : ℕ) (k : String) :
    (ks.tick now).entry k = (ks.entry k).filter fun e => !e.expired now :=
  Dict.get_filter ks.nodup _ k

/-! ## What a read finds -/

@[simp] theorem read_empty (k : String) : (empty : Keyspace V).read k = none := rfl

theorem read_put (k : String) (e : Entry V) (j : String) :
    (ks.put k e).read j = if j = k then some e.value else ks.read j := by
  rw [read, entry_put]
  split <;> rfl

theorem read_write (k : String) (v : V) (j : String) :
    (ks.write k v).read j = if j = k then some v else ks.read j :=
  read_put _ _ _ _

theorem read_overwrite (k : String) (v : V) (j : String) :
    (ks.overwrite k v).read j = if j = k then some v else ks.read j :=
  read_put _ _ _ _

@[simp] theorem read_expire (k : String) (deadline : ℕ) (j : String) :
    (ks.expire k deadline).read j = ks.read j := by
  unfold expire
  split
  · rename_i e he
    rw [read_put]
    split
    · rename_i hj
      simp [read, hj, he]
    · rfl
  · rfl

theorem read_del (k j : String) : (ks.del k).read j = if j = k then none else ks.read j := by
  rw [read, entry_del]
  split <;> rfl

theorem entry_foldl_del (js : List String) (k : String) :
    (js.foldl (fun ks j => ks.del j) ks).entry k = if k ∈ js then none else ks.entry k := by
  induction js generalizing ks with
  | nil => simp
  | cons j js ih =>
      rw [List.foldl_cons, ih, entry_del]
      by_cases hkj : k = j <;> simp [hkj]

theorem read_foldl_del (js : List String) (k : String) :
    (js.foldl (fun ks j => ks.del j) ks).read k = if k ∈ js then none else ks.read k := by
  rw [read, entry_foldl_del]
  split <;> rfl

/-- What is left after some time was there before. -/
theorem read_of_read_tick {now : ℕ} {k : String} {v : V} (h : (ks.tick now).read k = some v) :
    ks.read k = some v := by
  rw [read, entry_tick] at h
  obtain ⟨e, he, rfl⟩ := Option.map_eq_some_iff.1 h
  have hbefore : ks.entry k = some e := (Option.filter_eq_some_iff.1 he).1
  rw [read, hbefore]
  rfl

/-- A key is there after some time exactly when it has not expired. -/
theorem read_tick (now : ℕ) (k : String) :
    (ks.tick now).read k =
      if (ks.entry k).any (·.expired now) then none else ks.read k := by
  rw [read, entry_tick, read]
  cases he : ks.entry k with
  | none => rfl
  | some e => cases hexp : e.expired now <;> simp [Option.filter, hexp]

/-- The members of a set after some time: none of them if it has expired. -/
theorem members_tick (sets : Keyspace (List String)) (now : ℕ) (k : String) :
    ((sets.tick now).read k).getD [] =
      if (sets.entry k).any (·.expired now) then [] else (sets.read k).getD [] := by
  rw [read_tick]
  split <;> rfl

theorem read_isSome_iff_mem_keys (k : String) : (ks.read k).isSome ↔ k ∈ ks.keys := by
  constructor
  · intro h
    obtain ⟨v, hv⟩ := Option.isSome_iff_exists.1 h
    obtain ⟨e, he, -⟩ := Option.map_eq_some_iff.1 hv
    exact Dict.mem_keys_of_get he
  · intro h
    rw [read, Option.isSome_map]
    exact Dict.get_isSome_of_mem_keys h

/-! ## Keys that hold sets -/

variable (sets : Keyspace (List String))

/-- `SMEMBERS`: a missing key is the empty set. -/
def members (sets : Keyspace (List String)) (k : String) : List String := (sets.read k).getD []

/-- `SADD` of one member. -/
def sadd (sets : Keyspace (List String)) (k m : String) : Keyspace (List String) :=
  sets.write k ((sets.members k).insert m)

/-- `SREM` of one member. -/
def srem (sets : Keyspace (List String)) (k m : String) : Keyspace (List String) :=
  let left := (sets.members k).filter (· ≠ m)
  if left = [] then sets.del k else sets.write k left

/-- `SADD` of one member to several sets, each followed by `EXPIRE` if there is
a deadline. -/
def saddAll (sets : Keyspace (List String)) (m : String) (deadline : Option ℕ) (ks : List String) :
    Keyspace (List String) :=
  ks.foldl (fun sets k =>
    match deadline with
    | some deadline => (sets.sadd k m).expire k deadline
    | none => sets.sadd k m) sets

/-- `SREM` of one member from several sets. -/
def sremAll (sets : Keyspace (List String)) (m : String) (ks : List String) :
    Keyspace (List String) :=
  ks.foldl (fun sets k => sets.srem k m) sets

/-- `SREM` of several members from one set. -/
def sremMembers (sets : Keyspace (List String)) (k : String) (ms : List String) :
    Keyspace (List String) :=
  ms.foldl (fun sets m => sets.srem k m) sets

/-- `EXPIRE` of several sets. -/
def expireAll (sets : Keyspace (List String)) (deadline : ℕ) (ks : List String) :
    Keyspace (List String) :=
  ks.foldl (fun sets k => sets.expire k deadline) sets

@[simp] theorem members_expire (k : String) (deadline : ℕ) (j : String) :
    (sets.expire k deadline).members j = sets.members j := by
  simp [members]

theorem mem_sadd (k m j x : String) :
    x ∈ (sets.sadd k m).members j ↔ x ∈ sets.members j ∨ (j = k ∧ x = m) := by
  rw [sadd, members, read_write]
  by_cases hj : j = k
  · simp [hj, List.mem_insert_iff, or_comm]
  · simp [hj, members]

theorem mem_srem (k m j x : String) :
    x ∈ (sets.srem k m).members j ↔ x ∈ sets.members j ∧ ¬ (j = k ∧ x = m) := by
  rw [srem]
  split
  · rename_i hleft
    rw [members, read_del]
    by_cases hj : j = k
    · have hgone : ∀ y ∈ sets.members k, y = m := by simpa [List.filter_eq_nil_iff] using hleft
      simp only [hj, if_true, Option.getD_none, List.not_mem_nil, true_and, false_iff, not_and,
        not_not]
      exact hgone x
    · simp [hj, members]
  · rw [members, read_write]
    by_cases hj : j = k <;> simp [hj, members]

theorem mem_saddAll (m : String) (deadline : Option ℕ) (ks : List String) (j x : String) :
    x ∈ (sets.saddAll m deadline ks).members j ↔ x ∈ sets.members j ∨ (j ∈ ks ∧ x = m) := by
  induction ks generalizing sets with
  | nil => simp [saddAll]
  | cons k ks ih =>
      rw [saddAll, List.foldl_cons, ← saddAll, ih]
      cases deadline <;> simp only [members_expire, mem_sadd, List.mem_cons] <;> tauto

theorem mem_sremAll (m : String) (ks : List String) (j x : String) :
    x ∈ (sets.sremAll m ks).members j ↔ x ∈ sets.members j ∧ ¬ (j ∈ ks ∧ x = m) := by
  induction ks generalizing sets with
  | nil => simp [sremAll]
  | cons k ks ih =>
      rw [sremAll, List.foldl_cons, ← sremAll, ih]
      simp only [mem_srem, List.mem_cons]
      tauto

theorem mem_sremMembers (k : String) (ms : List String) (j x : String) :
    x ∈ (sets.sremMembers k ms).members j ↔ x ∈ sets.members j ∧ ¬ (j = k ∧ x ∈ ms) := by
  induction ms generalizing sets with
  | nil => simp [sremMembers]
  | cons m ms ih =>
      rw [sremMembers, List.foldl_cons, ← sremMembers, ih]
      simp only [mem_srem, List.mem_cons]
      tauto

theorem members_srem_of_ne {k j : String} (h : j ≠ k) (m : String) :
    (sets.srem k m).members j = sets.members j := by
  rw [srem]
  split
  · rw [members, read_del, if_neg h, members]
  · rw [members, read_write, if_neg h, members]

/-- `SREM` leaves the other sets. -/
theorem members_sremMembers_of_ne {k j : String} (h : j ≠ k) (ms : List String) :
    (sets.sremMembers k ms).members j = sets.members j := by
  induction ms generalizing sets with
  | nil => rfl
  | cons m ms ih => rw [sremMembers, List.foldl_cons, ← sremMembers, ih, members_srem_of_ne sets h]

@[simp] theorem members_expireAll (deadline : ℕ) (ks : List String) (j : String) :
    (sets.expireAll deadline ks).members j = sets.members j := by
  induction ks generalizing sets with
  | nil => rfl
  | cons k ks ih => rw [expireAll, List.foldl_cons, ← expireAll, ih, members_expire]

/-! ## How long a set keeps a member -/

/-- The set has the member, and its deadline, if it has one, is not before `time`. -/
def KeepsUntil (sets : Keyspace (List String)) (k m : String) (time : ℕ) : Prop :=
  ∃ e, sets.entry k = some e ∧ m ∈ e.value ∧ ∀ deadline, e.deadline = some deadline → time ≤ deadline

namespace KeepsUntil

variable {sets : Keyspace (List String)} {k m : String} {time : ℕ}

theorem mem (h : sets.KeepsUntil k m time) : m ∈ sets.members k := by
  obtain ⟨e, he, hm, -⟩ := h
  simpa [members, read, he] using hm

/-- Until that time it is there. -/
theorem tick {now : ℕ} (h : sets.KeepsUntil k m time) (hle : now ≤ time) :
    (sets.tick now).KeepsUntil k m time := by
  obtain ⟨e, he, hm, hd⟩ := h
  refine ⟨e, ?_, hm, hd⟩
  rw [entry_tick, he, Option.filter_eq_some_iff]
  refine ⟨rfl, ?_⟩
  cases hdeadline : e.deadline with
  | none => simp [Entry.expired, hdeadline]
  | some deadline => simpa [Entry.expired, hdeadline] using Nat.le_trans hle (hd deadline hdeadline)

/-- A set that is renewed for at least as long. -/
theorem expire (h : sets.KeepsUntil k m time) (j : String) {deadline : ℕ}
    (hle : time ≤ deadline) : (sets.expire j deadline).KeepsUntil k m time := by
  obtain ⟨e, he, hm, hd⟩ := h
  by_cases hj : k = j
  · subst hj
    refine ⟨{ e with deadline := some deadline }, ?_, hm, ?_⟩
    · rw [entry_expire, if_pos rfl, he]
      rfl
    · intro deadline' heq
      cases heq
      exact hle
  · exact ⟨e, by rw [entry_expire, if_neg hj, he], hm, hd⟩

theorem sadd (h : sets.KeepsUntil k m time) (j x : String) :
    (sets.sadd j x).KeepsUntil k m time := by
  obtain ⟨e, he, hm, hd⟩ := h
  by_cases hj : k = j
  · subst hj
    refine ⟨⟨(sets.members k).insert x, e.deadline⟩, ?_, ?_, hd⟩
    · rw [Keyspace.sadd, entry_write, if_pos rfl, he]
      rfl
    · refine List.mem_insert_of_mem ?_
      simpa [members, read, he] using hm
  · exact ⟨e, by rw [Keyspace.sadd, entry_write, if_neg hj, he], hm, hd⟩

/-- Another member is taken out. -/
theorem srem (h : sets.KeepsUntil k m time) (j x : String) (hne : ¬ (k = j ∧ m = x)) :
    (sets.srem j x).KeepsUntil k m time := by
  obtain ⟨e, he, hm, hd⟩ := h
  have hmembers : sets.members k = e.value := by simp [members, read, he]
  by_cases hj : k = j
  · subst hj
    have hmx : m ≠ x := fun hmx => hne ⟨rfl, hmx⟩
    have hleft : m ∈ (sets.members k).filter (· ≠ x) := by simp [hmembers, hm, hmx]
    rw [Keyspace.srem, if_neg (List.ne_nil_of_mem hleft)]
    exact ⟨⟨_, e.deadline⟩, by rw [entry_write, if_pos rfl, he]; rfl, hleft, hd⟩
  · refine ⟨e, ?_, hm, hd⟩
    rw [Keyspace.srem]
    split
    · rw [entry_del, if_neg hj, he]
    · rw [entry_write, if_neg hj, he]

theorem saddAll (h : sets.KeepsUntil k m time) (x : String) {deadline : Option ℕ}
    (hle : ∀ d, deadline = some d → time ≤ d) (ks : List String) :
    (sets.saddAll x deadline ks).KeepsUntil k m time := by
  induction ks generalizing sets with
  | nil => exact h
  | cons j ks ih =>
      rw [Keyspace.saddAll, List.foldl_cons]
      refine ih ?_
      cases deadline with
      | none => exact h.sadd j x
      | some d => exact (h.sadd j x).expire j (hle d rfl)

theorem sremAll (h : sets.KeepsUntil k m time) (x : String) (ks : List String)
    (hne : ¬ (k ∈ ks ∧ m = x)) : (sets.sremAll x ks).KeepsUntil k m time := by
  induction ks generalizing sets with
  | nil => exact h
  | cons j ks ih =>
      rw [Keyspace.sremAll, List.foldl_cons]
      refine ih (h.srem j x ?_) ?_
      · rintro ⟨rfl, hmx⟩
        exact hne ⟨List.mem_cons_self, hmx⟩
      · rintro ⟨hk, hmx⟩
        exact hne ⟨List.mem_cons_of_mem j hk, hmx⟩

theorem sremMembers (h : sets.KeepsUntil k m time) (j : String) (ms : List String)
    (hne : ¬ (k = j ∧ m ∈ ms)) : (sets.sremMembers j ms).KeepsUntil k m time := by
  induction ms generalizing sets with
  | nil => exact h
  | cons x ms ih =>
      rw [Keyspace.sremMembers, List.foldl_cons]
      refine ih (h.srem j x ?_) ?_
      · rintro ⟨hk, rfl⟩
        exact hne ⟨hk, List.mem_cons_self⟩
      · rintro ⟨hk, hm⟩
        exact hne ⟨hk, List.mem_cons_of_mem x hm⟩

theorem expireAll (h : sets.KeepsUntil k m time) {deadline : ℕ} (hle : time ≤ deadline)
    (ks : List String) : (sets.expireAll deadline ks).KeepsUntil k m time := by
  induction ks generalizing sets with
  | nil => exact h
  | cons j ks ih =>
      rw [Keyspace.expireAll, List.foldl_cons]
      exact ih (h.expire j hle)

end KeepsUntil

/-- `EXPIRE` of a set that has the member. -/
theorem keepsUntil_expire {k m : String} (h : m ∈ sets.members k) (deadline : ℕ) :
    (sets.expire k deadline).KeepsUntil k m deadline := by
  rw [members, read] at h
  cases he : sets.entry k with
  | none =>
      rw [he] at h
      cases h
  | some e =>
      rw [he] at h
      refine ⟨{ e with deadline := some deadline }, ?_, h, ?_⟩
      · rw [entry_expire, if_pos rfl, he]
        rfl
      · intro deadline' heq
        cases heq
        exact Nat.le_refl _

/-- Every set that gets the member with a deadline keeps it until then. -/
theorem keepsUntil_saddAll (m : String) (deadline : ℕ) {ks : List String} {k : String}
    (hk : k ∈ ks) : (sets.saddAll m (some deadline) ks).KeepsUntil k m deadline := by
  induction ks generalizing sets with
  | nil => cases hk
  | cons j ks ih =>
      rw [saddAll, List.foldl_cons]
      by_cases hin : k ∈ ks
      · exact ih _ hin
      · obtain rfl : k = j := (List.mem_cons.1 hk).resolve_right hin
        have hmem : m ∈ (sets.sadd k m).members k := (mem_sadd sets k m k m).2 (.inr ⟨rfl, rfl⟩)
        have hkept := keepsUntil_expire _ hmem deadline
        have hrest : (((sets.sadd k m).expire k deadline).saddAll m (some deadline) ks).KeepsUntil
            k m deadline := hkept.saddAll m (fun d hd => by cases hd; exact Nat.le_refl _) ks
        exact hrest

/-- Every set that is renewed and has the member keeps it until the new deadline. -/
theorem keepsUntil_expireAll {k m : String} (h : m ∈ sets.members k) (deadline : ℕ)
    {ks : List String} (hk : k ∈ ks) : (sets.expireAll deadline ks).KeepsUntil k m deadline := by
  induction ks generalizing sets with
  | nil => cases hk
  | cons j ks ih =>
      rw [expireAll, List.foldl_cons]
      by_cases hin : k ∈ ks
      · exact ih _ (by rwa [members_expire]) hin
      · obtain rfl : k = j := (List.mem_cons.1 hk).resolve_right hin
        exact (keepsUntil_expire _ h deadline).expireAll (Nat.le_refl _) ks

end Keyspace
end AgentSwarm
