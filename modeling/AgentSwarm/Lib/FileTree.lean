import AgentSwarm.Lib.Path

/-!
# A tree of files

Directories, files and links by the names from the root.  A path is followed component by
component: `..` leads back up, and a link to where its own path leads, forty links at most.

* `FileTree` — the entries; what has an entry below it is a directory.
* `Walk`, `find` — the way of a path over what is there, as a relation and as a function; the
  last name need not be there.
* `find_eq_some_iff` — the two agree.
* `follow` — where a path leads if what is missing is taken for a directory.
* `Extends` — no directory is lost and the links are the same; a walk stays (`Walk.mono`).
* `Walk.follow` — **what is found is where the links lead**.
* `makeDirs` — every directory on the way of a path is made, if it is not there.
* `makeDirs_walk`, `makeDirs_of_walk` — what has been made is found, and not made again.
* `write` — a text is put under a name.
* `place`, `leads`, `mkdirs`, `writeText` — the same for a path, in a working directory.
-/

namespace AgentSwarm

open Path (PurePath enter)

/-- What there is under a name. -/
inductive FileTree.Entry where
  | dir
  | file (text : String)
  /-- A symbolic link, by the path it has. -/
  | link (target : PurePath)
  deriving DecidableEq

/-- A tree of files, by the names from the root. -/
structure FileTree where
  entry : List String → Option FileTree.Entry
  root : entry [] = some .dir
  closed : ∀ names c, entry (names ++ [c]) ≠ none → entry names = some .dir

namespace FileTree

/-- There is a directory. -/
def IsDir (t : FileTree) (names : List String) : Prop := t.entry names = some .dir

instance (t : FileTree) (names : List String) : Decidable (t.IsDir names) :=
  inferInstanceAs (Decidable (_ = _))

/-- The text of the file, if there is one. -/
def content (t : FileTree) (names : List String) : Option String :=
  match t.entry names with
  | some (.file text) => some text
  | _ => none

/-- The path of the link, if there is one. -/
def link (t : FileTree) (names : List String) : Option PurePath :=
  match t.entry names with
  | some (.link target) => some target
  | _ => none

theorem entry_of_content {t : FileTree} {names : List String} {text : String}
    (h : t.content names = some text) : t.entry names = some (.file text) := by
  unfold content at h
  split at h
  · rename_i hentry
    rw [hentry, Option.some.inj h]
  · cases h

theorem content_of_entry {t : FileTree} {names : List String} {text : String}
    (h : t.entry names = some (.file text)) : t.content names = some text := by
  rw [content, h]

theorem IsDir.link_eq_none {t : FileTree} {names : List String} (h : t.IsDir names) :
    t.link names = none := by
  rw [link, show t.entry names = some .dir from h]

theorem entry_of_link {t : FileTree} {names : List String} {target : PurePath}
    (h : t.link names = some target) : t.entry names = some (.link target) := by
  unfold link at h
  split at h
  · rename_i hentry
    rw [hentry, Option.some.inj h]
  · cases h

theorem isDir_dropLast {t : FileTree} {names : List String} (h : t.IsDir names) :
    t.IsDir names.dropLast := by
  rcases names.eq_nil_or_concat with rfl | ⟨rest, c, rfl⟩
  · exact h
  · rw [List.concat_eq_append, List.dropLast_concat]
    refine t.closed rest c ?_
    rw [← List.concat_eq_append, show t.entry (rest.concat c) = some .dir from h]
    exact Option.some_ne_none _

/-- A tree with the directories on the way to one only. -/
def bare (names : List String) : FileTree where
  entry n := if n <+: names then some .dir else none
  root := if_pos (List.nil_prefix)
  closed := by
    intro n c h
    refine if_pos ?_
    have hbelow : n ++ [c] <+: names := by
      by_contra hnot
      exact h (if_neg hnot)
    exact (List.prefix_append n [c]).trans hbelow

theorem isDir_bare {names n : List String} : (bare names).IsDir n ↔ n <+: names := by
  unfold IsDir bare
  simp

/-! ## A new entry -/

/-- An entry in a directory, where there is no directory yet. -/
def put (t : FileTree) (names : List String) (e : Entry) (hdir : t.IsDir names.dropLast)
    (hfree : ¬t.IsDir names) : FileTree where
  entry n := if n = names then some e else t.entry n
  root := by
    have hne : [] ≠ names := by
      rintro rfl
      exact hfree t.root
    rw [if_neg hne]
    exact t.root
  closed := by
    intro n d h
    have hn : t.IsDir n := by
      by_cases hnew : n ++ [d] = names
      · rwa [← hnew, List.dropLast_concat] at hdir
      · rw [if_neg hnew] at h
        exact t.closed n d h
    have hne : n ≠ names := by
      rintro rfl
      exact hfree hn
    rw [if_neg hne]
    exact hn

section

variable {t : FileTree} {names : List String} {e : Entry} (hdir : t.IsDir names.dropLast)
  (hfree : ¬t.IsDir names) (n : List String)

theorem put_isDir : (t.put names e hdir hfree).IsDir n ↔ t.IsDir n ∨ n = names ∧ e = .dir := by
  have hentry : (t.put names e hdir hfree).entry n = if n = names then some e else t.entry n := rfl
  unfold IsDir
  rw [hentry]
  by_cases hn : n = names
  · subst hn
    have hnone : ¬t.entry n = some .dir := hfree
    simp [hnone]
  · simp [hn]

theorem put_content : (t.put names e hdir hfree).content n =
    if n = names then (match e with | .file text => some text | _ => none) else t.content n := by
  unfold content put
  by_cases hn : n = names
  · simp only [hn, if_true]
    cases e <;> rfl
  · simp [hn]

/-- A link is neither made nor lost. -/
theorem put_link (hlink : t.link names = none) (he : ∀ target, e ≠ .link target) :
    (t.put names e hdir hfree).link n = t.link n := by
  by_cases hn : n = names
  · subst hn
    rw [hlink]
    unfold link put
    simp only [if_true]
    cases e with
    | link target => exact absurd rfl (he target)
    | _ => rfl
  · unfold link put
    simp [hn]

end

/-! ## Following a path -/

/-- Where a path starts, in a directory. -/
def start (names : List String) (p : PurePath) : List String := if p.absolute then [] else names

theorem isDir_start {t : FileTree} {names : List String} (h : t.IsDir names) (p : PurePath) :
    t.IsDir (start names p) := by
  rw [start]
  split
  · exact t.root
  · exact h

/-- The limit of the system for the links on one way. -/
def maxLinks : ℕ := 40

/-- The way of a path: from `names`, with `links` links to follow at most, the components lead to
`n`, with `left` of them left.  What is on the way has to be there, and the last name need not. -/
inductive Walk (t : FileTree) : ℕ → List String → List String → List String → ℕ → Prop where
  | here {links : ℕ} {names : List String} : Walk t links names [] names links
  | up {links left : ℕ} {names cs n : List String} (h : Walk t links names.dropLast cs n left) :
      Walk t links names (".." :: cs) n left
  | dir {links left : ℕ} {names cs n : List String} {c : String} (hc : c ≠ "..")
      (hdir : t.IsDir (names ++ [c])) (h : Walk t links (names ++ [c]) cs n left) :
      Walk t links names (c :: cs) n left
  | link {links left : ℕ} {names cs n : List String} {c : String} {target : PurePath}
      (hc : c ≠ "..") (hlink : t.link (names ++ [c]) = some target)
      (h : Walk t links (start names target) (target.parts ++ cs) n left) :
      Walk t (links + 1) names (c :: cs) n left
  | last {links : ℕ} {names : List String} {c : String} (hc : c ≠ "..")
      (hlink : t.link (names ++ [c]) = none) : Walk t links names [c] (names ++ [c]) links

/-- The way from `names`, up to the first link, where `jump` goes on. -/
def findFrom (t : FileTree) (links : ℕ)
    (jump : List String → List String → Option (List String × ℕ)) :
    List String → List String → Option (List String × ℕ)
  | names, [] => some (names, links)
  | names, c :: cs =>
      if c = ".." then findFrom t links jump names.dropLast cs
      else
        match t.entry (names ++ [c]) with
        | some .dir => findFrom t links jump (names ++ [c]) cs
        | some (.link target) => jump (start names target) (target.parts ++ cs)
        | _ => if cs = [] then some (names ++ [c], links) else none

/-- Where the components lead from `names`, and how many links may still be followed. -/
def find (t : FileTree) : ℕ → List String → List String → Option (List String × ℕ)
  | 0 => findFrom t 0 fun _ _ => none
  | links + 1 => findFrom t (links + 1) (find t links)

variable {t t' : FileTree} {links left : ℕ} {names cs n : List String} {c : String}

theorem walk_of_findFrom {jump : List String → List String → Option (List String × ℕ)}
    (hjump : ∀ names cs n left, jump names cs = some (n, left) →
      ∃ k, links = k + 1 ∧ Walk t k names cs n left)
    (h : findFrom t links jump names cs = some (n, left)) : Walk t links names cs n left := by
  induction cs generalizing names with
  | nil =>
      obtain ⟨rfl, rfl⟩ : names = n ∧ links = left := by simpa [findFrom] using h
      exact .here
  | cons c cs ih =>
      rw [findFrom] at h
      split at h
      · rename_i hup
        exact hup ▸ .up (ih h)
      · rename_i hc
        split at h
        · rename_i hentry
          exact .dir hc hentry (ih h)
        · rename_i target hentry
          obtain ⟨k, rfl, hwalk⟩ := hjump _ _ _ _ h
          exact .link hc (by rw [link, hentry]) hwalk
        · rename_i hdir hlink
          split at h
          · rename_i hnil
            obtain ⟨rfl, rfl⟩ : names ++ [c] = n ∧ links = left := by simpa using h
            subst hnil
            refine .last hc ?_
            rw [link]
            split
            · rename_i target hentry
              exact absurd hentry (hlink target)
            · rfl
          · cases h

theorem find_nil (t : FileTree) (links : ℕ) (names : List String) :
    t.find links names [] = some (names, links) := by
  cases links <;> rfl

theorem find_up (t : FileTree) (links : ℕ) (names cs : List String) :
    t.find links names (".." :: cs) = t.find links names.dropLast cs := by
  cases links <;> rfl

theorem find_dir (hc : c ≠ "..") (hdir : t.IsDir (names ++ [c])) :
    t.find links names (c :: cs) = t.find links (names ++ [c]) cs := by
  have hentry : t.entry (names ++ [c]) = some .dir := hdir
  cases links <;> rw [find, findFrom, if_neg hc, hentry]

theorem find_link {target : PurePath} (hc : c ≠ "..")
    (hlink : t.link (names ++ [c]) = some target) :
    t.find (links + 1) names (c :: cs) = t.find links (start names target) (target.parts ++ cs) := by
  rw [find, findFrom, if_neg hc, entry_of_link hlink]

theorem find_last (hc : c ≠ "..") (hlink : t.link (names ++ [c]) = none) :
    t.find links names [c] = some (names ++ [c], links) := by
  cases hentry : t.entry (names ++ [c]) with
  | none => cases links <;> rw [find, findFrom, if_neg hc, hentry] <;> rfl
  | some e =>
      cases e with
      | link target =>
          rw [link, hentry] at hlink
          cases hlink
      | dir => rw [find_dir hc hentry, find_nil]
      | file text => cases links <;> rw [find, findFrom, if_neg hc, hentry] <;> rfl

/-- **What is found is at the end of a way**, and the other way round. -/
theorem find_eq_some_iff : t.find links names cs = some (n, left) ↔ Walk t links names cs n left := by
  constructor
  · intro h
    induction links generalizing names cs n left with
    | zero => exact walk_of_findFrom (fun _ _ _ _ hjump => by cases hjump) h
    | succ k ih => exact walk_of_findFrom (fun _ _ _ _ hjump => ⟨k, rfl, ih hjump⟩) h
  · intro h
    induction h with
    | here => exact find_nil t _ _
    | up _ ih => exact (find_up t _ _ _).trans ih
    | dir hc hdir _ ih => exact (find_dir hc hdir).trans ih
    | link hc hlink _ ih => exact (find_link hc hlink).trans ih
    | last hc hlink => exact find_last hc hlink

/-- What a walk comes to has its directory, and is no link. -/
theorem Walk.place (h : Walk t links names cs n left) (hdir : t.IsDir names) :
    t.IsDir n.dropLast ∧ t.link n = none := by
  induction h with
  | here => exact ⟨isDir_dropLast hdir, hdir.link_eq_none⟩
  | up _ ih => exact ih (isDir_dropLast hdir)
  | dir _ hthere _ ih => exact ih hthere
  | link _ _ _ ih => exact ih (isDir_start hdir _)
  | last _ hlink => exact ⟨by rwa [List.dropLast_concat], hlink⟩

/-- A way goes on from a directory. -/
theorem Walk.append {m ds : List String} {k : ℕ} (h : Walk t links names cs m k)
    (hdir : t.IsDir m) (h' : Walk t k m ds n left) : Walk t links names (cs ++ ds) n left := by
  induction h with
  | here => exact h'
  | up _ ih => exact .up (ih hdir h')
  | dir hc hthere _ ih => exact .dir hc hthere (ih hdir h')
  | link hc hlink _ ih =>
      have hrest := ih hdir h'
      rw [List.append_assoc] at hrest
      exact .link hc hlink hrest
  | last hc _ => exact .dir hc hdir h'

/-- A way from a directory to a directory comes to directories before. -/
theorem Walk.split {xs ys : List String} (h : Walk t links names cs n left) (hcs : cs = xs ++ ys)
    (hstart : t.IsDir names) (hend : t.IsDir n) :
    ∃ m k, Walk t links names xs m k ∧ t.IsDir m ∧ Walk t k m ys n left := by
  induction h generalizing xs with
  | here =>
      obtain ⟨rfl, rfl⟩ := List.append_eq_nil_iff.1 hcs.symm
      exact ⟨_, _, .here, hstart, .here⟩
  | up hwalk ih =>
      rcases xs with - | ⟨x, xs⟩
      · obtain rfl : _ = ys := hcs
        exact ⟨_, _, .here, hstart, .up hwalk⟩
      · obtain ⟨rfl, hrest⟩ := List.cons.inj hcs
        obtain ⟨m, k, hxs, hm, hys⟩ := ih hrest (isDir_dropLast hstart) hend
        exact ⟨m, k, .up hxs, hm, hys⟩
  | dir hc hthere hwalk ih =>
      rcases xs with - | ⟨x, xs⟩
      · obtain rfl : _ = ys := hcs
        exact ⟨_, _, .here, hstart, .dir hc hthere hwalk⟩
      · obtain ⟨rfl, hrest⟩ := List.cons.inj hcs
        obtain ⟨m, k, hxs, hm, hys⟩ := ih hrest hthere hend
        exact ⟨m, k, .dir hc hthere hxs, hm, hys⟩
  | link hc hlink hwalk ih =>
      rcases xs with - | ⟨x, xs⟩
      · obtain rfl : _ = ys := hcs
        exact ⟨_, _, .here, hstart, .link hc hlink hwalk⟩
      · obtain ⟨rfl, rfl⟩ := List.cons.inj hcs
        obtain ⟨m, k, hxs, hm, hys⟩ := ih (List.append_assoc _ _ _).symm (isDir_start hstart _) hend
        exact ⟨m, k, .link hc hlink hxs, hm, hys⟩
  | last hc hlink =>
      rcases xs with - | ⟨x, xs⟩
      · obtain rfl : _ = ys := hcs
        exact ⟨_, _, .here, hstart, .last hc hlink⟩
      · obtain ⟨rfl, hnil⟩ := List.cons.inj hcs
        obtain ⟨rfl, rfl⟩ := List.append_eq_nil_iff.1 hnil.symm
        exact ⟨_, _, .last hc hlink, hend, .here⟩

/-- What is there has directories above it. -/
theorem isDir_of_entry (h : t.entry (names ++ c :: cs) ≠ none) : t.IsDir names := by
  induction cs generalizing names c with
  | nil => exact t.closed names c h
  | cons d cs ih =>
      have hnext : t.IsDir (names ++ [c]) := by
        refine ih (c := d) ?_
        rwa [List.append_assoc]
      exact t.closed names c (by rw [hnext]; exact Option.some_ne_none _)

/-- **What is there is found**, by components that lead down. -/
theorem walk_of_entry (hdown : ∀ c ∈ cs, c ≠ "..") (h : t.entry (names ++ cs) ≠ none)
    (hlink : t.link (names ++ cs) = none) : Walk t links names cs (names ++ cs) links := by
  induction cs generalizing names with
  | nil => simpa using Walk.here
  | cons c cs ih =>
      have hc : c ≠ ".." := hdown c List.mem_cons_self
      rcases cs with - | ⟨d, cs⟩
      · exact .last hc hlink
      · have hassoc : names ++ c :: d :: cs = names ++ [c] ++ d :: cs := by simp
        rw [hassoc] at h hlink ⊢
        exact .dir hc (isDir_of_entry h)
          (ih (fun d hd => hdown d (List.mem_cons_of_mem _ hd)) h hlink)

/-! ## Where the links lead -/

/-- The same as `findFrom`, but what is missing is taken for a directory. -/
def followFrom (t : FileTree) (links : ℕ)
    (jump : List String → List String → Option (List String × ℕ)) :
    List String → List String → Option (List String × ℕ)
  | names, [] => some (names, links)
  | names, c :: cs =>
      if c = ".." then followFrom t links jump names.dropLast cs
      else
        match t.link (names ++ [c]) with
        | some target => jump (start names target) (target.parts ++ cs)
        | none => followFrom t links jump (names ++ [c]) cs

/-- Where the components lead from `names`, links followed, and how many may still be. -/
def follow (t : FileTree) : ℕ → List String → List String → Option (List String × ℕ)
  | 0 => followFrom t 0 fun _ _ => none
  | links + 1 => followFrom t (links + 1) (follow t links)

theorem follow_nil (t : FileTree) (links : ℕ) (names : List String) :
    t.follow links names [] = some (names, links) := by
  cases links <;> rfl

theorem follow_up (t : FileTree) (links : ℕ) (names cs : List String) :
    t.follow links names (".." :: cs) = t.follow links names.dropLast cs := by
  cases links <;> rfl

theorem follow_link {target : PurePath} (hc : c ≠ "..")
    (hlink : t.link (names ++ [c]) = some target) :
    t.follow (links + 1) names (c :: cs) =
      t.follow links (start names target) (target.parts ++ cs) := by
  rw [follow, followFrom, if_neg hc, hlink]

theorem follow_name (hc : c ≠ "..") (hlink : t.link (names ++ [c]) = none) :
    t.follow links names (c :: cs) = t.follow links (names ++ [c]) cs := by
  cases links <;> rw [follow, followFrom, if_neg hc, hlink]

/-- **What is found is where the links lead.** -/
theorem Walk.follow (h : Walk t links names cs n left) :
    t.follow links names cs = some (n, left) := by
  induction h with
  | here => exact follow_nil t _ _
  | up _ ih => exact (follow_up t _ _ _).trans ih
  | dir hc hdir _ ih => exact (follow_name hc hdir.link_eq_none).trans ih
  | link hc hlink _ ih => exact (follow_link hc hlink).trans ih
  | last hc hlink => exact (follow_name hc hlink).trans (follow_nil t _ _)

/-- It depends on the links only. -/
theorem follow_congr (h : ∀ n, t'.link n = t.link n) (links : ℕ) (names cs : List String) :
    t'.follow links names cs = t.follow links names cs := by
  have hfrom (jump : List String → List String → Option (List String × ℕ)) (links : ℕ) :
      followFrom t' links jump = followFrom t links jump := by
    funext names cs
    induction cs generalizing names with
    | nil => rfl
    | cons c cs ih => rw [followFrom, followFrom, h, ih, ih]
  have hall : t'.follow links = t.follow links := by
    induction links with
    | zero => exact hfrom _ 0
    | succ k ih => rw [follow, follow, ih, hfrom]
  rw [hall]

theorem follow_limit {target : PurePath} (hc : c ≠ "..")
    (hlink : t.link (names ++ [c]) = some target) : t.follow 0 names (c :: cs) = none := by
  rw [follow, followFrom, if_neg hc, hlink]

/-- The cases of a path that is followed: the links that are left become fewer, or the names that
are to come. -/
theorem follow_induct (t : FileTree) {motive : ℕ → List String → List String → Prop}
    (nil : ∀ links names, motive links names [])
    (up : ∀ links names cs, motive links names.dropLast cs → motive links names (".." :: cs))
    (name : ∀ links names c cs, c ≠ ".." → t.link (names ++ [c]) = none →
      motive links (names ++ [c]) cs → motive links names (c :: cs))
    (limit : ∀ names c cs target, c ≠ ".." → t.link (names ++ [c]) = some target →
      motive 0 names (c :: cs))
    (link : ∀ links names c cs target, c ≠ ".." → t.link (names ++ [c]) = some target →
      motive links (start names target) (target.parts ++ cs) → motive (links + 1) names (c :: cs))
    (links : ℕ) (names cs : List String) : motive links names cs := by
  induction links generalizing names cs with
  | zero =>
      induction cs generalizing names with
      | nil => exact nil 0 names
      | cons c cs ih =>
          by_cases hc : c = ".."
          · exact hc ▸ up 0 names cs (ih _)
          · cases hlink : t.link (names ++ [c]) with
            | none => exact name 0 names c cs hc hlink (ih _)
            | some target => exact limit names c cs target hc hlink
  | succ k hlinks =>
      induction cs generalizing names with
      | nil => exact nil (k + 1) names
      | cons c cs ih =>
          by_cases hc : c = ".."
          · exact hc ▸ up (k + 1) names cs (ih _)
          · cases hlink : t.link (names ++ [c]) with
            | none => exact name (k + 1) names c cs hc hlink (ih _)
            | some target => exact link k names c cs target hc hlink (hlinks _ _)

/-- A path is followed part by part. -/
theorem follow_append (t : FileTree) (links : ℕ) (names cs ds : List String) :
    t.follow links names (cs ++ ds) =
      (t.follow links names cs).bind fun r => t.follow r.2 r.1 ds := by
  induction links, names, cs using t.follow_induct with
  | nil links names =>
      rw [List.nil_append, follow_nil]
      rfl
  | up links names cs ih => rw [List.cons_append, follow_up, follow_up, ih]
  | name links names c cs hc hlink ih =>
      rw [List.cons_append, follow_name hc hlink, follow_name hc hlink, ih]
  | limit names c cs target hc hlink =>
      rw [List.cons_append, follow_limit hc hlink, follow_limit hc hlink]
      rfl
  | link links names c cs target hc hlink ih =>
      rw [List.cons_append, follow_link hc hlink, follow_link hc hlink, ← List.append_assoc, ih]

/-- Without links on the way, components that lead down lead there. -/
theorem follow_down (hdown : ∀ c ∈ cs, c ≠ "..")
    (hlinks : ∀ n, names <+: n → n <+: names ++ cs → n ≠ names → t.link n = none) :
    t.follow links names cs = some (names ++ cs, links) := by
  induction cs generalizing names with
  | nil => rw [follow_nil, List.append_nil]
  | cons c cs ih =>
      have hassoc : names ++ c :: cs = names ++ [c] ++ cs := by simp
      have hlink : t.link (names ++ [c]) = none :=
        hlinks _ (List.prefix_append _ _) (hassoc ▸ List.prefix_append _ _) (by simp)
      rw [follow_name (hdown c List.mem_cons_self) hlink, hassoc]
      refine ih (fun d hd => hdown d (List.mem_cons_of_mem _ hd)) fun n hn hn' _ => ?_
      refine hlinks n ((List.prefix_append _ _).trans hn) (hassoc ▸ hn') ?_
      rintro rfl
      have hlength := hn.length_le
      simp only [List.length_append, List.length_singleton] at hlength
      omega

theorem plain_start (hnames : ∀ c ∈ names, Path.Plain c) (p : PurePath) :
    ∀ c ∈ start names p, Path.Plain c := by
  intro c hc
  rw [start] at hc
  split at hc
  · cases hc
  · exact hnames c hc

/-- Where a path leads there are names. -/
theorem plain_follow {r : List String × ℕ} (hnames : ∀ c ∈ names, Path.Plain c)
    (hcs : ∀ c ∈ cs, Path.Part c) (h : t.follow links names cs = some r) :
    ∀ c ∈ r.1, Path.Plain c := by
  induction links, names, cs using t.follow_induct with
  | nil links names =>
      rw [follow_nil] at h
      obtain rfl := Option.some.inj h
      exact hnames
  | up links names cs ih =>
      rw [follow_up] at h
      exact ih (fun c hc => hnames c (List.mem_of_mem_dropLast hc))
        (fun c hc => hcs c (List.mem_cons_of_mem _ hc)) h
  | name links names c cs hc hlink ih =>
      rw [follow_name hc hlink] at h
      refine ih (List.forall_mem_append.2 ⟨hnames, ?_⟩)
        (fun c hc => hcs c (List.mem_cons_of_mem _ hc)) h
      exact List.forall_mem_singleton.2 ⟨hcs c List.mem_cons_self, hc⟩
  | limit names c cs target hc hlink =>
      rw [follow_limit hc hlink] at h
      cases h
  | link links names c cs target hc hlink ih =>
      rw [follow_link hc hlink] at h
      exact ih (plain_start hnames target) (List.forall_mem_append.2
        ⟨target.ok, fun c hc => hcs c (List.mem_cons_of_mem _ hc)⟩) h

/-! ## Changes that keep the ways -/

/-- No directory is lost, and the links are the same. -/
structure Extends (t t' : FileTree) : Prop where
  dirs : ∀ n, t.IsDir n → t'.IsDir n
  links : ∀ n, t'.link n = t.link n

theorem Extends.refl (t : FileTree) : Extends t t := ⟨fun _ => id, fun _ => rfl⟩

theorem Extends.trans {t'' : FileTree} (h : Extends t t') (h' : Extends t' t'') : Extends t t'' :=
  ⟨fun n hn => h'.dirs n (h.dirs n hn), fun n => (h'.links n).trans (h.links n)⟩

/-- The ways stay. -/
theorem Walk.mono (h : Walk t links names cs n left) (hext : Extends t t') :
    Walk t' links names cs n left := by
  induction h with
  | here => exact .here
  | up _ ih => exact .up ih
  | dir hc hdir _ ih => exact .dir hc (hext.dirs _ hdir) ih
  | link hc hlink _ ih => exact .link hc ((hext.links _).trans hlink) ih
  | last hc hlink => exact .last hc ((hext.links _).trans hlink)

theorem extends_put {e : Entry} (hdir : t.IsDir names.dropLast) (hfree : ¬t.IsDir names)
    (hlink : t.link names = none) (he : ∀ target, e ≠ .link target) :
    Extends t (t.put names e hdir hfree) :=
  ⟨fun n hn => (put_isDir hdir hfree n).2 (.inl hn), fun n => put_link hdir hfree n hlink he⟩

/-! ## Making directories -/

/-- The directory that a component leads to is made, if there is nothing.  A link has to lead to
a directory. -/
def enterDir (t : FileTree) (links : ℕ) (names : List String) (c : String) :
    Option (FileTree × List String × ℕ) :=
  if c = ".." then some (t, names.dropLast, links)
  else
    match hentry : t.entry (names ++ [c]) with
    | some .dir => some (t, names ++ [c], links)
    | some (.file _) => none
    | some (.link _) =>
        match t.find links names [c] with
        | some (n, left) => if t.IsDir n then some (t, n, left) else none
        | none => none
    | none =>
        if h : t.IsDir names then
          some (t.put (names ++ [c]) .dir (by rwa [List.dropLast_concat]) (by simp [IsDir, hentry]),
            names ++ [c], links)
        else none

/-- Every directory on the way is made, from `names` on; those that are made stay when one
cannot be. -/
def makeDirs : ℕ → List String → List String → FileTree → FileTree × Bool
  | _, _, [], t => (t, true)
  | links, names, c :: cs, t =>
      match t.enterDir links names c with
      | some (t', n, left) => makeDirs left n cs t'
      | none => (t, false)

/-- **What one component does**: the tree is as it was, or has the directory it had nothing at. -/
theorem enterDir_cases (h : t.enterDir links names c = some (t', n, left)) :
    (t' = t ∧ Walk t links names [c] n left ∧ (t.IsDir names → t.IsDir n)) ∨
      (c ≠ ".." ∧ t.entry (names ++ [c]) = none ∧ n = names ++ [c] ∧ left = links ∧
        ∃ hdir hfree, t' = t.put (names ++ [c]) .dir hdir hfree) := by
  unfold enterDir at h
  split at h
  · rename_i hup
    obtain ⟨rfl, rfl, rfl⟩ : t = t' ∧ names.dropLast = n ∧ links = left := by simpa using h
    exact .inl ⟨rfl, hup ▸ .up .here, isDir_dropLast⟩
  · rename_i hc
    split at h
    · rename_i hentry
      obtain ⟨rfl, rfl, rfl⟩ : t = t' ∧ names ++ [c] = n ∧ links = left := by simpa using h
      exact .inl ⟨rfl, .dir hc hentry .here, fun _ => hentry⟩
    · cases h
    · split at h
      · rename_i m k hfind
        split at h
        · rename_i hdir
          obtain ⟨rfl, rfl, rfl⟩ : t = t' ∧ m = n ∧ k = left := by simpa using h
          exact .inl ⟨rfl, find_eq_some_iff.1 hfind, fun _ => hdir⟩
        · cases h
      · cases h
    · rename_i hentry
      split at h
      · rename_i hdir
        simp only [Option.some.injEq, Prod.mk.injEq] at h
        obtain ⟨rfl, rfl, rfl⟩ := h
        exact .inr ⟨hc, hentry, rfl, rfl, _, _, rfl⟩
      · cases h

theorem enterDir_extends (h : t.enterDir links names c = some (t', n, left)) :
    Extends t t' ∧ ∀ m, t'.content m = t.content m := by
  rcases enterDir_cases h with ⟨rfl, -, -⟩ | ⟨-, hentry, rfl, -, hdir, hfree, rfl⟩
  · exact ⟨.refl _, fun _ => rfl⟩
  · refine ⟨extends_put hdir hfree (by rw [link, hentry]) (by simp), fun m => ?_⟩
    rw [put_content]
    split
    · rename_i hm
      rw [hm, content, hentry]
    · rfl

theorem enterDir_walk (hstart : t.IsDir names)
    (h : t.enterDir links names c = some (t', n, left)) :
    Walk t' links names [c] n left ∧ t'.IsDir n := by
  rcases enterDir_cases h with ⟨rfl, hwalk, hend⟩ | ⟨hc, -, rfl, rfl, hdir, hfree, rfl⟩
  · exact ⟨hwalk, hend hstart⟩
  · have hmade : (t.put (names ++ [c]) .dir hdir hfree).IsDir (names ++ [c]) :=
      (put_isDir hdir hfree _).2 (.inr ⟨rfl, rfl⟩)
    exact ⟨.dir hc hmade .here, hmade⟩

/-- Making directories changes no file and no link, and loses no directory. -/
theorem makeDirs_extends (cs : List String) (links : ℕ) (names : List String) (t : FileTree) :
    Extends t (makeDirs links names cs t).1 ∧
      ∀ m, (makeDirs links names cs t).1.content m = t.content m := by
  induction cs generalizing links names t with
  | nil => exact ⟨.refl t, fun _ => rfl⟩
  | cons c cs ih =>
      rw [makeDirs]
      split
      · rename_i t₁ n left h
        obtain ⟨hext, hcontent⟩ := enterDir_extends h
        obtain ⟨hext', hcontent'⟩ := ih left n t₁
        exact ⟨hext.trans hext', fun m => (hcontent' m).trans (hcontent m)⟩
      · exact ⟨.refl t, fun _ => rfl⟩

/-- **What has been made is found.** -/
theorem makeDirs_walk (hstart : t.IsDir names) (h : makeDirs links names cs t = (t', true)) :
    ∃ n left, Walk t' links names cs n left ∧ t'.IsDir n := by
  induction cs generalizing links names t with
  | nil =>
      obtain rfl : t = t' := congrArg Prod.fst h
      exact ⟨names, links, .here, hstart⟩
  | cons c cs ih =>
      rw [makeDirs] at h
      split at h
      · rename_i t₁ m k henter
        obtain ⟨hwalk, hdir⟩ := enterDir_walk hstart henter
        obtain ⟨n, left, hrest, hend⟩ := ih hdir h
        have hext : Extends t₁ t' := by
          have hmade := (makeDirs_extends cs k m t₁).1
          rwa [h] at hmade
        exact ⟨n, left, (hwalk.mono hext).append (hext.dirs m hdir) hrest, hend⟩
      · cases h

/-- A text is put under a name: its directory has to be there, and there must not be one at the
name. -/
def write (t : FileTree) (names : List String) (text : String) : Option FileTree :=
  if h : t.IsDir names.dropLast ∧ ¬t.IsDir names then some (t.put names (.file text) h.1 h.2)
  else none

theorem free_of_write {text : String} (h : t.write names text = some t') :
    t.IsDir names.dropLast ∧ ¬t.IsDir names := by
  unfold write at h
  split at h
  · assumption
  · cases h

theorem write_content {text : String} (h : t.write names text = some t') (m : List String) :
    t'.content m = if m = names then some text else t.content m := by
  unfold write at h
  split at h
  · rename_i hfree
    obtain rfl := Option.some.inj h
    exact put_content hfree.1 hfree.2 m
  · cases h

/-- A write loses no directory, and no link but one it is put over. -/
theorem write_extends {text : String} (h : t.write names text = some t')
    (hlink : t.link names = none) : Extends t t' := by
  unfold write at h
  split at h
  · rename_i hfree
    obtain rfl := Option.some.inj h
    exact extends_put hfree.1 hfree.2 hlink (by simp)
  · cases h

/-! ## Paths in a working directory -/

/-- Where a call of the system finds a path, in the directory `dir`. -/
def place (t : FileTree) (dir : List String) (p : PurePath) : Option (List String) :=
  (t.find maxLinks (start dir p) p.parts).map Prod.fst

/-- Where a path leads, whether it is there or not. -/
def leads (t : FileTree) (dir : List String) (p : PurePath) : Option (List String) :=
  (t.follow maxLinks (start dir p) p.parts).map Prod.fst

/-- The directory of a path is made, with those on its way. -/
def mkdirs (t : FileTree) (dir : List String) (p : PurePath) : FileTree × Bool :=
  makeDirs maxLinks (start dir p) p.parts t

/-- A text is written to the file of a path. -/
def writeText (t : FileTree) (dir : List String) (p : PurePath) (text : String) :
    Option FileTree :=
  (t.place dir p).bind fun names => t.write names text

section

variable {d : List String} {p : PurePath} {text : String}

theorem place_eq_some_iff :
    t.place d p = some n ↔ ∃ left, Walk t maxLinks (start d p) p.parts n left := by
  simp [place, Option.map_eq_some_iff, find_eq_some_iff]

theorem leads_of_place (h : t.place d p = some n) : t.leads d p = some n := by
  obtain ⟨left, hwalk⟩ := place_eq_some_iff.1 h
  rw [leads, hwalk.follow]
  rfl

/-- A path that leads somewhere does so from where its beginning leads. -/
theorem leads_of_append {q : PurePath} (hq : q.absolute = false)
    (h : t.leads d (p.append q) = some n) : ∃ m, t.leads d p = some m := by
  obtain ⟨hroot, hparts⟩ := p.append_of_relative hq
  rw [leads, start, PurePath.absolute, hroot, ← PurePath.absolute, ← start, hparts,
    follow_append] at h
  rw [leads]
  cases hp : t.follow maxLinks (start d p) p.parts with
  | none =>
      rw [hp] at h
      cases h
  | some r => exact ⟨r.1, rfl⟩

/-- Without links further down, it leads further down. -/
theorem leads_append_down {q : PurePath} {m : List String} (hq : q.absolute = false)
    (hdown : ∀ c ∈ q.parts, c ≠ "..") (h : t.leads d p = some m)
    (hlinks : ∀ n, m <+: n → n <+: m ++ q.parts → n ≠ m → t.link n = none) :
    t.leads d (p.append q) = some (m ++ q.parts) := by
  obtain ⟨hroot, hparts⟩ := p.append_of_relative hq
  obtain ⟨⟨m, k⟩, hp, rfl⟩ := Option.map_eq_some_iff.1 h
  rw [leads, start, PurePath.absolute, hroot, ← PurePath.absolute, ← start, hparts, follow_append,
    hp, Option.bind_some, follow_down hdown hlinks]
  rfl

/-- A path from the root that leads down, without links on its way, leads to its own names. -/
theorem leads_of_down (habs : p.absolute = true) (hdown : ∀ c ∈ p.parts, c ≠ "..")
    (hlinks : ∀ n, n <+: p.parts → t.link n = none) : t.leads d p = some p.parts := by
  rw [leads, start, if_pos habs,
    follow_down hdown fun n _ hn _ => hlinks n (by rwa [List.nil_append] at hn)]
  rfl

/-- **What is there is found**, by a path that goes on downward from a directory. -/
theorem place_append {q : PurePath} {m : List String} (h : t.place d p = some m) (hm : t.IsDir m)
    (hq : q.absolute = false) (hdown : ∀ c ∈ q.parts, c ≠ "..")
    (hentry : t.entry (m ++ q.parts) ≠ none) (hlink : t.link (m ++ q.parts) = none) :
    t.place d (p.append q) = some (m ++ q.parts) := by
  obtain ⟨hroot, hparts⟩ := p.append_of_relative hq
  obtain ⟨left, hwalk⟩ := place_eq_some_iff.1 h
  refine place_eq_some_iff.2 ⟨left, ?_⟩
  rw [start, PurePath.absolute, hroot, ← PurePath.absolute, ← start, hparts]
  exact hwalk.append hm (walk_of_entry hdown hentry hlink)

theorem Extends.leads (h : Extends t t') (d : List String) (p : PurePath) :
    t'.leads d p = t.leads d p := by
  rw [FileTree.leads, follow_congr h.links, FileTree.leads]

theorem Extends.place (hext : Extends t t') (h : t.place d p = some n) : t'.place d p = some n := by
  obtain ⟨left, hwalk⟩ := place_eq_some_iff.1 h
  exact place_eq_some_iff.2 ⟨left, hwalk.mono hext⟩

theorem place_spec (hd : t.IsDir d) (h : t.place d p = some n) :
    t.IsDir n.dropLast ∧ t.link n = none := by
  obtain ⟨left, hwalk⟩ := place_eq_some_iff.1 h
  exact hwalk.place (isDir_start hd p)

theorem mkdirs_extends (t : FileTree) (d : List String) (p : PurePath) :
    Extends t (t.mkdirs d p).1 ∧ ∀ n, (t.mkdirs d p).1.content n = t.content n :=
  makeDirs_extends _ _ _ _

theorem place_of_mkdirs (hd : t.IsDir d) (h : t.mkdirs d p = (t', true)) :
    ∃ n, t'.place d p = some n ∧ t'.IsDir n := by
  obtain ⟨n, left, hwalk, hdir⟩ := makeDirs_walk (isDir_start hd p) h
  exact ⟨n, place_eq_some_iff.2 ⟨left, hwalk⟩, hdir⟩

end

end FileTree
end AgentSwarm
