import AgentSwarm.Lib.FileTree
import AgentSwarm.Worker.BadCalls

/-!
# Where a worker writes

`write_file` on a tree of files, where the worker runs in the directory `cwd`.  A path is taken
below the directory of the role; `..` in it leads out again, and so does a link on its way, as
`run_command` may have made it.

* `treeHost` — the system calls on a tree; `refuses` tells what the system says of a path that
  it does not take, as for one with a NUL.
* `rolePlace` — the directory of the role.
* `Confined` — a call changes only files beneath the directory of the role.
* `Opens` — the file that a call comes to write.
* `StaysIn` — the path leads beneath that directory, or the call changes nothing.
* `writeFile_leaves` — what a call leaves.
* `writesConfined_iff` — **a call is confined exactly when its path stays in**.
* `staysIn_of_downward` — as a path without `..` does, for a role that is a name, when nothing
  below its directory is a link.
* `sibling_written` — `../backend/app.py` of a `frontend`.
-/

namespace AgentSwarm
namespace FileTools

open AgentSwarm.Path (PurePath Location Plain enter)
open FileTree (Extends)
open Worker.Settings (ToolDirs)

/-! ## The host -/

/-- The system calls on a tree.  A path that is refused is not followed; everything else is as
`other` has it. -/
def treeHost (refuses : PurePath → Option Exn) (cwd : Location) (other : Host FileTree) :
    Host FileTree :=
  { other with
    mkdir := fun p t =>
      match refuses p with
      | some e => (.error e, t)
      | none =>
          match t.mkdirs cwd.names p with
          | (t', true) => (.ok (), t')
          | (t', false) => (.error (.osError p.str), t')
    writeText := fun p text t =>
      match refuses p with
      | some e => (.error e, t)
      | none =>
          match t.writeText cwd.names p text with
          | some t' => (.ok (), t')
          | none => (.error (.osError p.str), t) }

/-- What `write_file` leaves. -/
def written (refuses : PurePath → Option Exn) (cwd : Location) (other : Host FileTree)
    (dirs : ToolDirs) (args : Json) (t : FileTree) : FileTree :=
  (executeFileTool dirs (treeHost refuses cwd other) "write_file" args t).2

/-! ## The property and the condition -/

/-- Further down than the directory. -/
def Beneath (names dir : List String) : Prop := dir <+: names ∧ names ≠ dir

instance (names dir : List String) : Decidable (Beneath names dir) :=
  inferInstanceAs (Decidable (_ ∧ _))

/-- The place of the directory of the role: the shared directory, links followed, and the name of
the role below it.  What has that name should be a directory; a link there leads out. -/
def rolePlace (cwd : Location) (dirs : ToolDirs) (t : FileTree) : Option (List String) :=
  let role := PurePath.ofString dirs.rolePrefix
  if role.absolute then some (role.parts.foldl enter [])
  else (t.leads cwd.names (sharedPath dirs)).map fun shared => role.parts.foldl enter shared

/-- The call creates and changes only files beneath the directory of the role. -/
def Confined (refuses : PurePath → Option Exn) (cwd : Location) (other : Host FileTree)
    (dirs : ToolDirs) (args : Json) (t : FileTree) : Prop :=
  ∀ names, (written refuses cwd other dirs args t).content names ≠ t.content names →
    ∃ dir, rolePlace cwd dirs t = some dir ∧ Beneath names dir

/-- The tree when the two directories have been made, and whether both could be. -/
def prepared (cwd : Location) (dirs : ToolDirs) (target : PurePath) (t : FileTree) :
    FileTree × Bool :=
  let role := t.mkdirs cwd.names (roleDir dirs)
  let both := role.1.mkdirs cwd.names (parent target)
  (both.1, role.2 && both.2)

/-- The call comes to write the file: no path is refused, the two directories can be made, and
then the path is found, in a directory and not as one. -/
structure Opens (refuses : PurePath → Option Exn) (cwd : Location) (dirs : ToolDirs)
    (target : PurePath) (t : FileTree) (names : List String) : Prop where
  taken : refuses (roleDir dirs) = none ∧ refuses (parent target) = none ∧ refuses target = none
  made : (prepared cwd dirs target t).2 = true
  place : (prepared cwd dirs target t).1.place cwd.names target = some names
  directory : (prepared cwd dirs target t).1.IsDir names.dropLast
  free : ¬(prepared cwd dirs target t).1.IsDir names

/-- The path leads beneath the directory of the role; or the file it leads to has the text
already; or there is no file that the call comes to write. -/
def StaysIn (refuses : PurePath → Option Exn) (cwd : Location) (dirs : ToolDirs) (t : FileTree)
    (path text : String) : Prop :=
  let target := resolvePath dirs path
  (∃ names dir, t.leads cwd.names target = some names ∧ rolePlace cwd dirs t = some dir ∧
      Beneath names dir) ∨
    (∃ names, t.leads cwd.names target = some names ∧ t.content names = some text) ∨
    ∀ names, ¬Opens refuses cwd dirs target t names

/-! ## What a call leaves -/

/-- Reading a field that has to be a text: what is left when it is not one is what there is. -/
theorem item_bind_snd {W α : Type} {args : Json} {key : String} {f : Json → Eff W Exn α} {w : W}
    (hf : ∀ value, (∀ text, value ≠ .str text) → (f value w).2 = w) :
    ((Eff.ofExcept (item args key) >>= f) w).2 =
      match textField args key with
      | none => w
      | some text => (f (.str text) w).2 := by
  rw [Eff.bind_snd, textField]
  cases args with
  | obj fields =>
      rw [item, field]
      cases Dict.get fields key with
      | none => rfl
      | some value =>
          cases value with
          | str text => rfl
          | _ => exact hf _ (fun text h => by cases h)
  | _ => rfl

/-- **What a call leaves**, of a host: each call of the system on what the one before it has
left, up to the first that raises or the first field that is missing. -/
theorem writeFile_leaves {W : Type} (dirs : ToolDirs) (host : Host W) (args : Json) (w : W) :
    (executeFileTool dirs host "write_file" args w).2 =
      match host.mkdir (roleDir dirs) w with
      | (.error _, w) => w
      | (.ok _, w) =>
          match textField args "path" with
          | none => w
          | some path =>
              match host.mkdir (parent (resolvePath dirs path)) w with
              | (.error _, w) => w
              | (.ok _, w) =>
                  match textField args "content" with
                  | none => w
                  | some text => (host.writeText (resolvePath dirs path) text w).2 := by
  rw [executeFileTool, Eff.bind_snd]
  rcases host.mkdir (roleDir dirs) w with ⟨e | u, w⟩
  · rfl
  · show (writeFile dirs host args w).2 = _
    rw [writeFile, Eff.catching_snd]
    refine (item_bind_snd ?_).trans ?_
    · intro value hvalue
      rw [resolve_of_not_text dirs value hvalue]
      rfl
    · cases textField args "path" with
      | none => rfl
      | some path =>
          refine (Eff.bind_snd (host.mkdir (parent (resolvePath dirs path))) _ w).trans ?_
          dsimp only
          rcases host.mkdir (parent (resolvePath dirs path)) w with ⟨e | u, w⟩
          · rfl
          · refine (item_bind_snd ?_).trans ?_
            · intro value hvalue
              cases value with
              | str text => exact absurd rfl (hvalue text)
              | _ => rfl
            · cases textField args "content" with
              | none => rfl
              | some text =>
                  refine (Eff.bind_snd (host.writeText (resolvePath dirs path) text) _ w).trans ?_
                  dsimp only
                  rcases host.writeText (resolvePath dirs path) text w with ⟨e | u, w⟩ <;> rfl

/-! ## On a tree -/

section

variable {refuses : PurePath → Option Exn} {cwd : Location} {other : Host FileTree}
  {t t' : FileTree} {p : PurePath}

variable (refuses cwd other t p) in
/-- Making a directory changes no file, no link, and loses no directory. -/
theorem mkdir_extends : Extends t ((treeHost refuses cwd other).mkdir p t).2 ∧
    ∀ n, ((treeHost refuses cwd other).mkdir p t).2.content n = t.content n := by
  have hmade := FileTree.mkdirs_extends t cwd.names p
  simp only [treeHost]
  cases refuses p with
  | some e => exact ⟨.refl t, fun _ => rfl⟩
  | none =>
      rcases hdirs : t.mkdirs cwd.names p with ⟨t', _ | _⟩ <;>
        · rw [hdirs] at hmade
          exact hmade

theorem mkdir_ok_iff : (treeHost refuses cwd other).mkdir p t = (.ok (), t') ↔
    refuses p = none ∧ t.mkdirs cwd.names p = (t', true) := by
  simp only [treeHost]
  cases refuses p with
  | some e => simp
  | none => rcases t.mkdirs cwd.names p with ⟨t₁, _ | _⟩ <;> simp

theorem writeText_ok_iff {text : String} :
    (treeHost refuses cwd other).writeText p text t = (.ok (), t') ↔
      refuses p = none ∧ t.writeText cwd.names p text = some t' := by
  simp only [treeHost]
  cases refuses p with
  | some e => simp
  | none => cases t.writeText cwd.names p text <;> simp

/-- A write that fails leaves everything as it was. -/
theorem writeText_error {text : String} {e : Exn}
    (h : (treeHost refuses cwd other).writeText p text t = (.error e, t')) : t' = t := by
  simp only [treeHost] at h
  split at h
  · exact (congrArg Prod.snd h).symm
  · split at h
    · cases h
    · exact (congrArg Prod.snd h).symm

end

/-! ## Confinement -/

section

variable {refuses : PurePath → Option Exn} {cwd : Location} {other : Host FileTree}
  {dirs : ToolDirs} {args : Json} {t : FileTree} {path text : String}

/-- Making the two directories changes no file, no link, and loses no directory. -/
theorem prepared_extends (cwd : Location) (dirs : ToolDirs) (target : PurePath) (t : FileTree) :
    Extends t (prepared cwd dirs target t).1 ∧
      ∀ n, (prepared cwd dirs target t).1.content n = t.content n := by
  obtain ⟨hrole, hcontent⟩ := FileTree.mkdirs_extends t cwd.names (roleDir dirs)
  obtain ⟨hparent, hcontent'⟩ := FileTree.mkdirs_extends (t.mkdirs cwd.names (roleDir dirs)).1
    cwd.names (parent target)
  exact ⟨hrole.trans hparent, fun n => (hcontent' n).trans (hcontent n)⟩

/-- The file is where the path leads. -/
theorem Opens.leads {target : PurePath} {names : List String}
    (h : Opens refuses cwd dirs target t names) : t.leads cwd.names target = some names := by
  rw [← (prepared_extends cwd dirs target t).1.leads]
  exact FileTree.leads_of_place h.place

/-- The directory of the role has been made by then. -/
theorem Opens.isDir_role {target : PurePath} {names : List String}
    (h : Opens refuses cwd dirs target t names) (hcwd : t.IsDir cwd.names) (dir : List String)
    (hdir : t.leads cwd.names (roleDir dirs) = some dir) :
    (prepared cwd dirs target t).1.IsDir dir := by
  have hmade := h.made
  rcases hrole : t.mkdirs cwd.names (roleDir dirs) with ⟨t₁, made⟩
  simp only [prepared, hrole, Bool.and_eq_true] at hmade ⊢
  obtain ⟨n, hplace, hn⟩ := FileTree.place_of_mkdirs hcwd (hmade.1 ▸ hrole)
  have hext : Extends t t₁ := by
    have hext := (FileTree.mkdirs_extends t cwd.names (roleDir dirs)).1
    rwa [hrole] at hext
  have hleads := (hext.leads cwd.names (roleDir dirs)).symm.trans (FileTree.leads_of_place hplace)
  obtain rfl : dir = n := Option.some.inj (hdir.symm.trans hleads)
  exact (FileTree.mkdirs_extends t₁ cwd.names (parent target)).1.dirs dir hn

/-- **What a call changes**: the file that it comes to write, if there is one. -/
theorem written_content (n : List String) :
    (written refuses cwd other dirs args t).content n = t.content n ∨
      ∃ path text, textField args "path" = some path ∧ textField args "content" = some text ∧
        Opens refuses cwd dirs (resolvePath dirs path) t n ∧
        (written refuses cwd other dirs args t).content n = some text := by
  have hrole := (mkdir_extends refuses cwd other t (roleDir dirs)).2 n
  rw [written, writeFile_leaves]
  rcases h₁ : (treeHost refuses cwd other).mkdir (roleDir dirs) t with ⟨e | u, t₁⟩ <;>
    rw [h₁] at hrole
  · exact .inl hrole
  · cases hpath : textField args "path" with
    | none => exact .inl hrole
    | some path =>
        have hparent :=
          (mkdir_extends refuses cwd other t₁ (parent (resolvePath dirs path))).2 n
        dsimp only
        rcases h₂ : (treeHost refuses cwd other).mkdir (parent (resolvePath dirs path)) t₁ with
          ⟨e | u', t₂⟩ <;> rw [h₂] at hparent
        · exact .inl (hparent.trans hrole)
        · cases htext : textField args "content" with
          | none => exact .inl (hparent.trans hrole)
          | some text =>
              dsimp only
              rcases h₃ : (treeHost refuses cwd other).writeText (resolvePath dirs path) text t₂
                with ⟨e | u'', t₃⟩
              · obtain rfl := writeText_error h₃
                exact .inl (hparent.trans hrole)
              · obtain ⟨hrefuses₁, hmade₁⟩ := mkdir_ok_iff.1 h₁
                obtain ⟨hrefuses₂, hmade₂⟩ := mkdir_ok_iff.1 h₂
                obtain ⟨hrefuses₃, hwrite⟩ := writeText_ok_iff.1 h₃
                obtain ⟨names, hplace, hput⟩ := Option.bind_eq_some_iff.1 hwrite
                have hcontent := FileTree.write_content hput n
                by_cases hn : n = names
                · rw [if_pos hn] at hcontent
                  subst hn
                  obtain ⟨hdirectory, hfree⟩ := FileTree.free_of_write hput
                  have hprepared : prepared cwd dirs (resolvePath dirs path) t = (t₂, true) := by
                    simp [prepared, hmade₁, hmade₂]
                  refine .inr ⟨path, text, rfl, rfl,
                    ⟨⟨hrefuses₁, hrefuses₂, hrefuses₃⟩, ?_, ?_, ?_, ?_⟩, hcontent⟩
                  all_goals rw [hprepared]
                  · exact hplace
                  · exact hdirectory
                  · exact hfree
                · rw [if_neg hn] at hcontent
                  exact .inl (hcontent.trans (hparent.trans hrole))

end

theorem components_dropWhile (l : List Char) :
    Path.components (String.ofList (l.dropWhile (· = '/'))) =
      Path.components (String.ofList l) := by
  induction l with
  | nil => rfl
  | cons c l ih =>
      by_cases hc : c = '/'
      · subst hc
        have hslash : Path.components (String.ofList ('/' :: l)) =
            Path.components (String.ofList l) := by
          simp [Path.components, List.splitOn_cons_eq_if_modifyHead]
        rw [hslash, ← ih]
        simp
      · simp [hc]

/-- A text that begins with a name before a slash, or is one, has it as its first component. -/
theorem components_of_first {role : String} (hrole : Path.Part role) {l : List Char}
    (h : String.ofList (l.takeWhile (· ≠ '/')) = role) :
    ∃ rest, Path.components (String.ofList l) = role :: rest := by
  have hhead : l.takeWhile (· ≠ '/') = role.toList := by rw [← h, String.toList_ofList]
  have hl : l = role.toList ++ l.dropWhile (· ≠ '/') := by
    rw [← hhead, List.takeWhile_append_dropWhile]
  have hfirst : (role.toList.splitOn '/') = [role.toList] :=
    List.splitOn_eq_singleton hrole.2.2
  cases hrest : l.dropWhile (· ≠ '/') with
  | nil =>
      rw [hrest, List.append_nil] at hl
      refine ⟨[], ?_⟩
      rw [hl, String.ofList_toList, Path.components_of_part hrole]
  | cons c tail =>
      have hc : c = '/' := by
        have hnot := List.head?_dropWhile_not (· ≠ '/') l
        rw [hrest] at hnot
        simpa using hnot
      subst hc
      rw [hrest] at hl
      refine ⟨Path.components (String.ofList tail), ?_⟩
      have hsplit : l.splitOn '/' = role.toList :: tail.splitOn '/' := by
        rw [hl, List.splitOn_append_cons_self_of_not_mem hrole.2.2]
      simp [Path.components, hsplit, hrole.1, hrole.2.1]

/-- The path below the shared directory, of a path of the worker. -/
def sharedName (dirs : ToolDirs) (path : String) : String :=
  let p := path.toList.dropWhile (· = '/')
  if String.ofList (p.takeWhile (· ≠ '/')) = dirs.rolePrefix then String.ofList p
  else dirs.rolePrefix ++ "/" ++ String.ofList p

theorem not_absolute_stripped (path : String) :
    (PurePath.ofString (String.ofList (path.toList.dropWhile (· = '/')))).absolute = false := by
  have hhead := List.head?_dropWhile_not (· = '/') path.toList
  rw [PurePath.absolute_eq_false, PurePath.ofString_root, String.toList_ofList]
  refine Path.rootOf_of_head ?_
  cases hl : path.toList.dropWhile (· = '/') with
  | nil => simp
  | cons c l =>
      rw [hl] at hhead
      simpa using hhead

section

variable {dirs : ToolDirs} {path : String}

/-- **The two names lead to one file.** -/
theorem join_sharedName (path : String) (hrole : ∃ c ∈ dirs.rolePrefix.toList, c ≠ '/') :
    (sharedPath dirs).join (sharedName dirs path) = resolvePath dirs path := by
  unfold sharedName resolvePath
  dsimp only
  split
  · rfl
  · exact ((sharedPath dirs).join_slash hrole (not_absolute_stripped path)).symm

/-- A path without `..` has the role as its first component below the shared directory. -/
theorem sharedName_parts (hrole : Plain dirs.rolePrefix)
    (hdown : ∀ c ∈ Path.components path, c ≠ "..") :
    ∃ rest, (PurePath.ofString (sharedName dirs path)).absolute = false ∧
      (PurePath.ofString (sharedName dirs path)).parts = dirs.rolePrefix :: rest ∧
      ∀ c ∈ rest, c ≠ ".." := by
  have hrel := not_absolute_stripped path
  have hstrip := components_dropWhile path.toList
  rw [String.ofList_toList] at hstrip
  unfold sharedName
  generalize path.toList.dropWhile (· = '/') = l at hrel hstrip
  dsimp only
  split
  · rename_i hfirst
    obtain ⟨rest, hcomponents⟩ := components_of_first hrole.1 hfirst
    refine ⟨rest, hrel, hcomponents, fun c hc => hdown c ?_⟩
    rw [← hstrip, hcomponents]
    exact List.mem_cons_of_mem _ hc
  · obtain ⟨hroot, hparts⟩ := (PurePath.ofString dirs.rolePrefix).append_of_relative hrel
    obtain ⟨habsRole, hpartsRole⟩ := PurePath.ofString_of_part hrole.1
    rw [PurePath.ofString_slash hrole.1.exists_ne_slash hrel, PurePath.join, hparts, hpartsRole,
      PurePath.absolute, hroot]
    exact ⟨_, habsRole, rfl, fun c hc => hdown c (hstrip ▸ hc)⟩

variable {refuses : PurePath → Option Exn} {cwd : Location} {t : FileTree} {text : String}

/-- **A path without `..` stays in**, for a role that is a name, when nothing at or below its
directory is a link. -/
theorem staysIn_of_downward (hcwd : t.IsDir cwd.names) (hrole : Plain dirs.rolePrefix)
    (hlinks : ∀ dir, rolePlace cwd dirs t = some dir → ∀ names, dir <+: names → t.link names = none)
    (hdown : ∀ c ∈ Path.components path, c ≠ "..") :
    StaysIn refuses cwd dirs t path text := by
  by_cases hopens : ∃ names, Opens refuses cwd dirs (resolvePath dirs path) t names
  swap
  · exact .inr (.inr (not_exists.1 hopens))
  obtain ⟨names, hopens⟩ := hopens
  obtain ⟨rest, hrel, hparts, hrest⟩ := sharedName_parts hrole hdown
  obtain ⟨hrelRole, hpartsRole⟩ := PurePath.ofString_of_part hrole.1
  have htarget := join_sharedName path hrole.1.exists_ne_slash
  rw [PurePath.join] at htarget
  obtain ⟨shared, hshared⟩ := FileTree.leads_of_append hrel (htarget ▸ hopens.leads)
  have hplace : rolePlace cwd dirs t = some (shared ++ [dirs.rolePrefix]) := by
    simp [rolePlace, hrelRole, hpartsRole, hshared, Path.enter_of_plain hrole]
  -- whatever lies on the way below the shared directory is at or below that of the role
  have hbelow : ∀ n, shared <+: n → n <+: shared ++ dirs.rolePrefix :: rest → n ≠ shared →
      t.link n = none := by
    rintro n ⟨tail, rfl⟩ hn hne
    rcases tail with - | ⟨c, tail⟩
    · exact absurd (List.append_nil shared) hne
    · obtain ⟨rfl, -⟩ := List.cons_prefix_cons.1 ((List.prefix_append_right_inj shared).1 hn)
      exact hlinks _ hplace _ ⟨tail, by simp⟩
  have hnames : names = shared ++ dirs.rolePrefix :: rest := by
    have hleads := FileTree.leads_append_down hrel
      (hparts ▸ List.forall_mem_cons.2 ⟨hrole.2, hrest⟩) hshared (hparts ▸ hbelow)
    rw [htarget, hopens.leads, hparts] at hleads
    exact Option.some.inj hleads
  rcases rest with - | ⟨c, rest⟩
  · -- the path is that of the directory itself, which has been made
    have hdir := hopens.isDir_role hcwd
    have hroleLeads := FileTree.leads_append_down hrelRole
      (hpartsRole ▸ List.forall_mem_singleton.2 hrole.2) hshared (hpartsRole ▸ hbelow)
    rw [hpartsRole, ← hnames] at hroleLeads
    exact absurd (hdir names hroleLeads) hopens.free
  · refine .inl ⟨names, _, hopens.leads, hplace, ⟨c :: rest, by simp [hnames]⟩, ?_⟩
    rw [hnames]
    simp

end

/-- The directories of two roles, and a link from that of the `frontend` to its sibling. -/
def linked : FileTree :=
  let backend := ((FileTree.bare ["app"]).mkdirs [] (.ofString "/artifacts/t1/backend")).1
  let both := (backend.mkdirs [] (.ofString "/artifacts/t1/frontend")).1
  both.put ["artifacts", "t1", "frontend", "lib"] (.link (.ofString "../backend"))
    (by decide +kernel) (by decide +kernel)

-- a path without `..` leads out over the link
example :
    let dirs : ToolDirs := { sharedDir := "/artifacts/t1", rolePrefix := "frontend" }
    let cwd : Location := { names := ["app"], plain := by decide }
    linked.leads cwd.names (resolvePath dirs "lib/app.py") =
      some ["artifacts", "t1", "backend", "app.py"] := by
  decide +kernel

end FileTools
end AgentSwarm
