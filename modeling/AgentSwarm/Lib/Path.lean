import Mathlib.Data.List.Infix

/-!
# Paths

Pure POSIX paths as `pathlib` joins them, and where they lead when no name on
the way is a link.

* `Part`, `Plain` — a component of a path, and one that names an entry of a
  directory: not `..`.
* `Root`, `PurePath` — a path: what it starts with, and its components.
* `ofString`, `str`, `join` — `Path(s)`, `str(p)` and `p / s`.  An absolute `s`
  replaces `p`; empty components and `.` are dropped, `..` is kept.
* `ofString_str` — a path is read back from its text.
* `join_slash` — joining two texts one after the other is joining them with a slash between.
* `Location`, `resolve` — the names from the root to where a path leads.
* `resolve_join_plain`, `resolve_append_downward` — a plain component, and a
  relative path without `..`, lead further down.
* `Apart` — neither location is below the other.
-/

namespace AgentSwarm
namespace Path

/-- A component that joining keeps: it is not empty, not `.`, and has no slash. -/
def Part (c : String) : Prop := c ≠ "" ∧ c ≠ "." ∧ '/' ∉ c.toList

instance (c : String) : Decidable (Part c) := inferInstanceAs (Decidable (_ ∧ _ ∧ _))

theorem Part.exists_ne_slash {c : String} (h : Part c) : ∃ x ∈ c.toList, x ≠ '/' := by
  obtain ⟨x, xs, hx⟩ := List.exists_cons_of_ne_nil (l := c.toList) (by simpa using h.1)
  have hmem : x ∈ c.toList := by simp [hx]
  refine ⟨x, hmem, ?_⟩
  rintro rfl
  exact h.2.2 hmem

/-- A name of an entry of a directory. -/
def Plain (c : String) : Prop := Part c ∧ c ≠ ".."

instance (c : String) : Decidable (Plain c) := inferInstanceAs (Decidable (_ ∧ _))

/-- The components of a text: the pieces between the slashes, less those that
are empty or `.`. -/
def components (s : String) : List String :=
  ((s.toList.splitOn '/').map String.ofList).filter fun c => c ≠ "" ∧ c ≠ "."

/-- The pieces between separators have no separator. -/
theorem not_mem_of_mem_splitOn {α : Type} [BEq α] [LawfulBEq α] {x : α} {xs l : List α}
    (h : l ∈ xs.splitOn x) : x ∉ l := by
  induction xs generalizing l with
  | nil => simp_all
  | cons y ys ih =>
      rw [List.splitOn_cons_eq_if_modifyHead] at h
      split at h
      · rcases List.mem_cons.1 h with rfl | h
        · simp
        · exact ih h
      · rename_i hy
        obtain ⟨z, zs, hz⟩ := List.exists_cons_of_ne_nil (List.splitOn_ne_nil x ys)
        rw [hz] at h ih
        rcases List.mem_cons.1 h with rfl | h
        · have hrest := ih List.mem_cons_self
          have hne : ¬x = y := fun hxy => hy (by simp [hxy])
          simpa [hne] using hrest
        · exact ih (List.mem_cons_of_mem _ h)

theorem part_of_mem_components {s c : String} (h : c ∈ components s) : Part c := by
  obtain ⟨hmem, hkept⟩ := List.mem_filter.1 h
  obtain ⟨l, hl, rfl⟩ := List.mem_map.1 hmem
  have hslash : '/' ∉ l := not_mem_of_mem_splitOn hl
  simp only [decide_eq_true_eq] at hkept
  exact ⟨hkept.1, hkept.2, by simpa using hslash⟩

theorem components_of_part {c : String} (h : Part c) : components c = [c] := by
  obtain ⟨hempty, hdot, hslash⟩ := h
  simp [components, List.splitOn_eq_singleton hslash, hempty, hdot]

theorem components_slash (a b : String) :
    components (a ++ "/" ++ b) = components a ++ components b := by
  have hsplit : (a.toList ++ '/' :: b.toList).splitOn '/' =
      a.toList.splitOn '/' ++ b.toList.splitOn '/' := List.splitOn_append_cons_self _ _
  simp [components, hsplit]

/-- The text of a list of components, with a slash between two of them. -/
def joined (parts : List String) : String :=
  String.ofList (['/'].intercalate (parts.map String.toList))

theorem components_joined {parts : List String} (h : ∀ c ∈ parts, Part c) :
    components (joined parts) = parts := by
  by_cases hnil : parts = []
  · subst hnil
    rfl
  · have hsplit : (['/'].intercalate (parts.map String.toList)).splitOn '/' =
        parts.map String.toList := by
      refine List.splitOn_intercalate '/' ?_ (by simpa using hnil)
      intro l hl
      obtain ⟨c, hc, rfl⟩ := List.mem_map.1 hl
      exact (h c hc).2.2
    have hfilter : parts.filter (fun c => c ≠ "" ∧ c ≠ ".") = parts := by
      refine List.filter_eq_self.2 ?_
      intro c hc
      simpa using ⟨(h c hc).1, (h c hc).2.1⟩
    simpa [components, joined, hsplit] using hfilter

/-! ## Pure paths -/

/-- What a path starts with.  Exactly two slashes are a root of their own. -/
inductive Root where
  | none
  | single
  | double
  deriving DecidableEq

/-- The slashes. -/
def Root.text : Root → String
  | .none => ""
  | .single => "/"
  | .double => "//"

/-- The root of a text.  Three slashes and more count as one. -/
def rootOf (l : List Char) : Root :=
  if l[0]? ≠ some '/' then .none
  else if l[1]? ≠ some '/' ∨ l[2]? = some '/' then .single
  else .double

theorem rootOf_of_head {l : List Char} (h : l.head? ≠ some '/') : rootOf l = .none := by
  rw [rootOf, if_pos (by rwa [List.head?_eq_getElem?] at h)]

/-- The root is told by the slashes that a text starts with, and what comes after them. -/
theorem rootOf_text {l : List Char} (h : l.head? ≠ some '/') (r : Root) :
    rootOf (r.text.toList ++ l) = r := by
  cases r with
  | none => exact rootOf_of_head h
  | single =>
      rw [List.head?_eq_getElem?] at h
      simp [Root.text, rootOf, h]
  | double =>
      rw [List.head?_eq_getElem?] at h
      simp [Root.text, rootOf, h]

/-- What comes after a text with more than slashes does not change its root. -/
theorem rootOf_append {l : List Char} (h : ∃ c ∈ l, c ≠ '/') (l' : List Char) :
    rootOf (l ++ l') = rootOf l := by
  obtain ⟨c, hc, hne⟩ := h
  rcases l with - | ⟨x, - | ⟨y, - | ⟨z, l⟩⟩⟩
  · cases hc
  · have hx : x ≠ '/' := by
      rwa [List.mem_singleton.1 hc] at hne
    simp [rootOf, hx]
  · by_cases hx : x = '/'
    · have hy : y ≠ '/' := by
        rintro rfl
        simp_all
      simp [rootOf, hy]
    · simp [rootOf, hx]
  · simp [rootOf]

/-- A pure path. -/
structure PurePath where
  root : Root
  parts : List String
  ok : ∀ c ∈ parts, Part c
  deriving DecidableEq

namespace PurePath

/-- The path starts at the root. -/
def absolute (p : PurePath) : Bool := p.root ≠ .none

/-- `Path(s)`. -/
def ofString (s : String) : PurePath where
  root := rootOf s.toList
  parts := components s
  ok := fun _ hc => part_of_mem_components hc

/-- `str(p)`. -/
def str (p : PurePath) : String :=
  if p.absolute then p.root.text ++ joined p.parts else if p.parts = [] then "." else joined p.parts

/-- `p / q`. -/
def append (p q : PurePath) : PurePath :=
  if q.absolute then q
  else {
    root := p.root
    parts := p.parts ++ q.parts
    ok := fun c hc => (List.mem_append.1 hc).elim (p.ok c) (q.ok c) }

/-- `p / s`, for a text. -/
def join (p : PurePath) (s : String) : PurePath := p.append (ofString s)

@[ext] theorem ext {p q : PurePath} (hroot : p.root = q.root) (hparts : p.parts = q.parts) :
    p = q := by
  cases p
  cases q
  cases hroot
  cases hparts
  rfl

theorem absolute_eq_false {p : PurePath} : p.absolute = false ↔ p.root = .none := by
  simp [absolute]

theorem ofString_root (s : String) : (ofString s).root = rootOf s.toList := rfl

theorem ofString_of_part {c : String} (h : Part c) :
    (ofString c).absolute = false ∧ (ofString c).parts = [c] := by
  have hhead : c.toList.head? ≠ some '/' := fun hc => h.2.2 (List.mem_of_mem_head? hc)
  exact ⟨absolute_eq_false.2 (rootOf_of_head hhead), components_of_part h⟩

theorem append_of_relative (p : PurePath) {q : PurePath} (h : q.absolute = false) :
    (p.append q).root = p.root ∧ (p.append q).parts = p.parts ++ q.parts := by
  simp [append, h]

theorem append_of_absolute (p : PurePath) {q : PurePath} (h : q.absolute = true) :
    p.append q = q := if_pos h

/-- `p / c` for one component goes one further. -/
theorem join_parts_of_part (p : PurePath) {c : String} (h : Part c) :
    (p.join c).root = p.root ∧ (p.join c).parts = p.parts ++ [c] := by
  obtain ⟨habs, hparts⟩ := ofString_of_part h
  obtain ⟨hroot, hjoined⟩ := p.append_of_relative habs
  exact ⟨hroot, by rw [join, hjoined, hparts]⟩

/-- A text that does not start with a slash does not start at the root. -/
theorem joined_head {parts : List String} (h : ∀ c ∈ parts, Part c) :
    (joined parts).toList.head? ≠ some '/' := by
  cases parts with
  | nil => simp [joined]
  | cons c cs =>
      have hc := h c List.mem_cons_self
      obtain ⟨x, xs, hx⟩ := List.exists_cons_of_ne_nil (l := c.toList) (by simpa using hc.1)
      have hne : x ≠ '/' := by
        rintro rfl
        exact hc.2.2 (by simp [hx])
      cases cs <;> simpa [joined, hx] using hne

/-- The components of a text that starts with a root. -/
theorem components_text (r : Root) (s : String) : components (r.text ++ s) = components s := by
  cases r <;> simp [components, Root.text, List.splitOn_cons_eq_if_modifyHead]

/-- **A path is read back from its text.** -/
theorem ofString_str (p : PurePath) : ofString p.str = p := by
  have hhead := joined_head p.ok
  unfold str
  split
  · refine ext ?_ ?_
    · simpa [ofString] using rootOf_text hhead p.root
    · exact (components_text p.root _).trans (components_joined p.ok)
  · rename_i habs
    have hroot : p.root = .none := absolute_eq_false.1 (by simpa using habs)
    split
    · rename_i hnil
      refine ext hroot.symm ?_
      rw [hnil]
      rfl
    · exact ext ((rootOf_of_head hhead).trans hroot.symm) (components_joined p.ok)

theorem append_assoc (p q r : PurePath) : (p.append q).append r = p.append (q.append r) := by
  cases hr : r.absolute with
  | true => rw [append_of_absolute _ hr, append_of_absolute _ hr, append_of_absolute _ hr]
  | false =>
      obtain ⟨hroot, hparts⟩ := append_of_relative q hr
      obtain ⟨hroot', hparts'⟩ := append_of_relative (p.append q) hr
      have habs : (q.append r).absolute = q.absolute := by rw [absolute, hroot, absolute]
      cases hq : q.absolute with
      | true =>
          rw [append_of_absolute p hq, append_of_absolute p (habs.trans hq)]
      | false =>
          obtain ⟨hroot₁, hparts₁⟩ := append_of_relative p hq
          obtain ⟨hroot₂, hparts₂⟩ := append_of_relative p (habs.trans hq)
          refine ext (by rw [hroot', hroot₁, hroot₂]) ?_
          rw [hparts', hparts₁, hparts₂, hparts, List.append_assoc]

/-- A text with a slash in it, unless the text before is made of slashes or the one after it is a
path from the root. -/
theorem ofString_slash {a b : String} (ha : ∃ c ∈ a.toList, c ≠ '/')
    (hb : (ofString b).absolute = false) : ofString (a ++ "/" ++ b) = (ofString a).join b := by
  obtain ⟨hroot, hparts⟩ := append_of_relative (ofString a) hb
  refine ext ?_ ((components_slash a b).trans hparts.symm)
  have hstart : rootOf (a ++ "/" ++ b).toList = rootOf a.toList := by
    rw [String.toList_append, String.toList_append, List.append_assoc]
    exact rootOf_append ha _
  exact hstart.trans hroot.symm

/-- **Joining twice is joining with a slash between.** -/
theorem join_slash (p : PurePath) {a b : String} (ha : ∃ c ∈ a.toList, c ≠ '/')
    (hb : (ofString b).absolute = false) : (p.join a).join b = p.join (a ++ "/" ++ b) := by
  rw [join, join, append_assoc, join, ofString_slash ha hb, join]

end PurePath

/-! ## Where a path leads -/

/-- A place in the tree of directories: the names from the root to it. -/
structure Location where
  names : List String
  plain : ∀ c ∈ names, Plain c
  deriving DecidableEq

/-- One component further: `..` leads back up, and stays at the root. -/
def enter (names : List String) (c : String) : List String :=
  if c = ".." then names.dropLast else names ++ [c]

theorem enter_of_plain {c : String} (h : Plain c) (names : List String) :
    enter names c = names ++ [c] :=
  if_neg h.2

theorem foldl_enter_plain {parts names : List String} (hnames : ∀ c ∈ names, Plain c)
    (hparts : ∀ c ∈ parts, Part c) : ∀ c ∈ parts.foldl enter names, Plain c := by
  induction parts generalizing names with
  | nil => exact hnames
  | cons d parts ih =>
      refine ih ?_ (fun c hc => hparts c (List.mem_cons_of_mem _ hc))
      intro c hc
      unfold enter at hc
      split at hc
      · exact hnames c (List.mem_of_mem_dropLast hc)
      · rename_i hup
        rcases List.mem_append.1 hc with hc | hc
        · exact hnames c hc
        · obtain rfl : c = d := by simpa using hc
          exact ⟨hparts c List.mem_cons_self, hup⟩

/-- `p.resolve()` in the directory `cwd`, when no name on the way is a link. -/
def resolve (cwd : Location) (p : PurePath) : Location where
  names := p.parts.foldl enter (if p.absolute then [] else cwd.names)
  plain := by
    refine foldl_enter_plain ?_ p.ok
    intro c hc
    split at hc
    · cases hc
    · exact cwd.plain c hc

/-- A component that leads further down. -/
theorem resolve_join_plain (cwd : Location) (p : PurePath) {c : String} (h : Plain c) :
    (resolve cwd (p.join c)).names = (resolve cwd p).names ++ [c] := by
  obtain ⟨hroot, hparts⟩ := p.join_parts_of_part h.1
  simp [resolve, PurePath.absolute, hroot, hparts, enter_of_plain h]

theorem foldl_enter_downward {parts : List String} (h : ∀ c ∈ parts, c ≠ "..")
    (names : List String) :
    parts.foldl enter names = names ++ parts := by
  induction parts generalizing names with
  | nil => simp
  | cons c parts ih =>
      have hc : c ≠ ".." := h c List.mem_cons_self
      have hrest := ih (fun d hd => h d (List.mem_cons_of_mem _ hd)) (names ++ [c])
      simp [enter, hc, hrest]

/-- **A relative path without `..` leads down**, name by name. -/
theorem resolve_append_downward (cwd : Location) (p : PurePath) {q : PurePath}
    (hrel : q.absolute = false) (hdown : ∀ c ∈ q.parts, c ≠ "..") :
    (resolve cwd (p.append q)).names = (resolve cwd p).names ++ q.parts := by
  obtain ⟨hroot, hparts⟩ := p.append_of_relative hrel
  simp [resolve, PurePath.absolute, hroot, hparts, foldl_enter_downward hdown]

/-- The location is below `dir`, and not `dir` itself. -/
def Location.StrictlyIn (l : Location) (dir : List String) : Prop :=
  ∃ rest, rest ≠ [] ∧ l.names = dir ++ rest

/-- Neither location is the other or below it. -/
def Location.Apart (l l' : Location) : Prop := ¬l.names <+: l'.names ∧ ¬l'.names <+: l.names

end Path
end AgentSwarm
