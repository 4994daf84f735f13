import Investor.Lib.Text
import Mathlib.Data.List.Dedup
import Mathlib.Data.List.Pairwise

/-!
# Trees of files

A tree is listed as a zip lists it: paths with a content, and paths of directories, which need not
all be there. What a copy does to one top-level name is not seen under another (`under_put`,
`found_put`).
-/

namespace Investor.Lib

abbrev Path := List String

abbrev IsName (s : String) : Prop := s ≠ "" ∧ s ≠ "." ∧ s ≠ ".." ∧ '/' ∉ s.toList

/-! ## Paths as text -/

/-- `as_posix()` of a relative path. -/
def posix (path : Path) : String := String.intercalate "/" path

/-- The path that a text spells below a directory. None for an absolute path or one that goes up. -/
def relParts (text : String) : Option Path :=
  let raw := (text.toList.splitOn '/').map String.ofList
  if (raw.head? = some "" ∧ raw ≠ [""]) ∨ ".." ∈ raw then none
  else some (raw.filter fun part => part ≠ "" ∧ part ≠ ".")

theorem relParts_posix {path : Path} (some_part : path ≠ []) (names : ∀ s ∈ path, IsName s) :
    relParts (posix path) = some path := by
  have raw : ((posix path).toList.splitOn '/').map String.ofList = path := by
    have noSlash : ∀ l ∈ path.map String.toList, '/' ∉ l := by
      intro l hl
      obtain ⟨s, hs, rfl⟩ := List.mem_map.mp hl
      exact (names s hs).2.2.2
    have slash : "/".toList = ['/'] := rfl
    rw [posix, String.toList_intercalate, slash,
      List.splitOn_intercalate '/' noSlash (by simpa using some_part)]
    simp
  have keep : (path.filter fun part => part ≠ "" ∧ part ≠ ".") = path :=
    List.filter_eq_self.mpr fun s hs => by simp [(names s hs).1, (names s hs).2.1]
  have first : path.head? ≠ some "" := fun h => (names "" (List.mem_of_mem_head? h)).1 rfl
  have down : ".." ∉ path := fun h => (names ".." h).2.2.1 rfl
  simp only [relParts, raw, keep]
  rw [if_neg (by simp [first, down])]

/-! ## What is at a path -/

inductive Found (β : Type)
  | missing | directory | file (content : β)

def Found.isFile {β : Type} : Found β → Bool
  | .file _ => true
  | _ => false

/-- A file has a content, a directory none. -/
abbrev Node (β : Type) := Path × Option β

section Nodes

variable {β : Type}

def found (nodes : List (Node β)) (path : Path) : Found β :=
  match (nodes.find? fun n => n.1 = path ∧ n.2.isSome).bind (·.2) with
  | some content => .file content
  | none => if nodes.any fun n => path <+: n.1 then .directory else .missing

theorem mem_of_found {nodes : List (Node β)} {path : Path} {content : β}
    (h : found nodes path = .file content) : (path, some content) ∈ nodes := by
  unfold found at h
  split at h
  · rename_i c hc
    obtain ⟨n, hn, hnc⟩ := Option.bind_eq_some_iff.mp hc
    have hp := List.find?_some hn
    simp only [decide_eq_true_eq] at hp
    cases h
    rw [← hp.1, ← hnc]
    exact List.mem_of_find?_eq_some hn
  · split at h <;> cases h

theorem found_missing {nodes : List (Node β)} {path : Path} (h : ∀ n ∈ nodes, ¬ path <+: n.1) :
    found nodes path = .missing := by
  have none : (nodes.find? fun n => n.1 = path ∧ n.2.isSome) = none := by
    rw [List.find?_eq_none]
    intro n hn hp
    simp only [decide_eq_true_eq] at hp
    exact h n hn (by simp [hp.1])
  simp only [found, none, Option.bind_none]
  rw [if_neg]
  simpa using fun p c hn => h (p, c) hn

def under (name : String) (nodes : List (Node β)) : List (Node β) :=
  nodes.filter fun n => n.1.head? = some name

theorem found_under (nodes : List (Node β)) (name : String) (rest : Path) :
    found (under name nodes) (name :: rest) = found nodes (name :: rest) := by
  have files : (nodes.filter fun n => n.1.head? = some name).find? (fun n => n.1 = name :: rest ∧ n.2.isSome)
      = nodes.find? fun n => n.1 = name :: rest ∧ n.2.isSome := by
    rw [List.find?_filter]
    congr 1
    funext n
    by_cases h : n.1 = name :: rest <;> simp [h]
  have below : ∀ n : Node β, (decide (n.1.head? = some name) && decide (name :: rest <+: n.1))
      = decide (name :: rest <+: n.1) := by
    intro n
    by_cases h : name :: rest <+: n.1
    · obtain ⟨tail, htail⟩ := h
      simp [← htail]
    · simp [h]
  simp only [found, under, files, List.any_filter, below]

/-! ## Copies -/

/-- A node below one top-level name, moved to where that name goes. -/
def relocate (dest : Path) (n : Node β) : Node β := (dest ++ n.1.drop 1, n.2)

/-- `item` put at `dest`, in place of what is there. -/
def put (nodes : List (Node β)) (dest : Path) (item : List (Node β)) : List (Node β) :=
  (nodes.filter fun n => ¬ dest <+: n.1) ++ item.map (relocate dest)

theorem under_put (nodes item : List (Node β)) {name other : String} (rest : Path) (h : other ≠ name) :
    under other (put nodes (name :: rest) item) = under other nodes := by
  have gone : (item.map (relocate (name :: rest))).filter (fun n => n.1.head? = some other) = [] := by
    rw [List.filter_eq_nil_iff]
    intro n hn
    obtain ⟨x, -, rfl⟩ := List.mem_map.mp hn
    simpa [relocate] using fun e => h e.symm
  have kept : ∀ n : Node β, (decide (n.1.head? = some other) && decide (¬ name :: rest <+: n.1))
      = decide (n.1.head? = some other) := by
    intro n
    by_cases e : n.1.head? = some other
    · have : ¬ name :: rest <+: n.1 := by
        rintro ⟨tail, htail⟩
        rw [← htail] at e
        exact h (Option.some.inj e).symm
      simp [e, this]
    · simp [e]
  rw [under, put, List.filter_append, gone, List.append_nil, List.filter_filter]
  simp only [kept, under]

theorem found_put (nodes item : List (Node β)) {name other : String} (rest tail : Path) (h : other ≠ name) :
    found (put nodes (name :: rest) item) (other :: tail) = found nodes (other :: tail) := by
  rw [← found_under, under_put nodes item rest h, found_under]

theorem relocate_under {name : String} {nodes : List (Node β)} {n : Node β} (h : n ∈ under name nodes) :
    relocate [name] n = n := by
  have head : n.1.head? = some name := by simpa using (List.mem_filter.mp h).2
  obtain ⟨path, content⟩ := n
  cases path with
  | nil => cases head
  | cons first rest =>
    cases head
    rfl

theorem map_relocate_under (name : String) (nodes : List (Node β)) :
    (under name nodes).map (relocate [name]) = under name nodes := by
  conv_rhs => rw [← List.map_id (under name nodes)]
  exact List.map_congr_left fun n hn => relocate_under hn

theorem put_under {name : String} {nodes : List (Node β)} (items : List (Node β))
    (h : ∀ n ∈ nodes, n.1.head? ≠ some name) :
    put nodes [name] (under name items) = nodes ++ under name items := by
  have kept : (nodes.filter fun n => ¬ [name] <+: n.1) = nodes := by
    rw [List.filter_eq_self]
    intro n hn
    have : ¬ [name] <+: n.1 := by
      rintro ⟨tail, htail⟩
      exact h n hn (by rw [← htail]; rfl)
    simpa using this
  rw [put, kept, map_relocate_under]

end Nodes

/-! ## Trees -/

/-- If one of the two is a file, the other is not at its path or below. -/
def Apart {β : Type} (a b : Node β) : Prop := (a.2.isSome → ¬ a.1 <+: b.1) ∧ (b.2.isSome → ¬ b.1 <+: a.1)

instance {β : Type} (a b : Node β) : Decidable (Apart a b) := inferInstanceAs (Decidable (_ ∧ _))

instance {β : Type} : Std.Symm (@Apart β) := ⟨fun _ _ h => ⟨h.2, h.1⟩⟩

theorem apart_of_head {β : Type} {a b : Node β} (ha : a.1 ≠ []) (hb : b.1 ≠ []) (h : a.1.head? ≠ b.1.head?) :
    Apart a b := by
  obtain ⟨_ | ⟨x, p⟩, c⟩ := a
  · exact absurd rfl ha
  obtain ⟨_ | ⟨y, q⟩, d⟩ := b
  · exact absurd rfl hb
  simp only [List.head?_cons, ne_eq, Option.some.injEq] at h
  simp [Apart, List.cons_prefix_cons, h, Ne.symm h]

structure FileTree (β : Type) where
  nodes : List (Node β)
  apart : nodes.Pairwise Apart
  names : ∀ n ∈ nodes, n.1 ≠ [] ∧ ∀ s ∈ n.1, IsName s

theorem FileTree.eq_of_prefix {β : Type} (tree : FileTree β) {a b : Node β} (ha : a ∈ tree.nodes)
    (hb : b ∈ tree.nodes) (file : a.2.isSome) (h : a.1 <+: b.1) : a = b := by
  by_contra ne
  exact (tree.apart.forall ha hb ne).1 file h

theorem FileTree.found_file {β : Type} (tree : FileTree β) {path : Path} {content : β}
    (h : (path, some content) ∈ tree.nodes) : found tree.nodes path = .file content := by
  cases hn : tree.nodes.find? fun n => n.1 = path ∧ n.2.isSome with
  | none =>
    have := List.find?_eq_none.mp hn _ h
    simp at this
  | some n =>
    have hp := List.find?_some hn
    simp only [decide_eq_true_eq] at hp
    have same : (path, some content) = n :=
      tree.eq_of_prefix h (List.mem_of_find?_eq_some hn) rfl (by simp [hp.1])
    simp only [found, hn, ← same, Option.bind_some]

end Investor.Lib
