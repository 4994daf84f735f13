import Investor.Lib.FileTree
import Mathlib.Data.List.Lex
import Mathlib.Data.List.Sort
import Mathlib.Data.String.Basic

/-!
# Backups

`BackupService.create` leaves the files with a secret-looking name out of the manifest and of a
zip, but renames the whole staging directory when the backup is a directory. `verify` looks at the
listed files only and `restore` copies every top-level item but the manifest. So a directory
backup with a prompt called `token.txt` restores a file that is not listed, and so does an archive
that got a file more after it was made (`unlisted_restored`). A top-level file also lands below a
directory of its name in the target.

`restored_files_listed` says exactly when a backup comes back as its manifest lists it, and what
of an archive is restored.

The contents of the exports and the configuration are inputs. Of the manifest, what is never read
is left out. The backup directory exists, and neither it nor the archive is in the target.
-/

namespace Investor.Ops

open Lib

def schemaVersion : String := "backup_v1"

def secretPatterns : List String := [".env", "secret", "credential", "api_key", "token", "password"]

def exportTables : List String := ["daily_performance", "portfolio_snapshots", "configuration_history"]

structure ManifestEntry (η : Type) where
  path : String
  sha256 : Option η
  deriving DecidableEq

structure Manifest (η : Type) where
  schemaVersion : Option String
  backupId : Option String
  files : List (ManifestEntry η)
  deriving DecidableEq

/-- `json.dumps` and `json.loads` of a manifest. `loads` is none where reading it or an entry of it raises. -/
structure ManifestText (β η : Type) where
  dumps : Manifest η → β
  loads : β → Option (Manifest η)
  loads_dumps : ∀ m, loads (dumps m) = some m

/-- What `create` finds: the texts it writes, and the prompt files if there is such a directory. -/
structure Snapshot (β : Type) where
  config : β
  exports : String → β
  prompts : Option (FileTree β)

structure Archive (β : Type) where
  asZip : Bool
  tree : FileTree β

structure VerifyResult where
  valid : Bool
  backupId : Option String
  errors : List String

inductive Outcome
  | confirmRequired | backupNotFound | verifyFailed (errors : List String) | raised
  | restored (backupId : Option String)

/-- How a restore ended, what is in the target then, and what it wrote there. -/
structure Restore (β : Type) where
  outcome : Outcome
  target : List (Node β)
  written : List (Node β)

/-! ## Creation -/

section Create

variable {β η : Type}

/-- `shutil.ignore_patterns("*.pyc", "__pycache__")` lets the path through. -/
def notIgnored (path : Path) : Bool := path.all fun s => !endsWith s ".pyc" && s != "__pycache__"

def promptNodes : Option (FileTree β) → List (Node β)
  | none => []
  | some tree => (["prompts"], none) ::
      (tree.nodes.filter fun n => notIgnored n.1).map fun n => ("prompts" :: n.1, n.2)

theorem promptNodes_head {prompts : Option (FileTree β)} {n : Node β} (h : n ∈ promptNodes prompts) :
    n.1.head? = some "prompts" := by
  cases prompts with
  | none => simp [promptNodes] at h
  | some tree =>
    simp only [promptNodes, List.mem_cons, List.mem_map] at h
    obtain rfl | ⟨x, -, rfl⟩ := h <;> rfl

theorem promptNodes_apart (prompts : Option (FileTree β)) : (promptNodes prompts).Pairwise Apart := by
  cases prompts with
  | none => simp [promptNodes]
  | some tree =>
    simp only [promptNodes, List.pairwise_cons, List.pairwise_map]
    constructor
    · intro n hn
      obtain ⟨x, hx, rfl⟩ := List.mem_map.mp hn
      have := (tree.names x (List.mem_filter.mp hx).1).1
      simp [Apart, List.cons_prefix_cons, this]
    · apply (tree.apart.filter _).imp
      intro a b h
      simpa [Apart, List.cons_prefix_cons] using h

/-- What `create` itself puts into the staging directory. -/
def ownNodes (s : Snapshot β) : List (Node β) :=
  (["config.json"], some s.config) :: (["exports"], none) ::
    exportTables.map fun label => (["exports", label ++ ".json"], some (s.exports label))

def staging (s : Snapshot β) : List (Node β) := ownNodes s ++ promptNodes s.prompts

theorem ownNodes_head {s : Snapshot β} {n : Node β} (h : n ∈ ownNodes s) :
    n.1.head? = some "config.json" ∨ n.1.head? = some "exports" := by
  simp only [ownNodes, exportTables, List.map_cons, List.map_nil, List.mem_cons, List.not_mem_nil, or_false] at h
  obtain rfl | rfl | rfl | rfl | rfl := h <;> simp

theorem staging_head {s : Snapshot β} {n : Node β} (h : n ∈ staging s) :
    n.1.head? ∈ [some "config.json", some "exports", some "prompts"] := by
  obtain h | h := List.mem_append.mp h
  · obtain e | e := ownNodes_head h <;> simp [e]
  · simp [promptNodes_head h]

theorem staging_names {s : Snapshot β} {n : Node β} (h : n ∈ staging s) :
    n.1 ≠ [] ∧ ∀ x ∈ n.1, IsName x := by
  obtain h | h := List.mem_append.mp h
  · simp only [ownNodes, exportTables, List.map_cons, List.map_nil, List.mem_cons, List.not_mem_nil, or_false] at h
    obtain rfl | rfl | rfl | rfl | rfl := h <;> dsimp only <;> decide
  · cases hs : s.prompts with
    | none => simp [hs, promptNodes] at h
    | some tree =>
      simp only [hs, promptNodes, List.mem_cons, List.mem_map] at h
      obtain rfl | ⟨x, hx, rfl⟩ := h
      · dsimp only
        decide
      · refine ⟨by simp, ?_⟩
        intro part hp
        obtain rfl | hp := List.mem_cons.mp hp
        · decide
        · exact (tree.names x (List.mem_filter.mp hx).1).2 part hp

theorem relParts_staging {s : Snapshot β} {n : Node β} (h : n ∈ staging s) : relParts (posix n.1) = some n.1 :=
  relParts_posix (staging_names h).1 (staging_names h).2

variable [Casing] (hash : β → η) (text : ManifestText β η)

def isSecretPath (path : Path) : Bool :=
  secretPatterns.any (hasPart (Casing.lower (path.getLastD "")))

def isKept (n : Node β) : Bool := n.2.isSome && !isSecretPath n.1

def manifest (s : Snapshot β) (backupId : String) : Manifest η :=
  ⟨some schemaVersion, some backupId,
    (((staging s).filter isKept).insertionSort fun a b => a.1 ≤ b.1).map fun n => ⟨posix n.1, n.2.map hash⟩⟩

def manifestNode (s : Snapshot β) (backupId : String) : Node β :=
  (["manifest.json"], some (text.dumps (manifest hash s backupId)))

theorem staging_apart (s : Snapshot β) (backupId : String) :
    (manifestNode hash text s backupId :: staging s).Pairwise Apart := by
  have some_part : ∀ n : Node β, ∀ name, n.1.head? = some name → n.1 ≠ [] := by
    intro n name h e
    simp [e] at h
  have own : (ownNodes s).Pairwise Apart := by simp [ownNodes, Apart, exportTables]
  rw [List.pairwise_cons, staging, List.pairwise_append]
  refine ⟨?_, own, promptNodes_apart s.prompts, ?_⟩
  · intro n hn
    have head := staging_head hn
    apply apart_of_head (by simp [manifestNode])
    · rintro e
      simp [e] at head
    · simp only [manifestNode, List.head?_cons]
      rintro e
      simp [← e] at head
  · intro a ha b hb
    have hb := promptNodes_head hb
    obtain ha | ha := ownNodes_head ha <;>
      exact apart_of_head (some_part a _ ha) (some_part b _ hb) (by rw [ha, hb]; decide)

/-- A zip is written file by file, with the secret names left out. A directory is the staging directory renamed. -/
def create (s : Snapshot β) (backupId : String) (asZip : Bool) : Archive β where
  asZip := asZip
  tree :=
    { nodes := (manifestNode hash text s backupId :: staging s).filter fun n => !asZip || isKept n
      apart := (staging_apart hash text s backupId).filter _
      names := by
        intro n h
        obtain rfl | h := List.mem_cons.mp (List.mem_filter.mp h).1
        · simp only [manifestNode]
          decide
        · exact staging_names h }

theorem manifestNode_kept (s : Snapshot β) (backupId : String) :
    isKept (manifestNode hash text s backupId) = true := by
  have lower : Casing.lower "manifest.json" = "manifest.json" := Casing.lower_ascii _ (by decide)
  simp only [isKept, manifestNode, isSecretPath, List.getLastD_cons, List.getLastD_nil, lower, Option.isSome_some,
    Bool.true_and]
  decide +kernel

theorem mem_create {s : Snapshot β} {backupId : String} {asZip : Bool} {n : Node β} :
    n ∈ (create hash text s backupId asZip).tree.nodes ↔
      n = manifestNode hash text s backupId ∨ n ∈ staging s ∧ (asZip = true → isKept n = true) := by
  simp only [create, List.mem_filter, List.mem_cons]
  constructor
  · rintro ⟨rfl | h, hk⟩
    · exact Or.inl rfl
    · exact Or.inr ⟨h, by simpa [imp_iff_not_or] using hk⟩
  · rintro (rfl | ⟨h, hk⟩)
    · exact ⟨Or.inl rfl, by simp [manifestNode_kept]⟩
    · exact ⟨Or.inr h, by simpa [imp_iff_not_or] using hk⟩

theorem mem_manifest {s : Snapshot β} {backupId : String} {e : ManifestEntry η} :
    e ∈ (manifest hash s backupId).files ↔
      ∃ n ∈ staging s, isKept n = true ∧ e = ⟨posix n.1, n.2.map hash⟩ := by
  simp only [manifest, List.mem_map, List.mem_insertionSort, List.mem_filter, and_assoc]
  constructor
  · rintro ⟨n, hn, kept, rfl⟩
    exact ⟨n, hn, kept, rfl⟩
  · rintro ⟨n, hn, kept, rfl⟩
    exact ⟨n, hn, kept, rfl⟩

end Create

/-! ## Verification -/

section Verify

variable {β η : Type} [DecidableEq η] (hash : β → η) (text : ManifestText β η)
  (outside : String → Found β)

/-- What is at `root / rel`. An absolute path, or one with `..`, may be anywhere: `outside`. -/
def locate (a : Archive β) (rel : String) : Found β :=
  match relParts rel with
  | some path => found a.tree.nodes path
  | none => outside rel

def checkEntry (a : Archive β) (entry : ManifestEntry η) : Option (List String) :=
  if entry.path = "manifest.json" then some []
  else match locate outside a entry.path with
    | .missing => some ["missing_file:" ++ entry.path]
    | .directory => none
    | .file content =>
      some (if some (hash content) ≠ entry.sha256 then ["hash_mismatch:" ++ entry.path] else [])

def checkAll (a : Archive β) : List (ManifestEntry η) → Option (List String)
  | [] => some []
  | entry :: entries => do
    let first ← checkEntry hash outside a entry
    let rest ← checkAll a entries
    pure (first ++ rest)

def readManifest (a : Archive β) : Option (Manifest η) :=
  match found a.tree.nodes ["manifest.json"] with
  | .file content => text.loads content
  | _ => none

def verify (a : Archive β) : Option VerifyResult :=
  match found a.tree.nodes ["manifest.json"] with
  | .missing => some ⟨false, none, ["missing_manifest"]⟩
  | _ => do
    let m ← readManifest text a
    let entryErrors ← checkAll hash outside a m.files
    let errors := (if m.schemaVersion ≠ some schemaVersion then ["schema_version_mismatch"] else []) ++ entryErrors
    pure ⟨errors.length = 0, m.backupId, errors⟩

theorem checkAll_eq_nil {a : Archive β} {entries : List (ManifestEntry η)} :
    checkAll hash outside a entries = some [] ↔ ∀ e ∈ entries, checkEntry hash outside a e = some [] := by
  induction entries with
  | nil => simp [checkAll]
  | cons e es ih =>
    simp only [checkAll, List.forall_mem_cons, ← ih]
    cases checkEntry hash outside a e <;> cases checkAll hash outside a es <;> simp

theorem verify_eq_valid {a : Archive β} {m : Manifest η} (hm : readManifest text a = some m)
    (version : m.schemaVersion = some schemaVersion)
    (files : ∀ e ∈ m.files, checkEntry hash outside a e = some []) :
    verify hash text outside a = some ⟨true, m.backupId, []⟩ := by
  have all := (checkAll_eq_nil hash outside).mpr files
  unfold verify
  split
  · rename_i h
    simp [readManifest, h] at hm
  · simp [hm, all, version]

theorem checked_of_valid {a : Archive β} {v : VerifyResult} (h : verify hash text outside a = some v)
    (valid : v.valid = true) :
    ∃ m, readManifest text a = some m ∧ ∀ e ∈ m.files, checkEntry hash outside a e = some [] := by
  unfold verify at h
  split at h
  · cases h
    cases valid
  · cases hm : readManifest text a with
    | none => simp [hm] at h
    | some m =>
      cases hc : checkAll hash outside a m.files with
      | none => simp [hm, hc] at h
      | some errors =>
        simp only [hm, hc, Option.bind_eq_bind, Option.bind_some, Option.pure_def, Option.some.injEq] at h
        subst h
        have none : errors = [] := by
          simp only [decide_eq_true_eq, List.length_append] at valid
          exact List.length_eq_zero_iff.mp (by omega)
        exact ⟨m, rfl, (checkAll_eq_nil hash outside).mp (none ▸ hc)⟩

theorem sha256_of_checked {a : Archive β} {e : ManifestEntry η} {path : Path} {content : β}
    (h : checkEntry hash outside a e = some []) (parts : relParts e.path = some path)
    (other : path ≠ ["manifest.json"]) (file : (path, some content) ∈ a.tree.nodes) :
    e.sha256 = some (hash content) := by
  have own : relParts "manifest.json" = some ["manifest.json"] := by decide +kernel
  have named : e.path ≠ "manifest.json" := by
    intro eq
    rw [eq, own] at parts
    exact other (Option.some.inj parts).symm
  simp only [checkEntry, named, if_false, locate, parts, a.tree.found_file file, Option.some.injEq] at h
  by_contra ne
  simp [Ne.symm ne] at h

end Verify

/-! ## Restoring -/

section Restore

variable {β η : Type}

def restoreStaging : String := "_restore_staging"

def topNames (a : Archive β) : List String :=
  (a.tree.nodes.filterMap (·.1.head?)).dedup.filter (· ≠ "manifest.json")

/-- Where a top-level item goes. None where the copy raises: a zip is unpacked under `_restore_staging` in the target,
a directory cannot take the place of a file, and a file goes into a directory of its name. -/
def destination (a : Archive β) (target : List (Node β)) (name : String) : Option Path :=
  if a.asZip ∧ name = restoreStaging then none
  else match found a.tree.nodes [name], found target [name] with
    | .file _, .directory =>
      match found target [name, name] with
      | .directory => none
      | _ => some [name, name]
    | .file _, _ => some [name]
    | _, .file _ => none
    | _, _ => some [name]

/-- The loop of `restore`: whether it ends, what is in the target and what was written. -/
def copyItems (a : Archive β) : List String → List (Node β) → Bool × List (Node β) × List (Node β)
  | [], target => (true, target, [])
  | name :: names, target =>
    match destination a target name with
    | none => (false, target, [])
    | some dest =>
      let item := under name a.tree.nodes
      let (ends, target, written) := copyItems a names (put target dest item)
      (ends, target, item.map (relocate dest) ++ written)

/-- The target as it is when the copying starts, without the staging directory of a zip. -/
def cleared (a : Archive β) (target : List (Node β)) : List (Node β) :=
  if a.asZip then target.filter fun n => n.1.head? ≠ some restoreStaging else target

/-- The staging directory of a zip cannot be made where a file has its name. -/
def blocked (a : Archive β) (target : List (Node β)) : Bool :=
  a.asZip && (found target [restoreStaging]).isFile

/-- `restore`. The second test of `confirm`, for the database's own path, is never reached without it. -/
def restore [DecidableEq η] (hash : β → η) (text : ManifestText β η) (outside : String → Found β) (confirm : Bool)
    (backup : Option (Archive β)) (target : List (Node β)) : Restore β :=
  if !confirm then ⟨.confirmRequired, target, []⟩
  else match backup with
    | none => ⟨.backupNotFound, target, []⟩
    | some a =>
      match verify hash text outside a with
      | none => ⟨.raised, target, []⟩
      | some v =>
        if !v.valid then ⟨.verifyFailed v.errors, target, []⟩
        else if blocked a target then ⟨.raised, target, []⟩
        else
          let (ends, target, written) := copyItems a (topNames a) (cleared a target)
          ⟨if ends then .restored v.backupId else .raised, target, written⟩

theorem mem_topNames {a : Archive β} {name : String} :
    name ∈ topNames a ↔ (∃ n ∈ a.tree.nodes, n.1.head? = some name) ∧ name ≠ "manifest.json" := by
  simp [topNames]

theorem topNames_nodup (a : Archive β) : (topNames a).Nodup := (List.nodup_dedup _).filter _

theorem destination_cases {a : Archive β} {target : List (Node β)} {name : String} {dest : Path}
    (h : destination a target name = some dest) :
    dest = [name] ∨ dest = [name, name] ∧ ∃ c, ([name], some c) ∈ a.tree.nodes := by
  unfold destination at h
  split at h
  · cases h
  · split at h
    · rename_i c file _
      split at h
      · cases h
      · exact Or.inr ⟨(Option.some.inj h).symm, c, mem_of_found file⟩
    · exact Or.inl (Option.some.inj h).symm
    · cases h
    · exact Or.inl (Option.some.inj h).symm

theorem destination_put {a : Archive β} {target : List (Node β)} {name other : String} {dest : Path}
    (h : destination a target name = some dest) (ne : other ≠ name) (item : List (Node β)) :
    destination a (put target dest item) other = destination a target other := by
  obtain rfl | ⟨rfl, -⟩ := destination_cases h <;> simp only [destination, found_put _ _ _ _ ne]

theorem copyItems_fresh {a : Archive β} {names : List String} {target : List (Node β)} (nodup : names.Nodup)
    (free : ∀ name ∈ names, name ≠ restoreStaging) (absent : ∀ name ∈ names, ∀ n ∈ target, n.1.head? ≠ some name) :
    copyItems a names target = (true, target ++ names.flatMap (under · a.tree.nodes),
      names.flatMap (under · a.tree.nodes)) := by
  induction names generalizing target with
  | nil => simp [copyItems]
  | cons name names ih =>
    have here := absent name (List.mem_cons_self ..)
    have missing : found target [name] = .missing := by
      apply found_missing
      rintro n hn ⟨tail, e⟩
      exact here n hn (by rw [← e]; rfl)
    have dest : destination a target name = some [name] := by
      simp only [destination, free name (List.mem_cons_self ..), and_false, if_false, missing]
      split <;> simp_all
    have rest := @ih (target ++ under name a.tree.nodes) (List.nodup_cons.mp nodup).2
      (fun x hx => free x (List.mem_cons_of_mem _ hx)) (by
        intro x hx n hn e
        obtain hn | hn := List.mem_append.mp hn
        · exact absent x (List.mem_cons_of_mem _ hx) n hn e
        · have head : n.1.head? = some name := by simpa [under] using (List.mem_filter.mp hn).2
          have : name = x := Option.some.inj (head.symm.trans e)
          exact (List.nodup_cons.mp nodup).1 (this ▸ hx))
    simp only [copyItems, dest, put_under _ here, rest, map_relocate_under, List.flatMap_cons, List.append_assoc]

variable (hash : β → η)

/-- The manifest lists a file at this path with the hash of this content. -/
def Lists (m : Manifest η) (path : Path) (content : β) : Prop :=
  ∃ e ∈ m.files, relParts e.path = some path ∧ e.sha256 = some (hash content)

instance [DecidableEq η] (m : Manifest η) (path : Path) (content : β) : Decidable (Lists hash m path content) :=
  inferInstanceAs (Decidable (∃ e ∈ m.files, _))

/-- The item goes to its own place, and each of its files has a path that the manifest lists. -/
def ItemListed (m : Manifest η) (a : Archive β) (target : List (Node β)) (name : String) : Prop :=
  destination a target name = some [name] ∧
    ∀ path content, (path, some content) ∈ under name a.tree.nodes → ∃ e ∈ m.files, relParts e.path = some path

theorem item_listed_iff [DecidableEq η] (outside : String → Found β) {m : Manifest η} {a : Archive β}
    (checked : ∀ e ∈ m.files, checkEntry hash outside a e = some []) {target : List (Node β)} {name : String}
    {dest : Path} (hd : destination a target name = some dest) (other : name ≠ "manifest.json") :
    (∀ path content, (path, some content) ∈ (under name a.tree.nodes).map (relocate dest) →
      Lists hash m path content) ↔ ItemListed m a target name := by
  constructor
  · intro written
    have own : dest = [name] := by
      obtain rfl | ⟨rfl, c, hc⟩ := destination_cases hd
      · rfl
      · -- A file that landed below a directory is listed there, so the archive has a file below that file.
        have item : ([name], some c) ∈ under name a.tree.nodes := List.mem_filter.mpr ⟨hc, by simp⟩
        obtain ⟨e, he, parts, -⟩ := written [name, name] c (List.mem_map.mpr ⟨_, item, rfl⟩)
        have below : ∀ n ∈ a.tree.nodes, ¬ [name, name] <+: n.1 := by
          intro n hn hp
          have := a.tree.eq_of_prefix hc hn rfl ((List.prefix_append [name] [name]).trans hp)
          simp [← this] at hp
        have := checked e he
        have named : e.path ≠ "manifest.json" := by
          intro eq
          have : relParts "manifest.json" = some ["manifest.json"] := by decide +kernel
          simp [eq, this] at parts
        simp [checkEntry, named, locate, parts, found_missing below] at this
    subst own
    refine ⟨hd, ?_⟩
    intro path content file
    obtain ⟨e, he, parts, -⟩ := written path content (by rw [map_relocate_under]; exact file)
    exact ⟨e, he, parts⟩
  · rintro ⟨own, paths⟩ path content h
    cases hd.symm.trans own
    rw [map_relocate_under] at h
    obtain ⟨e, he, parts⟩ := paths path content h
    obtain ⟨inTree, head⟩ := List.mem_filter.mp h
    refine ⟨e, he, parts, sha256_of_checked hash outside (checked e he) parts ?_ inTree⟩
    rintro rfl
    exact other (by simpa using head.symm : "manifest.json" = name).symm

theorem copyItems_listed_iff [DecidableEq η] (outside : String → Found β) {m : Manifest η} {a : Archive β}
    (checked : ∀ e ∈ m.files, checkEntry hash outside a e = some []) {start target : List (Node β)}
    {names : List String} (nodup : names.Nodup) (other : ∀ name ∈ names, name ≠ "manifest.json")
    (same : ∀ name ∈ names, destination a target name = destination a start name) :
    (∀ path content, (path, some content) ∈ (copyItems a names target).2.2 → Lists hash m path content) ↔
      ∀ name ∈ names.takeWhile fun name => (destination a start name).isSome, ItemListed m a start name := by
  induction names generalizing target with
  | nil => simp [copyItems]
  | cons name names ih =>
    obtain ⟨fresh, nodup⟩ := List.nodup_cons.mp nodup
    have here := same name (List.mem_cons_self ..)
    cases hd : destination a target name with
    | none => simp [copyItems, hd, ← here]
    | some dest =>
      have item := item_listed_iff hash outside checked (here ▸ hd) (other name (List.mem_cons_self ..))
      have rest := @ih (put target dest (under name a.tree.nodes)) nodup
        (fun x hx => other x (List.mem_cons_of_mem _ hx)) (by
          intro x hx
          have ne : x ≠ name := fun e => fresh (e ▸ hx)
          rw [destination_put hd ne, same x (List.mem_cons_of_mem _ hx)])
      have some_dest : (destination a start name).isSome := by simp [← here, hd]
      simp only [copyItems, hd, List.mem_append, List.takeWhile_cons, some_dest, if_true, List.forall_mem_cons,
        ← item, ← rest]
      constructor
      · intro all
        exact ⟨fun p c h => all p c (Or.inl h), fun p c h => all p c (Or.inr h)⟩
      · rintro ⟨first, later⟩ p c (h | h)
        · exact first p c h
        · exact later p c h

/-! ## What comes back -/

/-- The backup verifies, and what it restores into an empty target is what its manifest lists, with those hashes. -/
def RoundTrips [DecidableEq η] (text : ManifestText β η) (outside : String → Found β) (a : Archive β) : Prop :=
  ∃ m, readManifest text a = some m ∧ verify hash text outside a = some ⟨true, m.backupId, []⟩ ∧
    (restore hash text outside true (some a) []).outcome = .restored m.backupId ∧
    ∀ path h, (∃ content, (path, some content) ∈ (restore hash text outside true (some a) []).target ∧
      hash content = h) ↔ ∃ e ∈ m.files, relParts e.path = some path ∧ e.sha256 = some h

def WritesOnlyListed (text : ManifestText β η) (backup : Option (Archive β)) (r : Restore β) : Prop :=
  ∀ path content, (path, some content) ∈ r.written →
    ∃ a, backup = some a ∧ ∃ m, readManifest text a = some m ∧ Lists hash m path content

def Outcome.refused : Outcome → Bool
  | .confirmRequired | .backupNotFound | .verifyFailed _ => true
  | .raised | .restored _ => false

/-- The items of an archive that are copied: those before the first that cannot be. -/
def copied (a : Archive β) (target : List (Node β)) : List String :=
  if blocked a target then []
  else (topNames a).takeWhile fun name => (destination a (cleared a target) name).isSome

section Created

variable [Casing] (text : ManifestText β η) (outside : String → Found β) (s : Snapshot β) (backupId : String)
  (asZip : Bool)

theorem readManifest_create :
    readManifest text (create hash text s backupId asZip) = some (manifest hash s backupId) := by
  have file : (["manifest.json"], some (text.dumps (manifest hash s backupId))) ∈
      (create hash text s backupId asZip).tree.nodes := (mem_create hash text).mpr (Or.inl rfl)
  simp only [readManifest, FileTree.found_file _ file, text.loads_dumps]

variable [DecidableEq η]

theorem verify_create :
    verify hash text outside (create hash text s backupId asZip) = some ⟨true, some backupId, []⟩ := by
  apply verify_eq_valid hash text outside (readManifest_create hash text s backupId asZip) rfl
  intro e he
  obtain ⟨n, hn, kept, rfl⟩ := (mem_manifest hash).mp he
  obtain ⟨content, hc⟩ := Option.isSome_iff_exists.mp (Bool.and_eq_true_iff.mp kept).1
  have inTree : (n.1, some content) ∈ (create hash text s backupId asZip).tree.nodes :=
    (mem_create hash text).mpr (Or.inr ⟨hc ▸ hn, fun _ => hc ▸ kept⟩)
  simp [checkEntry, locate, relParts_staging hn, FileTree.found_file _ inTree, hc]

theorem restore_create : ∃ nodes, restore hash text outside true (some (create hash text s backupId asZip)) [] =
      ⟨.restored (some backupId), nodes, nodes⟩ ∧
    ∀ n, n ∈ nodes ↔ n ∈ staging s ∧ (asZip = true → isKept n = true) := by
  have mem : ∀ n, n ∈ (create hash text s backupId asZip).tree.nodes ↔ n = manifestNode hash text s backupId ∨
      n ∈ staging s ∧ (asZip = true → isKept n = true) := fun n => mem_create hash text
  generalize ha : create hash text s backupId asZip = a at mem
  have free : ∀ name ∈ topNames a, name ≠ restoreStaging := by
    rintro name hname rfl
    obtain ⟨⟨n, hn, head⟩, -⟩ := mem_topNames.mp hname
    obtain rfl | ⟨hn, -⟩ := (mem n).mp hn
    · exact absurd head (by simp [manifestNode, restoreStaging])
    · have := staging_head hn
      rw [head] at this
      exact absurd this (by decide)
  have empty : cleared a ([] : List (Node β)) = [] := by simp [cleared]
  have clear : blocked a ([] : List (Node β)) = false := by simp [blocked, found, Found.isFile]
  have copy := @copyItems_fresh _ a _ [] (topNames_nodup a) free (by simp)
  refine ⟨(topNames a).flatMap (under · a.tree.nodes), ?_, ?_⟩
  · simp only [restore, ← ha, verify_create hash text outside s backupId asZip]
    simp [ha, clear, empty, copy]
  · intro n
    simp only [List.mem_flatMap, under, List.mem_filter, decide_eq_true_eq, mem_topNames]
    constructor
    · rintro ⟨name, ⟨-, other⟩, hn, head⟩
      obtain rfl | hn := (mem n).mp hn
      · exact absurd (Option.some.inj head).symm other
      · exact hn
    · intro hn
      have head := staging_head hn.1
      obtain ⟨name, hname⟩ := Option.ne_none_iff_exists'.mp (fun e => by simp [e] at head : n.1.head? ≠ none)
      have inTree := (mem n).mpr (Or.inr hn)
      refine ⟨name, ⟨⟨n, inTree, hname⟩, ?_⟩, inTree, hname⟩
      rintro rfl
      rw [hname] at head
      exact absurd head (by decide)

/-- A backup round-trips exactly if it is zipped or no secret name was staged. -/
theorem roundTrips_create : RoundTrips hash text outside (create hash text s backupId asZip) ↔
    asZip = true ∨ ∀ n ∈ staging s, n.2.isSome → isSecretPath n.1 = false := by
  obtain ⟨nodes, run, mem⟩ := restore_create hash text outside s backupId asZip
  simp only [RoundTrips, run, mem]
  constructor
  · rintro ⟨m, hm, -, -, same⟩
    cases (readManifest_create hash text s backupId asZip).symm.trans hm
    rw [or_iff_not_imp_left]
    intro directory n hn file
    obtain ⟨content, hc⟩ := Option.isSome_iff_exists.mp file
    obtain ⟨e, he, parts, -⟩ := (same n.1 (hash content)).mp ⟨content, ⟨hc ▸ hn, fun h => absurd h directory⟩, rfl⟩
    obtain ⟨x, hx, kept, rfl⟩ := (mem_manifest hash).mp he
    have : x.1 = n.1 := Option.some.inj ((relParts_staging hx).symm.trans parts)
    simpa [isKept, this] using (Bool.and_eq_true_iff.mp kept).2
  · intro h
    refine ⟨_, readManifest_create hash text s backupId asZip, verify_create hash text outside s backupId asZip, rfl, ?_⟩
    intro path digest
    constructor
    · rintro ⟨content, ⟨hn, zip⟩, rfl⟩
      have kept : isKept (path, some content) = true := by
        obtain h | h := h
        · exact zip h
        · simp [isKept, h _ hn rfl]
      exact ⟨_, (mem_manifest hash).mpr ⟨_, hn, kept, rfl⟩, relParts_staging hn, rfl⟩
    · rintro ⟨e, he, parts, digest⟩
      obtain ⟨x, hx, kept, rfl⟩ := (mem_manifest hash).mp he
      obtain ⟨content, hc, rfl⟩ := Option.map_eq_some_iff.mp digest
      cases (relParts_staging hx).symm.trans parts
      exact ⟨content, ⟨hc ▸ hx, fun _ => hc ▸ kept⟩, rfl⟩

end Created

/-- A restore copies what it can, or touches nothing. -/
theorem restore_cases [DecidableEq η] (text : ManifestText β η) (outside : String → Found β) (confirm : Bool)
    (backup : Option (Archive β)) (target : List (Node β)) :
    (∃ a v, confirm = true ∧ backup = some a ∧ verify hash text outside a = some v ∧ v.valid = true ∧
      blocked a target = false ∧ restore hash text outside confirm backup target =
        ⟨if (copyItems a (topNames a) (cleared a target)).1 then .restored v.backupId else .raised,
          (copyItems a (topNames a) (cleared a target)).2.1, (copyItems a (topNames a) (cleared a target)).2.2⟩) ∨
    ((restore hash text outside confirm backup target).target = target ∧
      (restore hash text outside confirm backup target).written = [] ∧
      (confirm = true → ∀ a, backup = some a → ∀ v, verify hash text outside a = some v → v.valid = true →
        blocked a target = true)) := by
  unfold restore
  cases confirm with
  | false => simp
  | true =>
    cases backup with
    | none => simp
    | some a =>
      cases hv : verify hash text outside a with
      | none => simp [hv]
      | some v =>
        cases valid : v.valid with
        | false => simp [hv, valid]
        | true =>
          cases hb : blocked a target with
          | true => simp [hv, valid, hb]
          | false => exact Or.inl ⟨a, v, rfl, rfl, hv, valid, hb, by simp [hv, valid, hb]⟩

theorem restore_refused [DecidableEq η] {text : ManifestText β η} {outside : String → Found β} {confirm : Bool}
    {backup : Option (Archive β)} {target : List (Node β)}
    (h : (restore hash text outside confirm backup target).outcome.refused = true) :
    (restore hash text outside confirm backup target).target = target ∧
      (restore hash text outside confirm backup target).written = [] := by
  obtain ⟨a, v, -, -, -, -, -, run⟩ | ⟨same, nothing, -⟩ := restore_cases hash text outside confirm backup target
  · rw [run] at h
    dsimp only at h
    split at h <;> cases h
  · exact ⟨same, nothing⟩

theorem writesOnlyListed_iff [DecidableEq η] (text : ManifestText β η) (outside : String → Found β) (confirm : Bool)
    (backup : Option (Archive β)) (target : List (Node β)) :
    WritesOnlyListed hash text backup (restore hash text outside confirm backup target) ↔
      (confirm = true → ∀ a, backup = some a → ∀ v, verify hash text outside a = some v → v.valid = true →
        ∀ m, readManifest text a = some m → ∀ name ∈ copied a target, ItemListed m a (cleared a target) name) := by
  obtain ⟨a, v, rfl, rfl, hv, valid, clear, run⟩ | ⟨-, nothing, stopped⟩ :=
    restore_cases hash text outside confirm backup target
  · obtain ⟨m, hm, checked⟩ := checked_of_valid hash text outside hv valid
    have items := copyItems_listed_iff hash outside checked (topNames_nodup a)
      (fun name h => (mem_topNames.mp h).2) fun name _ => Eq.refl (destination a (cleared a target) name)
    rw [run]
    simp only [WritesOnlyListed, copied, hv, valid, clear, hm, Option.some.injEq, forall_eq', exists_eq_left',
      Bool.false_eq_true, if_false, forall_const]
    exact items
  · constructor
    · intro _ confirmed a ha v hv valid m _ name hname
      simp [copied, stopped confirmed a ha v hv valid] at hname
    · intro _ path content h
      simp [nothing] at h

/-- **What a restore writes is listed** exactly if every item that is copied goes to its own place and has only files
with a listed path. A created backup comes back as its manifest lists it exactly if it is a zip or no staged file has a
secret name. A refused restore writes nothing. -/
theorem restored_files_listed [Casing] [DecidableEq η] (text : ManifestText β η) (outside : String → Found β) :
    (∀ s backupId asZip, RoundTrips hash text outside (create hash text s backupId asZip) ↔
      asZip = true ∨ ∀ n ∈ staging s, n.2.isSome → isSecretPath n.1 = false) ∧
    ∀ confirm backup target,
      ((restore hash text outside confirm backup target).outcome.refused = true →
        (restore hash text outside confirm backup target).target = target ∧
        (restore hash text outside confirm backup target).written = []) ∧
      (WritesOnlyListed hash text backup (restore hash text outside confirm backup target) ↔
        (confirm = true → ∀ a, backup = some a → ∀ v, verify hash text outside a = some v → v.valid = true →
          ∀ m, readManifest text a = some m → ∀ name ∈ copied a target, ItemListed m a (cleared a target) name)) :=
  ⟨fun s backupId asZip => roundTrips_create hash text outside s backupId asZip, fun confirm backup target =>
    ⟨restore_refused hash, writesOnlyListed_iff hash text outside confirm backup target⟩⟩

end Restore

/-! ## Files that no manifest lists -/

inductive SampleText
  | manifest (m : Manifest String)
  | plain (s : String)
  deriving DecidableEq

def SampleText.hash : SampleText → String
  | .manifest _ => ""
  | .plain s => s

def sampleJson : ManifestText SampleText String where
  dumps := .manifest
  loads
    | .manifest m => some m
    | .plain _ => none
  loads_dumps _ := rfl

attribute [local instance] asciiCasing

def tokenPrompt : Snapshot SampleText where
  config := .plain "settings"
  exports := .plain
  prompts := some ⟨[(["token.txt"], some (.plain "ask"))], by simp, by simp; decide⟩

def withExtra : Archive SampleText where
  asZip := true
  tree :=
    { nodes := (create SampleText.hash sampleJson tokenPrompt "b" true).tree.nodes ++ [(["extra"], some (.plain "x"))]
      apart := by decide +kernel
      names := by decide +kernel }

theorem unlisted_restored :
    ¬ RoundTrips SampleText.hash sampleJson (fun _ => .missing)
        (create SampleText.hash sampleJson tokenPrompt "b" false) ∧
      ¬ WritesOnlyListed SampleText.hash sampleJson (some withExtra)
        (restore SampleText.hash sampleJson (fun _ => .missing) true (some withExtra) []) := by
  constructor
  · rintro ⟨m, hm, -, -, same⟩
    have listed := (same ["prompts", "token.txt"] "ask").mp ⟨.plain "ask", by decide +kernel, rfl⟩
    have unlisted : (readManifest sampleJson (create SampleText.hash sampleJson tokenPrompt "b" false)).any
        (fun m => Lists SampleText.hash m ["prompts", "token.txt"] (.plain "ask")) = false := by decide +kernel
    rw [hm, Option.any_some, decide_eq_false_iff_not] at unlisted
    exact unlisted listed
  · intro h
    obtain ⟨a, ha, m, hm, listed⟩ := h ["extra"] (.plain "x") (by decide +kernel)
    cases ha
    have unlisted : (readManifest sampleJson withExtra).any
        (fun m => Lists SampleText.hash m ["extra"] (.plain "x")) = false := by decide +kernel
    rw [hm, Option.any_some, decide_eq_false_iff_not] at unlisted
    exact unlisted listed

end Investor.Ops
