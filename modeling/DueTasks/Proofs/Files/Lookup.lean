import DueTasks.Files.FileSystem
import DueTasks.Proofs.Files.Components

/-! Looking up paths in a tree.
A walk asks a directory for one name after another. Each of its steps has its own equation here,
told by what stands at the places of the tree.
-/

namespace DueTasks

open DueTasks.Path

-----------------------------------------------------------------------------------------
-- Places of a tree
-----------------------------------------------------------------------------------------

namespace FileNode

theorem at?_append (root : FileNode) (before after : List String)
    : root.at? (before ++ after) = (root.at? before).bind (·.at? after) := by
  induction before generalizing root with
  | nil => rfl
  | cons name before ih =>
      simp only [List.cons_append, at?, Option.bind_eq_bind, Option.bind_assoc, ih]

/-- What a directory has under a name. -/
theorem at?_behind {root : FileNode} {place : List String} {entries : List (EntryName × FileNode)}
    (directory : root.at? place = some (.directory entries)) (name : String)
    : root.at? (place ++ [name]) = entries.lookup (.text name) := by
  rw [at?_append, directory]
  simp only [at?, child?, FileNode.entries, Option.bind_some, Option.bind_eq_bind,
    Option.bind_fun_some]

/-- Names lead to a directory. -/
def HasDirectory (root : FileNode) (names : List String) : Prop :=
  ∃ entries, root.at? names = some (.directory entries)

/-- What has something behind it is a directory. -/
theorem hasDirectory_of_behind {root : FileNode} {place more : List String} {name : String}
    {node : FileNode} (h : root.at? (place ++ name :: more) = some node)
    : root.HasDirectory place := by
  rw [at?_append] at h
  obtain ⟨middle, found, h⟩ := Option.bind_eq_some_iff.mp h
  obtain ⟨child, entry, -⟩ := Option.bind_eq_some_iff.mp h
  cases middle with
  | directory entries => exact ⟨entries, found⟩
  | file bytes executable => cases entry
  | link target => cases entry
  | special => cases entry

-----------------------------------------------------------------------------------------
-- Steps of a walk
-----------------------------------------------------------------------------------------

/-- A name that a walk asks a directory for. -/
structure IsAsked (name : String) : Prop where
  notCurrent : name ≠ "."
  notParent : name ≠ ".."
  short : name.utf8ByteSize ≤ maxNameBytes

instance : DecidablePred IsAsked := fun name =>
  decidable_of_iff (name ≠ "." ∧ name ≠ ".." ∧ name.utf8ByteSize ≤ maxNameBytes)
    ⟨fun ⟨current, parent, short⟩ => ⟨current, parent, short⟩,
      fun ⟨current, parent, short⟩ => ⟨current, parent, short⟩⟩

/-- A walk at a place asks a directory for a name. -/
structure Asks (root : FileNode) (place : List String) (name : String) : Prop
    extends IsAsked name where
  directory : root.HasDirectory place.reverse

variable {root : FileNode} {links : Nat} {place rest : List String} {name : String}

theorem walk_current {follow : Bool}
    (directory : root.HasDirectory place.reverse)
    : walk root follow links place ("." :: rest) = walk root follow links place rest := by
  obtain ⟨entries, directory⟩ := directory
  rw [walk, directory]
  rfl

theorem walk_parent {follow : Bool}
    (directory : root.HasDirectory place.reverse)
    : walk root follow links place (".." :: rest) = walk root follow links place.tail rest := by
  obtain ⟨entries, directory⟩ := directory
  rw [walk, directory]
  rfl

/-- Where the target of a link is looked up that stands at a place. -/
def startOfTarget (target : String) (place : List String) : List String :=
  if target.toList.head? = some '/' then [] else place

/-- What the answer to a question of a walk leads to. -/
theorem walk_of_asks (asks : root.Asks place name)
    : walk root true links place (name :: rest)
      = match root.at? (place.reverse ++ [name]) with
        | none => .error .notFound
        | some (.link target) =>
            match links with
            | 0 => .error .tooManyLinks
            | links + 1 =>
                walk root true links (startOfTarget target place) (lookupSegments target ++ rest)
        | some _ => walk root true links (name :: place) rest := by
  obtain ⟨entries, directory⟩ := asks.directory
  have lookup := at?_behind directory name
  rw [walk, directory]
  generalize root.at? (place.reverse ++ [name]) = answer at lookup ⊢
  rcases answer with _ | ⟨_ | _ | target | _⟩ <;> cases links <;>
    simp only [if_neg asks.notCurrent, if_neg asks.notParent, if_neg (Nat.not_lt.mpr asks.short),
      ← lookup, startOfTarget, Bool.not_true, Bool.and_false, Bool.false_eq_true, if_false]

/-- A walk enters what is not a link. -/
theorem walk_enter {node : FileNode} (found : root.at? (place.reverse ++ [name]) = some node)
    (plain : ∀ target, node ≠ .link target) (asked : IsAsked name)
    : walk root true links place (name :: rest) = walk root true links (name :: place) rest := by
  rw [walk_of_asks ⟨asked, hasDirectory_of_behind found⟩, found]
  cases node with
  | file | directory | special => rfl
  | link target => exact absurd rfl (plain target)

/-- A walk follows a link. -/
theorem walk_follow {target : String}
    (found : root.at? (place.reverse ++ [name]) = some (.link target)) (asked : IsAsked name)
    : walk root true (links + 1) place (name :: rest)
      = walk root true links (startOfTarget target place) (lookupSegments target ++ rest) := by
  rw [walk_of_asks ⟨asked, hasDirectory_of_behind found⟩, found]

theorem walk_missing (asks : root.Asks place name)
    (missing : root.at? (place.reverse ++ [name]) = none)
    : walk root true links place (name :: rest) = .error .notFound := by
  rw [walk_of_asks asks, missing]

theorem walk_notADirectory {follow : Bool}
    (other : ¬ root.HasDirectory place.reverse)
    : walk root follow links place (name :: rest) = .error .notADirectory := by
  rw [walk]
  split
  · rename_i entries directory
    exact absurd ⟨entries, directory⟩ other
  · rfl

theorem walk_nameTooLong {follow : Bool}
    (directory : root.HasDirectory place.reverse)
    (long : maxNameBytes < name.utf8ByteSize)
    : walk root follow links place (name :: rest) = .error .nameTooLong := by
  have notIdle (word : String) (short : word.utf8ByteSize ≤ maxNameBytes) : name ≠ word :=
    fun same => absurd long (Nat.not_lt.mpr (same ▸ short))
  obtain ⟨entries, directory⟩ := directory
  rw [walk, directory]
  simp only [if_neg (notIdle "." (by decide)), if_neg (notIdle ".." (by decide)), if_pos long]

-----------------------------------------------------------------------------------------
-- Walks along names
-----------------------------------------------------------------------------------------

/-- A walk along names that lead to anything but a link ends there, by induction on the names: what
has more behind it is a directory, so that the walk enters it.
-/
theorem walk_names {node : FileNode} {names : List String}
    (found : root.at? (place.reverse ++ names) = some node) (plain : ∀ target, node ≠ .link target)
    (asked : ∀ name ∈ names, IsAsked name)
    : walk root true links place names = .ok (names.reverse ++ place) := by
  induction names generalizing place with
  | nil => rw [walk, List.reverse_nil, List.nil_append]
  | cons name names ih =>
      obtain ⟨first, asked⟩ := List.forall_mem_cons.mp asked
      rw [← List.singleton_append, ← List.append_assoc] at found
      obtain ⟨entered, here, passable⟩
          : ∃ entered, root.at? (place.reverse ++ [name]) = some entered
            ∧ ∀ target, entered ≠ .link target := by
        cases names with
        | nil => exact ⟨node, by rwa [List.append_nil] at found, plain⟩
        | cons next names =>
            obtain ⟨entries, directory⟩ := hasDirectory_of_behind found
            exact ⟨_, directory, fun _ same => by cases same⟩
      rw [walk_enter here passable first, ih (by rwa [List.reverse_cons]) asked,
        List.reverse_cons, List.append_assoc]
      rfl

/-- Names of files behind a slash each are looked up one after another. -/
theorem lookupSegments_ofNames {names : List String} (files : ∀ name ∈ names, IsFileName name)
    (named : names ≠ [])
    : lookupSegments (ofNames true names).text = names := by
  have text : (ofNames true names).text.toList = '/' :: ("/".intercalate names).toList :=
    chars_ofNames names
  have segments : segments (ofNames true names).text.toList = [] :: names.map String.toList := by
    rw [text, ← segments_intercalate files named]
    exact Text.parts_cons_of_pos rfl _
  have written : ∀ segment ∈ names.map String.toList, decide (segment ≠ []) = true :=
    List.forall_mem_map.mpr fun name member =>
      decide_eq_true fun none => (files name member).written (String.toList_eq_nil_iff.mp none)
  have closing : (ofNames true names).text.toList.getLast? ≠ some '/' := by
    intro last
    obtain ⟨before, closed⟩ := List.getLast?_eq_some_iff.mp last
    -- a slash at the end would leave an empty segment behind it
    have split : Path.segments (before ++ ['/']) = Path.segments before ++ [[]] :=
      Text.parts_append_cons rfl before []
    have none : [] ∈ names.map String.toList := by
      rw [closed, split] at segments
      have last := congrArg List.getLast? segments
      rw [List.getLast?_concat, List.getLast?_cons, List.getLast?_eq_some_getLast
        (mt List.map_eq_nil_iff.mp named)] at last
      exact Option.some.inj last ▸ List.getLast_mem _
    exact of_decide_eq_true (written [] none) rfl
  rw [lookupSegments, segments, if_neg closing, List.filter_cons_of_neg (by decide),
    List.filter_eq_self.mpr written, List.append_nil, List.map_map]
  exact (List.map_congr_left fun name _ => String.ofList_toList).trans (List.map_id _)

/-- A path that can be looked up at all. -/
structure IsSpelled (path : String) : Prop where
  written : path ≠ ""
  plain : '\x00' ∉ path.toList
  short : path.utf8ByteSize ≤ maxPathBytes

instance : DecidablePred IsSpelled := fun path =>
  decidable_of_iff (path ≠ "" ∧ '\x00' ∉ path.toList ∧ path.utf8ByteSize ≤ maxPathBytes)
    ⟨fun ⟨written, plain, short⟩ => ⟨written, plain, short⟩,
      fun ⟨written, plain, short⟩ => ⟨written, plain, short⟩⟩

theorem locate_eq (root : FileNode) (working : List String) {path : String} {follow : Bool}
    (spelled : IsSpelled path)
    : root.locate working path follow
      = (walk root follow maxLinks
          (if path.toList.head? = some '/' then [] else working.reverse)
          (lookupSegments path)).map List.reverse := by
  have written : path.isEmpty = false := by simpa using spelled.written
  rw [locate, written, if_neg Bool.false_ne_true,
    if_neg (by simpa using spelled.plain), if_neg (Nat.not_lt.mpr spelled.short)]

end FileNode

namespace Disk

variable (disk : Disk)

/-- What a path leads to in a tree has an absolute path. -/
theorem isAbsolute_of_canonical {path real : Path} (h : disk.fileSystem.canonical path = .ok real)
    : real.isAbsolute = true := by
  change (disk.locate path true).map (ofNames true) = .ok real at h
  cases found : disk.locate path true with
  | error error =>
      rw [found] at h
      cases h
  | ok names =>
      rw [found] at h
      cases h
      exact isAbsolute_ofNames names

end Disk

end DueTasks
