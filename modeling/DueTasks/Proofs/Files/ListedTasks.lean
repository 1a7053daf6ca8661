import DueTasks.Files.Listing
import DueTasks.Proofs.Files.Components

/-! Where listed tasks lie.
A file system names the entries of its directories by names of files. Below a directory of such a
tree, every task is listed under the path of the directory with names of files behind it.
-/

namespace DueTasks

open DueTasks.Path

-----------------------------------------------------------------------------------------
-- Paths below a directory
-----------------------------------------------------------------------------------------

namespace Path

/-- A path is that of a directory with a name or more behind it. -/
structure LiesBelow (directory path : Path) : Prop where
  absolute : path.isAbsolute = directory.isAbsolute
  components
    : directory.isAbsolute = true
      → ∃ names : List String,
          names ≠ [] ∧ path.components = directory.components ++ names.map .name

/-- A name behind a directory makes it neither absolute nor relative. -/
theorem isAbsolute_join_of_isFileName {name : String} (file : IsFileName name) (directory : Path)
    : (directory.join name).isAbsolute = directory.isAbsolute := by
  cases rooted : directory.isAbsolute with
  | true => exact isAbsolute_join rooted name
  | false =>
      have first : directory.text.toList.head? ≠ some '/' := beq_eq_false_iff_ne.mp rooted
      rw [isAbsolute, beq_eq_false_iff_ne, join, if_neg file.plain, chars]
      by_cases written : directory.text = ""
      · simpa [written] using file.plain
      · obtain ⟨c, rest, text⟩ := List.exists_cons_of_ne_nil (mt String.toList_eq_nil_iff.mp written)
        rw [text] at first
        split <;> simpa [String.toList_append, text] using first

/-- A name behind a directory is a segment behind those of the directory, in the place of the empty
one that a slash at the end, or an empty path, has left there.
-/
theorem segments_join_of_isFileName {name : String} (file : IsFileName name) (directory : Path)
    : ∃ before,
        (segments directory.chars = before ∧ before ≠ []
          ∨ segments directory.chars = before ++ [[]])
        ∧ segments (directory.join name).chars = before ++ [name.toList] := by
  have single : segments name.toList = [name.toList] := segments_of_isFileName file
  rw [join, if_neg file.plain]
  by_cases closed : directory.chars.getLast? = some '/'
  · obtain ⟨before, text⟩ : ∃ before, directory.chars = before ++ ['/'] :=
      List.getLast?_eq_some_iff.mp closed
    have joined : (Path.mk (directory.text ++ name)).chars = before ++ '/' :: name.toList := by
      rw [chars, String.toList_append, show directory.text.toList = before ++ ['/'] from text,
        List.append_assoc]
      rfl
    refine ⟨segments before, .inr ?_, ?_⟩
    · exact text ▸ Text.parts_append_cons rfl before []
    · rw [if_pos (by simp [closed]), joined, ← single]
      exact Text.parts_append_cons rfl before name.toList
  · by_cases written : directory.text = ""
    · refine ⟨[], .inr (by rw [chars, written]; rfl), ?_⟩
      rw [if_pos (by simp [written]), chars, written, String.empty_append, single, List.nil_append]
    · have joined : (Path.mk (directory.text ++ "/" ++ name)).chars
          = directory.chars ++ '/' :: name.toList := by
        rw [chars, String.toList_append, String.toList_append, List.append_assoc]
        rfl
      refine ⟨segments directory.chars, .inl ⟨rfl, Text.parts_ne_nil _ _⟩, ?_⟩
      rw [if_neg (by simpa [closed] using written), joined, ← single]
      exact Text.parts_append_cons rfl directory.chars name.toList

/-- A name behind a directory is one more component. -/
theorem components_join_of_isFileName {name : String} (file : IsFileName name) (directory : Path)
    : (directory.join name).components = directory.components ++ [.name name] := by
  obtain ⟨before, place, joined⟩ := segments_join_of_isFileName file directory
  have absolute := isAbsolute_join_of_isFileName file directory
  obtain ⟨busy, named⟩ := file.componentOf
  have other : name.toList ≠ ['.'] := fun same => file.current (String.toList_injective same)
  have startsHere : (directory.join name).startsHere = directory.startsHere := by
    rw [Path.startsHere, Path.startsHere, joined]
    rcases place with ⟨place, spelled⟩ | place
    · obtain ⟨first, rest, rfl⟩ := List.exists_cons_of_ne_nil spelled
      rw [place]
      rfl
    · rw [place]
      cases before with
      | nil => simpa using other
      | cons first rest => rfl
  have body : body (directory.join name).chars = body directory.chars ++ [.name name] := by
    rw [Path.body, Path.body, joined]
    rcases place with ⟨place, -⟩ | place
    · simp [place, busy, named]
    · have idle : isIdle [] = true := rfl
      simp [place, busy, named, idle]
  rw [components_eq, components_eq, lead, lead, absolute, startsHere, body, List.append_assoc]

theorem liesBelow_join {name : String} (file : IsFileName name) (directory : Path)
    : LiesBelow directory (directory.join name) where
  absolute := isAbsolute_join_of_isFileName file directory
  components _ := ⟨[name], List.cons_ne_nil _ _, components_join_of_isFileName file directory⟩

theorem LiesBelow.trans {directory middle path : Path} (first : LiesBelow directory middle)
    (second : LiesBelow middle path)
    : LiesBelow directory path where
  absolute := second.absolute.trans first.absolute
  components rooted := by
    obtain ⟨names, named, above⟩ := first.components rooted
    obtain ⟨more, _, below⟩ := second.components (first.absolute.trans rooted)
    refine ⟨names ++ more, List.append_ne_nil_of_left_ne_nil named _, ?_⟩
    rw [below, above, List.map_append, List.append_assoc]

end Path

-----------------------------------------------------------------------------------------
-- Trees with names of files
-----------------------------------------------------------------------------------------

namespace FileNode

mutual

/-- Below a node, every entry whose name is a text is named by a name of a file. -/
def WellNamed : FileNode → Prop
  | file _ _ => True
  | link _ => True
  | special => True
  | directory entries => WellNamedEntries entries

def WellNamedEntries : List (EntryName × FileNode) → Prop
  | [] => True
  | (name, node) :: rest =>
      (∀ text, name = .text text → IsFileName text) ∧ node.WellNamed ∧ WellNamedEntries rest

end

/-- The entries of a well-named directory are named by names of files and are well-named, by
induction on the entries.
-/
theorem wellNamed_of_mem {entries : List (EntryName × FileNode)} {name : EntryName}
    {node : FileNode} (named : WellNamedEntries entries) (entry : (name, node) ∈ entries)
    : (∀ text, name = .text text → IsFileName text) ∧ node.WellNamed := by
  induction entries with
  | nil => cases entry
  | cons first rest ih =>
      rcases List.mem_cons.mp entry with rfl | later
      · exact ⟨named.1, named.2.1⟩
      · exact ih named.2.2 later

theorem wellNamed_of_lookup {entries : List (EntryName × FileNode)} {name : EntryName}
    {node : FileNode} (named : WellNamedEntries entries) (found : entries.lookup name = some node)
    : node.WellNamed := by
  obtain ⟨before, after, rfl, _⟩ := List.lookup_eq_some_iff.mp found
  exact (wellNamed_of_mem named (List.mem_append_right before List.mem_cons_self)).2

/-- The places of a well-named tree are well-named, by induction on the names that lead to them. -/
theorem WellNamed.at? {root node : FileNode} {names : List String} (named : root.WellNamed)
    (found : root.at? names = some node)
    : node.WellNamed := by
  induction names generalizing root with
  | nil =>
      cases found
      exact named
  | cons name names ih =>
      obtain ⟨child, entry, below⟩ := Option.bind_eq_some_iff.mp found
      cases root with
      | directory entries => exact ih (wellNamed_of_lookup named entry) below
      | file bytes executable => cases entry
      | link target => cases entry
      | special => cases entry

-----------------------------------------------------------------------------------------
-- Listed tasks
-----------------------------------------------------------------------------------------

mutual

/-- The tasks among the entries of a directory lie below it. -/
theorem liesBelow_of_mem_tasks {path : Path} {recurse : Bool} {task : TaskEntry}
    : ∀ {entries}, WellNamedEntries entries → task ∈ tasks path recurse entries
      → path.LiesBelow task.path
  | [], _, member => by
      rw [tasks] at member
      cases member
  | (.undecodable _, _) :: _, named, member => by
      rw [tasks] at member
      exact liesBelow_of_mem_tasks named.2.2 member
  | (.text name, node) :: _, named, member => by
      rw [tasks] at member
      have entry := liesBelow_join (named.1 name rfl) path
      rcases List.mem_append.mp member with here | later
      · rcases liesBelow_of_mem_tasksOf named.2.1 here with same | below
        · exact same ▸ entry
        · exact entry.trans below
      · exact liesBelow_of_mem_tasks named.2.2 later

/-- The tasks that an entry stands for are the entry itself or lie below it. -/
theorem liesBelow_of_mem_tasksOf {path : Path} {name : String} {recurse : Bool} {task : TaskEntry}
    : ∀ {node : FileNode}, node.WellNamed → task ∈ tasksOf path name recurse node
      → path = task.path ∨ path.LiesBelow task.path
  | .file _ _, _, member => by
      rw [tasksOf] at member
      split at member
      · cases member
      · exact .inl (congrArg TaskEntry.path (List.mem_singleton.mp member)).symm
  | .link _, _, member => by
      rw [tasksOf] at member
      split at member
      · cases member
      · exact .inl (congrArg TaskEntry.path (List.mem_singleton.mp member)).symm
  | .directory _, named, member => by
      rw [tasksOf] at member
      split at member
      · cases member
      · exact .inr (liesBelow_of_mem_tasks named member)
  | .special, _, member => by
      rw [tasksOf] at member
      cases member

end

end FileNode

/-- What is listed of a directory are the tasks among its entries. -/
theorem Disk.tasks_of_directory {disk : Disk} {path : Path} {entries : List (EntryName × FileNode)}
    (found : disk.node path true = .ok (.directory entries)) (recurse : Bool)
    : disk.tasks path recurse
      = .ok ((FileNode.tasks path recurse entries).mergeSort fun a b => !b.path.precedes a.path) := by
  rw [Disk.tasks, found]

end DueTasks
