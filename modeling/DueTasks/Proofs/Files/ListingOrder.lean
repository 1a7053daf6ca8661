import DueTasks.Proofs.Files.Directories
import DueTasks.Proofs.Files.TaskPlaces

/-! Listings in order.
The entries of directories come in any order, and the tasks among them are sorted by their paths. No
two tasks have paths of the same components, so that the order of a listing is strict and does not
depend on that of the entries.
-/

namespace DueTasks

open DueTasks.Path

namespace FileNode

-----------------------------------------------------------------------------------------
-- Trees that are listed in other orders
-----------------------------------------------------------------------------------------

/-- One tree, the entries of its directories in one order and another. -/
inductive Reordered : FileNode → FileNode → Prop
  | same (node : FileNode) : Reordered node node
  | swapped {entries entries'} (perm : entries.Perm entries')
    : Reordered (.directory entries) (.directory entries')
  | inside {name node node'} (before after : List (EntryName × FileNode))
    (reordered : Reordered node node')
    : Reordered (.directory (before ++ (name, node) :: after))
        (.directory (before ++ (name, node') :: after))
  | trans {node node' node''} (first : Reordered node node') (second : Reordered node' node'')
    : Reordered node node''

/-- The tasks that an entry of a directory stands for. -/
def tasksAt (path : Path) (recurse : Bool) : EntryName × FileNode → List TaskEntry
  | (.text name, node) => tasksOf (path.join name) name recurse node
  | (.undecodable _, _) => []

theorem tasks_eq_flatMap (path : Path) (recurse : Bool) (entries : List (EntryName × FileNode))
    : tasks path recurse entries = entries.flatMap (tasksAt path recurse) := by
  induction entries with
  | nil => rw [tasks, List.flatMap_nil]
  | cons entry rest ih =>
      obtain ⟨_ | _, node⟩ := entry <;> rw [tasks, List.flatMap_cons, ih, tasksAt]
      rw [List.nil_append]

theorem tasksOf_directory_perm {entries entries' : List (EntryName × FileNode)} {recurse : Bool}
    (perm : ∀ path, (tasks path recurse entries).Perm (tasks path recurse entries'))
    (path : Path) (name : String)
    : (tasksOf path name recurse (.directory entries)).Perm
        (tasksOf path name recurse (.directory entries')) := by
  rw [tasksOf, tasksOf]
  split
  · exact .nil
  · exact perm path

/-- In another order, the same tasks are listed in another order, by induction on how the entries
are put in order.
-/
theorem Reordered.tasks_perm {node node' : FileNode} (recurse : Bool) (h : Reordered node node')
    : (∀ path, (tasks path recurse node.entries).Perm (tasks path recurse node'.entries))
      ∧ ∀ path name, (tasksOf path name recurse node).Perm (tasksOf path name recurse node') := by
  induction h with
  | same node => exact ⟨fun _ => .refl _, fun _ _ => .refl _⟩
  | @swapped entries entries' perm =>
      have listed (path : Path)
          : (tasks path recurse entries).Perm (tasks path recurse entries') := by
        rw [tasks_eq_flatMap, tasks_eq_flatMap]
        exact perm.flatMap_right _
      exact ⟨listed, tasksOf_directory_perm listed⟩
  | @inside name node node' before after _ ih =>
      have listed (path : Path)
          : (tasks path recurse (before ++ (name, node) :: after)).Perm
              (tasks path recurse (before ++ (name, node') :: after)) := by
        simp only [tasks_eq_flatMap, List.flatMap_append, List.flatMap_cons]
        refine .append_left _ (.append_right _ ?_)
        cases name with
        | text name => exact ih.2 (path.join name) name
        | undecodable bytes => exact .nil
      exact ⟨listed, tasksOf_directory_perm listed⟩
  | trans _ _ ih ih' =>
      exact ⟨fun path => (ih.1 path).trans (ih'.1 path),
        fun path name => (ih.2 path name).trans (ih'.2 path name)⟩

end FileNode

-----------------------------------------------------------------------------------------
-- Listings in order
-----------------------------------------------------------------------------------------

/-- Tasks in the order of their paths. -/
def byPath (tasks : List TaskEntry) : List TaskEntry :=
  tasks.mergeSort fun a b => !b.path.precedes a.path

theorem byPath_perm (tasks : List TaskEntry) : (byPath tasks).Perm tasks :=
  List.mergeSort_perm tasks _

theorem pairwise_byPath (tasks : List TaskEntry)
    : (byPath tasks).Pairwise fun a b => ¬ b.path.precedes a.path = true := by
  refine (List.pairwise_mergeSort ?_ ?_ tasks).imp fun h => by simpa using h
  · intro a b c h h'
    simp only [Bool.not_eq_true', ← Bool.not_eq_true] at h h' ⊢
    exact Path.not_precedes_trans h h'
  · intro a b
    simp only [Bool.or_eq_true, Bool.not_eq_true', ← Bool.not_eq_true]
    refine not_and_or.mp fun ⟨less, greater⟩ => ?_
    exact Path.precedes_irrefl _ (Path.precedes_trans less greater)

/-- Tasks whose paths have different components come in strict order. -/
theorem pairwise_precedes_byPath {tasks : List TaskEntry}
    (distinct : (tasks.map fun task => task.path.components).Nodup)
    : (byPath tasks).Pairwise fun a b => a.path.precedes b.path = true := by
  have same := ((byPath_perm tasks).map fun task => task.path.components).nodup_iff
  have different := List.pairwise_map.mp (same.mpr distinct)
  refine (different.and (pairwise_byPath tasks)).imp fun ⟨other, notAfter⟩ => ?_
  by_contra notBefore
  exact other (Path.components_eq_of_not_precedes notBefore notAfter)

/-- Whatever order they are given in, they come in the same order. -/
theorem byPath_eq_of_perm {tasks tasks' : List TaskEntry} (perm : tasks.Perm tasks')
    (distinct : (tasks.map fun task => task.path.components).Nodup)
    : byPath tasks = byPath tasks' := by
  have sorted := byPath_perm tasks
  have sorted' := (byPath_perm tasks').trans perm.symm
  refine List.Perm.eq_of_pairwise ?_ (pairwise_byPath tasks) (pairwise_byPath tasks')
    (sorted.trans sorted'.symm)
  intro a b here there notAfter notBefore
  exact List.inj_on_of_nodup_map distinct (sorted.mem_iff.mp here) (sorted'.mem_iff.mp there)
    (Path.components_eq_of_not_precedes notBefore notAfter)

/-- A directory whose entries are named by names of files, each once, is listed completely and
without repetitions: its tasks are those at the places of the files and links that can be seen,
with one place for each task. They are called by their paths and are in strict order by them. The
same tasks are listed of the same tree in any other order of its entries.
-/
theorem Disk.tasks_exact {disk : Disk} {path : Path} {entries : List (EntryName × FileNode)}
    (found : disk.node path true = .ok (.directory entries))
    (named : (FileNode.directory entries).WellNamed)
    (once : (FileNode.directory entries).NamedOnce) (recurse : Bool)
    : ∃ places : List TaskPlace,
        disk.tasks path recurse = .ok (places.map (·.task path))
        ∧ places.Nodup
        ∧ (∀ place, place ∈ places ↔ FileNode.Shows entries recurse place)
        ∧ (∀ place ∈ places, TaskEntry.ofPath? (place.task path).path = some (place.task path))
        ∧ (places.map (·.task path)).Pairwise (fun a b => a.path.precedes b.path = true)
        ∧ ∀ (disk' : Disk) (entries' : List (EntryName × FileNode)),
            disk'.node path true = .ok (.directory entries')
            → FileNode.Reordered (.directory entries) (.directory entries')
            → disk'.tasks path recurse = .ok (places.map (·.task path)) := by
  have distinct := FileNode.nodup_components path recurse named once
  let notAfter (place place' : TaskPlace) : Bool :=
    !(place'.task path).path.precedes (place.task path).path
  have sorted := List.mergeSort_perm (FileNode.places recurse entries) notAfter
  have listing
      : ((FileNode.places recurse entries).mergeSort notAfter).map (·.task path)
        = byPath (FileNode.tasks path recurse entries) := by
    rw [FileNode.tasks_eq_map]
    exact List.map_mergeSort fun _ _ _ _ => rfl
  refine ⟨(FileNode.places recurse entries).mergeSort notAfter, ?_,
    sorted.nodup_iff.mpr (FileNode.nodup_places recurse once.1 once.2),
    fun place => sorted.mem_iff.trans FileNode.mem_places, fun place listed => ?_,
    listing ▸ pairwise_precedes_byPath distinct, ?_⟩
  · rw [listing]
    exact tasks_of_directory found recurse
  · have shown := FileNode.mem_places.mp (sorted.mem_iff.mp listed)
    exact TaskPlace.ofPath?_task path (shown.isFileName named)
  · intro disk' entries' found' reordered
    have perm : (FileNode.tasks path recurse entries).Perm (FileNode.tasks path recurse entries') :=
      (reordered.tasks_perm recurse).1 path
    rw [listing, byPath_eq_of_perm perm distinct]
    exact tasks_of_directory found' recurse

/-- Entries of all kinds: the tasks among them are one file and, in a directory, a link. -/
def mixedEntries : List (EntryName × FileNode) := [
  (.text "b.c", .file [] false), (.text ".git", .directory [(.text "x", .file [] false)]),
  (.undecodable [0xff], .file [] false),
  (.text "b", .directory [(.text "pipe", .special), (.text "z", .link "..")])]

theorem mixedEntries_wellNamed : (FileNode.directory mixedEntries).WellNamed := by
  simp only [mixedEntries, FileNode.WellNamed, FileNode.WellNamedEntries, EntryName.text.injEq,
    forall_eq', reduceCtorEq, false_implies, implies_true, and_true, true_and]
  decide

theorem mixedEntries_namedOnce : (FileNode.directory mixedEntries).NamedOnce := by
  simp [mixedEntries, FileNode.NamedOnce, FileNode.NamedOnceEntries]

/-- By its characters, the path of the file would come first. -/
theorem byPath_mixedEntries
    : byPath (FileNode.tasks ⟨"/"⟩ true mixedEntries) = [⟨⟨"/b/z"⟩, "z"⟩, ⟨⟨"/b.c"⟩, "b.c"⟩] := by
  have unsorted
      : FileNode.tasks ⟨"/"⟩ true mixedEntries = [⟨⟨"/b.c"⟩, "b.c"⟩, ⟨⟨"/b/z"⟩, "z"⟩] := by
    decide +kernel
  have before : Path.precedes ⟨"/b/z"⟩ ⟨"/b.c"⟩ = true := by decide +kernel
  rw [unsorted]
  simp [byPath, List.mergeSort, before]

/-- They are listed alike in one order and in the other. -/
theorem Disk.tasks_exact_of_mixedEntries
    : let listed : List TaskEntry := [⟨⟨"/b/z"⟩, "z"⟩, ⟨⟨"/b.c"⟩, "b.c"⟩]
      Disk.tasks ⟨.directory mixedEntries, []⟩ ⟨"/"⟩ true = .ok listed
      ∧ Disk.tasks ⟨.directory mixedEntries.reverse, []⟩ ⟨"/"⟩ true = .ok listed
      ∧ ∃ places : List TaskPlace,
          places.map (·.task ⟨"/"⟩) = listed
          ∧ ∀ place, place ∈ places ↔ FileNode.Shows mixedEntries true place := by
  intro listed
  have found
      : Disk.node ⟨.directory mixedEntries, []⟩ ⟨"/"⟩ true = .ok (.directory mixedEntries) :=
    (Disk.node_root rfl).2
  have found'
      : Disk.node ⟨.directory mixedEntries.reverse, []⟩ ⟨"/"⟩ true
        = .ok (.directory mixedEntries.reverse) :=
    (Disk.node_root rfl).2
  obtain ⟨places, listing, _, shown, _, _, reordered⟩ :=
    Disk.tasks_exact found mixedEntries_wellNamed mixedEntries_namedOnce true
  have sorted : Disk.tasks ⟨.directory mixedEntries, []⟩ ⟨"/"⟩ true = .ok listed :=
    (Disk.tasks_of_directory found true).trans (congrArg Except.ok byPath_mixedEntries)
  have same : places.map (·.task ⟨"/"⟩) = listed := Except.ok.inj (listing.symm.trans sorted)
  refine ⟨sorted, ?_, places, same, shown⟩
  rw [← same]
  exact reordered _ _ found' (.swapped (List.reverse_perm _).symm)

end DueTasks
