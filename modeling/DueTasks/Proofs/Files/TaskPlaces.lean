import DueTasks.Proofs.Files.ListedTasks
import DueTasks.Proofs.Files.PathOrder
import Mathlib.Data.List.Nodup

/-! What is listed of a directory.
A task has a place below the directory: the names of the directories on the way to it, and its own.
The places of all files and links that can be seen are listed, each once, and the paths to them
differ.
-/

namespace DueTasks

open DueTasks.Path

-----------------------------------------------------------------------------------------
-- Places of tasks
-----------------------------------------------------------------------------------------

/-- Where a task lies below a directory: behind the names of other directories, under its own. -/
structure TaskPlace where
  directories : List String
  name : String
deriving DecidableEq

namespace TaskPlace

def names (place : TaskPlace) : List String :=
  place.directories ++ [place.name]

/-- The place as it is below the directory above. -/
def within (directory : String) (place : TaskPlace) : TaskPlace :=
  ⟨directory :: place.directories, place.name⟩

/-- The task at a place below a path. -/
def task (path : Path) (place : TaskPlace) : TaskEntry :=
  ⟨(place.directories.foldl Path.join path).join place.name, place.name⟩

theorem eq_of_names {place place' : TaskPlace} (same : place.names = place'.names)
    : place = place' := by
  obtain ⟨directories, own⟩ := List.append_inj' same rfl
  cases place
  cases place'
  exact congrArg₂ mk directories (List.singleton_inj.mp own)

/-- The names of a place are the components behind a path to it, by induction on the
directories.
-/
theorem components_task (path : Path) {place : TaskPlace}
    (files : ∀ name ∈ place.names, IsFileName name)
    : (place.task path).path.components = path.components ++ place.names.map .name := by
  obtain ⟨directories, name⟩ := place
  induction directories generalizing path with
  | nil => exact components_join_of_isFileName (files name List.mem_cons_self) path
  | cons directory directories ih =>
      obtain ⟨file, files⟩ := List.forall_mem_cons.mp files
      have inner := ih (path.join directory) files
      rw [components_join_of_isFileName file, List.append_assoc] at inner
      exact inner

/-- A task is called by the last component of the path to its place. -/
theorem ofPath?_task (path : Path) {place : TaskPlace}
    (files : ∀ name ∈ place.names, IsFileName name)
    : TaskEntry.ofPath? (place.task path).path = some (place.task path) := by
  have last : (place.names.map PathComponent.name).getLast? = some (.name place.name) := by
    simp [names]
  rw [TaskEntry.ofPath?, fileName?, components_task path files, List.getLast?_append, last]
  rfl

end TaskPlace

namespace FileNode

/-- What is a task, if it can be seen. -/
inductive IsTask : FileNode → Prop
  | file (bytes : List UInt8) (executable : Bool) : IsTask (.file bytes executable)
  | link (target : String) : IsTask (.link target)

/-- A node lies at a place below the entries of a directory. What lies behind a link does not. -/
inductive Holds : List (EntryName × FileNode) → TaskPlace → FileNode → Prop
  | direct {entries name node} (entry : (.text name, node) ∈ entries)
    : Holds entries ⟨[], name⟩ node
  | deeper {entries directory inner directories name node}
    (entry : (.text directory, .directory inner) ∈ entries)
    (later : Holds inner ⟨directories, name⟩ node)
    : Holds entries ⟨directory :: directories, name⟩ node

/-- A task is to be listed: a file or a link lies at its place, no name on the way to it begins with
a dot, and it lies in a directory below only if those are listed too.
-/
structure Shows (entries : List (EntryName × FileNode)) (recurse : Bool) (place : TaskPlace) : Prop
    where
  task : ∃ node, Holds entries place node ∧ node.IsTask
  visible : ∀ name ∈ place.names, name.toList.head? ≠ some '.'
  near : place.directories = [] ∨ recurse = true

-----------------------------------------------------------------------------------------
-- The places that are listed
-----------------------------------------------------------------------------------------

mutual

/-- The places of the tasks among the entries of a directory. -/
def places (recurse : Bool) : List (EntryName × FileNode) → List TaskPlace
  | [] => []
  | (.undecodable _, _) :: rest => places recurse rest
  | (.text name, node) :: rest => placesUnder name recurse node ++ places recurse rest

/-- The places of the tasks that one entry stands for. -/
def placesUnder (name : String) (recurse : Bool) : FileNode → List TaskPlace
  | .file .. => if name.startsWith "." then [] else [⟨[], name⟩]
  | .link _ => if name.startsWith "." then [] else [⟨[], name⟩]
  | .directory entries =>
      if name.startsWith "." || !recurse then [] else (places recurse entries).map (·.within name)
  | .special => []

end

mutual

/-- The tasks among the entries of a directory are those at their places. -/
theorem tasks_eq_map (path : Path) (recurse : Bool)
    : ∀ entries, tasks path recurse entries = (places recurse entries).map (·.task path)
  | [] => by rw [tasks, places, List.map_nil]
  | (.undecodable _, _) :: rest => by rw [tasks, places, tasks_eq_map path recurse rest]
  | (.text name, node) :: rest => by
      rw [tasks, places, tasks_eq_map path recurse rest, tasksOf_eq_map path name recurse node,
        List.map_append]

theorem tasksOf_eq_map (path : Path) (name : String) (recurse : Bool)
    : ∀ node : FileNode,
        tasksOf (path.join name) name recurse node
          = (placesUnder name recurse node).map (·.task path)
  | .file _ _ => by
      rw [tasksOf, placesUnder]
      split <;> rfl
  | .link _ => by
      rw [tasksOf, placesUnder]
      split <;> rfl
  | .directory entries => by
      rw [tasksOf, placesUnder]
      split
      · rfl
      · rw [tasks_eq_map (path.join name) recurse entries, List.map_map]
        rfl
  | .special => by rw [tasksOf, placesUnder, List.map_nil]

end

-----------------------------------------------------------------------------------------
-- They are the places of the tasks that can be seen
-----------------------------------------------------------------------------------------

/-- A name is hidden if it begins with a dot. -/
theorem startsWith_dot {name : String}
    : name.startsWith "." = true ↔ name.toList.head? = some '.' := by
  rw [String.startsWith_string_iff]
  cases name.toList with
  | nil => simp
  | cons c rest => simp [eq_comm]

theorem mem_places_iff {recurse : Bool} {entries : List (EntryName × FileNode)}
    {place : TaskPlace}
    : place ∈ places recurse entries
      ↔ ∃ name node, (.text name, node) ∈ entries ∧ place ∈ placesUnder name recurse node := by
  induction entries with
  | nil => simp [places]
  | cons entry rest ih =>
      obtain ⟨_ | _, node⟩ := entry
      · rw [places, List.mem_append, ih]
        simp [or_and_right, exists_or]
      · rw [places, ih]
        simp

/-- A file or a link is listed under its name, and what is listed of a directory behind its name. -/
theorem mem_placesUnder_iff {name : String} {recurse : Bool} {node : FileNode} {place : TaskPlace}
    : place ∈ placesUnder name recurse node
      ↔ name.toList.head? ≠ some '.'
        ∧ (node.IsTask ∧ place = ⟨[], name⟩
          ∨ ∃ entries inner,
              node = .directory entries
              ∧ recurse = true
              ∧ inner ∈ places recurse entries
              ∧ place = inner.within name) := by
  by_cases hidden : name.startsWith "." = true
  · have none : placesUnder name recurse node = [] := by
      cases node <;> simp [placesUnder, hidden]
    simp [none, startsWith_dot.mp hidden]
  · have visible : name.toList.head? ≠ some '.' := mt startsWith_dot.mpr hidden
    cases node with
    | file bytes executable =>
        have task : (FileNode.file bytes executable).IsTask := .file bytes executable
        simp [placesUnder, hidden, visible, task]
    | link target =>
        have task : (FileNode.link target).IsTask := .link target
        simp [placesUnder, hidden, visible, task]
    | directory entries =>
        have other : ¬ (FileNode.directory entries).IsTask := nofun
        cases recurse <;> simp [placesUnder, hidden, visible, other, eq_comm]
    | special =>
        have other : ¬ FileNode.special.IsTask := nofun
        simp [placesUnder, other]

/-- A place is listed exactly if there is a task at it that can be seen, by induction on the
directories on the way to it.
-/
theorem mem_places {recurse : Bool} {entries : List (EntryName × FileNode)} {place : TaskPlace}
    : place ∈ places recurse entries ↔ Shows entries recurse place := by
  obtain ⟨directories, own⟩ := place
  rw [mem_places_iff]
  induction directories generalizing entries with
  | nil =>
      constructor
      · rintro ⟨name, node, entry, member⟩
        rcases mem_placesUnder_iff.mp member with ⟨visible, ⟨task, same⟩ | ⟨_, _, _, _, _, same⟩⟩
        · cases same
          exact ⟨⟨node, .direct entry, task⟩, List.forall_mem_singleton.mpr visible, .inl rfl⟩
        · cases same
      · rintro ⟨⟨node, there, task⟩, visible, -⟩
        cases there with
        | direct entry =>
            have visible := visible own List.mem_cons_self
            exact ⟨own, node, entry, mem_placesUnder_iff.mpr ⟨visible, .inl ⟨task, rfl⟩⟩⟩
  | cons directory directories ih =>
      constructor
      · rintro ⟨name, node, entry, member⟩
        rcases mem_placesUnder_iff.mp member with
          ⟨visible, ⟨_, same⟩ | ⟨inner, place, rfl, recurses, listed, same⟩⟩
        · cases same
        · cases same
          obtain ⟨⟨node, there, task⟩, visible', -⟩ := ih.mp (mem_places_iff.mp listed)
          exact ⟨⟨node, .deeper entry there, task⟩, List.forall_mem_cons.mpr ⟨visible, visible'⟩,
            .inr recurses⟩
      · rintro ⟨⟨node, there, task⟩, visible, near⟩
        obtain ⟨visible, visible'⟩ := List.forall_mem_cons.mp visible
        have recurses : recurse = true := near.resolve_left (List.cons_ne_nil _ _)
        cases there with
        | deeper entry later =>
            have listed := ih.mpr ⟨⟨node, later, task⟩, visible', .inr recurses⟩
            exact ⟨directory, _, entry, mem_placesUnder_iff.mpr
              ⟨visible, .inr ⟨_, _, rfl, recurses, mem_places_iff.mpr listed, rfl⟩⟩⟩

-----------------------------------------------------------------------------------------
-- Each place is listed once
-----------------------------------------------------------------------------------------

mutual

/-- In a directory and in those below it every name stands for one entry. -/
def NamedOnce : FileNode → Prop
  | file _ _ => True
  | link _ => True
  | special => True
  | directory entries => (entries.map Prod.fst).Nodup ∧ NamedOnceEntries entries

def NamedOnceEntries : List (EntryName × FileNode) → Prop
  | [] => True
  | (_, node) :: rest => node.NamedOnce ∧ NamedOnceEntries rest

end

theorem head?_names_of_mem_placesUnder {name : String} {recurse : Bool} {node : FileNode}
    {place : TaskPlace} (member : place ∈ placesUnder name recurse node)
    : place.names.head? = some name := by
  rcases mem_placesUnder_iff.mp member with ⟨-, ⟨-, rfl⟩ | ⟨_, _, _, _, _, rfl⟩⟩ <;> rfl

mutual

theorem nodup_places (recurse : Bool)
    : ∀ {entries}, (entries.map Prod.fst).Nodup → NamedOnceEntries entries →
        (places recurse entries).Nodup
  | [], _, _ => by
      rw [places]
      exact List.nodup_nil
  | (.undecodable _, _) :: _, distinct, once => by
      rw [places]
      exact nodup_places recurse (List.nodup_cons.mp distinct).2 once.2
  | (.text name, node) :: rest, distinct, once => by
      obtain ⟨fresh, distinct⟩ := List.nodup_cons.mp distinct
      rw [places, List.nodup_append']
      refine ⟨nodup_placesUnder name recurse once.1, nodup_places recurse distinct once.2, ?_⟩
      -- the places of different entries begin with different names
      intro place here later
      obtain ⟨name', node', entry, later⟩ := mem_places_iff.mp later
      have first := (head?_names_of_mem_placesUnder here).symm.trans
        (head?_names_of_mem_placesUnder later)
      cases Option.some.inj first
      exact fresh (List.mem_map.mpr ⟨_, entry, rfl⟩)

theorem nodup_placesUnder (name : String) (recurse : Bool)
    : ∀ {node : FileNode}, node.NamedOnce → (placesUnder name recurse node).Nodup
  | .file _ _, _ => by
      rw [placesUnder]
      split <;> simp
  | .link _, _ => by
      rw [placesUnder]
      split <;> simp
  | .special, _ => by
      rw [placesUnder]
      exact List.nodup_nil
  | .directory _, ⟨distinct, once⟩ => by
      rw [placesUnder]
      split
      · exact List.nodup_nil
      · refine (nodup_places recurse distinct once).map ?_
        intro place place' same
        cases place
        cases place'
        cases same
        rfl

end

-----------------------------------------------------------------------------------------
-- Different places have different paths
-----------------------------------------------------------------------------------------

/-- The names on the way to a place are names of files, by induction on the way. -/
theorem Holds.isFileName {entries : List (EntryName × FileNode)} {place : TaskPlace}
    {node : FileNode} (h : Holds entries place node) (named : WellNamedEntries entries)
    : ∀ name ∈ place.names, IsFileName name := by
  induction h with
  | direct entry => exact List.forall_mem_singleton.mpr ((wellNamed_of_mem named entry).1 _ rfl)
  | deeper entry _ ih =>
      obtain ⟨file, named⟩ := wellNamed_of_mem named entry
      exact List.forall_mem_cons.mpr ⟨file _ rfl, ih named⟩

theorem Shows.isFileName {entries : List (EntryName × FileNode)} {recurse : Bool}
    {place : TaskPlace} (h : Shows entries recurse place) (named : WellNamedEntries entries)
    : ∀ name ∈ place.names, IsFileName name := by
  obtain ⟨_, there, _⟩ := h.task
  exact there.isFileName named

theorem nodup_components (path : Path) (recurse : Bool)
    {entries : List (EntryName × FileNode)} (named : WellNamedEntries entries)
    (once : (FileNode.directory entries).NamedOnce)
    : ((tasks path recurse entries).map fun task => task.path.components).Nodup := by
  rw [tasks_eq_map, List.map_map]
  refine (nodup_places recurse once.1 once.2).map_on ?_
  intro place listed place' listed' same
  simp only [Function.comp_apply] at same
  rw [TaskPlace.components_task path ((mem_places.mp listed).isFileName named),
    TaskPlace.components_task path ((mem_places.mp listed').isFileName named)] at same
  have names := List.append_cancel_left same
  exact TaskPlace.eq_of_names
    ((List.map_injective_iff.mpr fun _ _ => PathComponent.name.inj) names)

end FileNode

end DueTasks
