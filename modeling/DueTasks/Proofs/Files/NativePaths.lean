import DueTasks.Proofs.Asking
import DueTasks.Proofs.Files.HelperPaths
import DueTasks.Proofs.Files.ListedTasks
import DueTasks.Proofs.Program.Registries

/-! The paths under which helpers are told their tasks.
Without a root of its own a jail lies at the directory of the tasks. Its root is free of links, while
tasks are listed under the directory as it was spelled, so that the two agree only if the spelling
goes along what it leads to.
-/

namespace DueTasks

open Asking DueTasks.Path

-----------------------------------------------------------------------------------------
-- Directories as they are spelled
-----------------------------------------------------------------------------------------

namespace Disk

variable {disk : Disk} {directory path : Path} {names : List String}

/-- A path below an absolute directory has the place of the directory before it exactly if the
directory has: the place is the directory itself if the directory is a spelling of names that leads
into it.
-/
theorem place_prefix_iff (located : disk.locate directory true = .ok names)
    (there : disk.root.HasDirectory names) (absolute : directory.isAbsolute = true)
    (below : directory.LiesBelow path)
    : (ofNames true names).components <+: path.components
      ↔ (ofNames true names).components <+: directory.components := by
  obtain ⟨more, _, components⟩ := below.components absolute
  have extends' : directory.components <+: path.components := ⟨_, components.symm⟩
  have place := components_ofNames (isFileName_of_locate located absolute)
  constructor
  · intro inside
    rcases List.prefix_or_prefix_of_prefix inside extends' with before | ⟨rest, behind⟩
    · exact before
    · -- no link stands on the way to the place, which the directory is a part of
      have split : body directory.chars ++ rest = names.map .name := by
        rw [place, components_eq, lead, if_pos absolute] at behind
        exact (List.cons.inj behind).2
      obtain ⟨spelled, deeper, rfl, named, _⟩ := List.map_eq_append_iff.mp split.symm
      have whole : directory.components = .root :: spelled.map .name := by
        rw [components_eq, lead, if_pos absolute, named]
        rfl
      have same : (ofNames true (spelled ++ deeper)).components = directory.components := by
        rw [place, locate_of_hasDirectory located whole there.before, whole]
      exact same ▸ List.prefix_rfl
  · intro before
    exact before.trans extends'

end Disk

-----------------------------------------------------------------------------------------
-- Native paths
-----------------------------------------------------------------------------------------

theorem Jail.nativePath_eq (jail : Jail) (path : Path)
    : jail.nativePath path
      = if path.isAbsolute = true ∧ ¬ jail.root.components <+: path.components then
          .error (.noNativePath path.text)
        else .ok path := by
  rw [nativePath, startsWith]
  by_cases inside : jail.root.components <+: path.components <;>
    cases absolute : path.isAbsolute <;>
    simp [inside]

namespace Request

variable {request : Request} {disk : Disk} {settings : Settings}
  {entries : List (EntryName × FileNode)}

/-- A task asks its jail for its own path. -/
theorem ownPath_of_surroundings (today : Date) (jail : Jail) (tasks : List TaskEntry)
    (entry : TaskEntry) (resolve : String → Asking (Session Machine) ReferenceError Date)
    (session : Session Machine)
    : ((Registry.ofEntries (request.surroundings today settings jail) tasks).contextWith entry
          resolve).ownPath.outcome session
      = (jail.nativePath entry.path, session) :=
  rfl

/-- With the directory of the tasks as its jail, a request can tell helpers the paths of all tasks,
unless the directory is an absolute path that does not go along what it leads to. Then it can tell
the path of none.
-/
theorem nativePath_exact (named : disk.root.WellNamed)
    (chosen : request.settings.settings disk.fileSystem = .ok settings)
    (unset : settings.jailRoot = none)
    (found : disk.node request.directory true = .ok (.directory entries)) (today : Date)
    : ∃ jail registry,
        Jail.make disk.fileSystem request.directory (settings.helpersFor request.directory)
          = .ok jail
        ∧ request.registry today disk = .ok registry
        ∧ disk.tasks request.directory request.recurse = .ok registry.entries
        ∧ ∀ entry ∈ registry.entries,
            let answer :=
              if request.directory.isAbsolute = true
                ∧ ¬ jail.root.components <+: request.directory.components then
                .error (.noNativePath entry.path.text)
              else .ok entry.path
            jail.nativePath entry.path = answer
            ∧ ∀ resolve session,
                (registry.contextWith entry resolve).ownPath.outcome session
                  = (answer, session) := by
  obtain ⟨names, located, there⟩ := Disk.node_eq_ok.mp found
  obtain ⟨jail, made, place⟩
      : ∃ jail,
          Jail.make disk.fileSystem request.directory (settings.helpersFor request.directory)
            = .ok jail
          ∧ jail.root = .ofNames true names :=
    ⟨_, Jail.make_of_locate located _, rfl⟩
  have listed := Disk.tasks_of_directory found request.recurse
  have root : settings.jailRootFor request.directory = request.directory := by
    rw [Settings.jailRootFor, unset]
    rfl
  have setsUp : request.SetsUp disk settings jail _ := ⟨chosen, by rw [root, made], listed⟩
  refine ⟨jail, _, made, registry_eq_ok.mpr ⟨_, _, _, setsUp, rfl⟩, ?_, ?_⟩
  · rw [Registry.entries_ofEntries, listed]
  · intro entry member answer
    rw [Registry.entries_ofEntries, (List.mergeSort_perm _ _).mem_iff] at member
    have below := FileNode.liesBelow_of_mem_tasks (named.at? there) member
    have native : jail.nativePath entry.path = answer := by
      simp only [answer]
      rw [Jail.nativePath_eq, below.absolute]
      cases absolute : request.directory.isAbsolute with
      | false => simp
      | true => simp only [place, Disk.place_prefix_iff located ⟨entries, there⟩ absolute below]
    refine ⟨native, fun resolve session => ?_⟩
    rw [ownPath_of_surroundings, native]

-----------------------------------------------------------------------------------------
-- A link to a directory
-----------------------------------------------------------------------------------------

/-- A disk with a task in a directory and a link to the directory. -/
def linkedDisk : Disk where
  root :=
    .directory
      [(.text "real", .directory [(.text "t", .file [] false)]), (.text "link", .link "real")]
  working := []

theorem node_linkedDisk (path : String) (spelled : FileNode.IsSpelled path)
    (segments : FileNode.lookupSegments path = ["link"])
    : linkedDisk.locate ⟨path⟩ true = .ok ["real"]
      ∧ linkedDisk.node ⟨path⟩ true = .ok (.directory [(.text "t", .file [] false)]) := by
  have target : FileNode.lookupSegments "real" = ["real"] := by decide
  have walked : linkedDisk.root.walk true FileNode.maxLinks [] ["link"] = .ok ["real"] :=
    calc linkedDisk.root.walk true FileNode.maxLinks [] ["link"]
      _ = linkedDisk.root.walk true 39 (FileNode.startOfTarget "real" [])
            (FileNode.lookupSegments "real" ++ []) :=
          FileNode.walk_follow rfl (by decide)
      _ = linkedDisk.root.walk true 39 [] ["real"] := by rw [target]; rfl
      _ = linkedDisk.root.walk true 39 ["real"] [] := FileNode.walk_enter rfl nofun (by decide)
      _ = .ok ["real"] := by rw [FileNode.walk]
  have top : linkedDisk.working.reverse = [] := rfl
  have located : linkedDisk.locate ⟨path⟩ true = .ok ["real"] :=
    Disk.locate_of_walk spelled (by rw [top, ite_self, segments, walked]; rfl)
  exact ⟨located, Disk.node_eq_ok.mpr ⟨_, located, rfl⟩⟩

theorem linkedDisk_wellNamed : linkedDisk.root.WellNamed := by
  simp only [linkedDisk, FileNode.WellNamed, FileNode.WellNamedEntries, EntryName.text.injEq,
    forall_eq', and_true]
  decide

/-- Its one task is listed under the directory as it is spelled. -/
theorem tasks_linkedDisk {path : String}
    (found : linkedDisk.node ⟨path⟩ true = .ok (.directory [(.text "t", .file [] false)]))
    : linkedDisk.tasks ⟨path⟩ false = .ok [⟨(Path.mk path).join "t", "t"⟩] := by
  have hidden : "t".startsWith "." = false := by decide +kernel
  rw [Disk.tasks_of_directory found]
  simp [FileNode.tasks, FileNode.tasksOf, hidden]

/-- The task of a relative path through a link has a native path. -/
theorem nativePath_exact_of_relative
    : ∃ registry,
        Request.registry { directory := ⟨"link"⟩ } .first linkedDisk = .ok registry
        ∧ registry.entries = [⟨⟨"link/t"⟩, "t"⟩]
        ∧ ∀ resolve session,
            (registry.contextWith ⟨⟨"link/t"⟩, "t"⟩ resolve).ownPath.outcome session
              = (.ok ⟨"link/t"⟩, session) := by
  obtain ⟨_, found⟩ := node_linkedDisk "link" (by decide) (by decide)
  obtain ⟨jail, registry, _, set, listed, native⟩ :=
    @nativePath_exact { directory := ⟨"link"⟩ } linkedDisk {} _ linkedDisk_wellNamed rfl rfl found
      .first
  have entries : registry.entries = [⟨⟨"link/t"⟩, "t"⟩] :=
    (Except.ok.inj ((tasks_linkedDisk found).symm.trans listed)).symm
  refine ⟨registry, set, entries, fun resolve session => ?_⟩
  exact (native ⟨⟨"link/t"⟩, "t"⟩ (entries ▸ List.mem_cons_self)).2 resolve session

/-- The task of an absolute path through the same link has none. -/
theorem noNativePath_of_link
    : ∃ registry,
        Request.registry { directory := ⟨"/link"⟩ } .first linkedDisk = .ok registry
        ∧ registry.entries = [⟨⟨"/link/t"⟩, "t"⟩]
        ∧ ∀ resolve session,
            (registry.contextWith ⟨⟨"/link/t"⟩, "t"⟩ resolve).ownPath.outcome session
              = (.error (.noNativePath "/link/t"), session) := by
  obtain ⟨located, found⟩ := node_linkedDisk "/link" (by decide) (by decide)
  have setsUp
      : SetsUp { directory := ⟨"/link"⟩ } linkedDisk {} _ [⟨⟨"/link/t"⟩, "t"⟩] :=
    ⟨rfl, Jail.make_of_locate located ⟨"/link/.bin"⟩, tasks_linkedDisk found⟩
  refine ⟨_, registry_eq_ok.mpr ⟨_, _, _, setsUp, rfl⟩, Registry.entries_ofEntries _ _, ?_⟩
  intro resolve session
  rw [ownPath_of_surroundings, Jail.nativePath_eq, if_pos (by decide)]

end Request

end DueTasks
