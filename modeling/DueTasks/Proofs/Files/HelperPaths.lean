import DueTasks.Files.Jail
import DueTasks.Proofs.Files.Directories

/-! Where helper programs are found.
The directory of the helpers is made absolute when a jail is made, so a helper is found by an
absolute path with one name behind that directory, whatever the working directory is by then. Only
the empty path stays as it is.
-/

namespace DueTasks

open DueTasks.Path

-----------------------------------------------------------------------------------------
-- Absolute directories
-----------------------------------------------------------------------------------------

namespace Path

/-- How a component is spelled when it is put behind a directory. -/
def spelling? : PathComponent → Option String
  | .name name => some name
  | .parent => some ".."
  | _ => none

/-- Names of files and `..`, put behind an absolute directory one by one, by induction on them. -/
theorem components_foldl_join {start : Path} (rooted : start.isAbsolute = true)
    {components : List PathComponent}
    (below : ∀ component ∈ components,
      component = .parent ∨ ∃ name, component = .name name ∧ IsFileName name)
    : ((components.filterMap spelling?).foldl join start).components
      = start.components ++ components := by
  induction components generalizing start with
  | nil => exact (List.append_nil _).symm
  | cons component components ih =>
      obtain ⟨first, below⟩ := List.forall_mem_cons.mp below
      obtain ⟨word, spelled, plain, single⟩ : ∃ word, spelling? component = some word
          ∧ word.toList.head? ≠ some '/' ∧ body word.toList = [component] := by
        rcases first with rfl | ⟨name, rfl, file⟩
        · exact ⟨"..", rfl, by decide, by decide⟩
        · exact ⟨name, rfl, file.plain, body_of_isFileName file⟩
      rw [List.filterMap_cons_some spelled, List.foldl_cons,
        ih (isAbsolute_join rooted word) below, components_join rooted plain, single,
        List.append_assoc]
      rfl

/-- What a path begins with is not put behind a directory. -/
theorem filterMap_spelling?_components (p : Path)
    : p.components.filterMap spelling? = (body p.chars).filterMap spelling? := by
  have nothing : p.lead.filterMap spelling? = [] := by
    rw [lead]
    split
    · rfl
    · split <;> rfl
  rw [components_eq, List.filterMap_append, nothing, List.nil_append]

end Path

namespace FileSystem

variable {fs : FileSystem}

/-- The components of the absolute form of a directory: those of what it leads to, or else those of
its spelling behind the working directory, with every `..` resolved unless one of them climbs above
the root.
-/
def absoluteComponents (fs : FileSystem) (directory : Path) : List PathComponent :=
  match fs.canonical directory with
  | .ok real => real.components
  | .error _ =>
      let spelled := (fs.workingDirectory.join directory.text).components
      match settle? [] spelled with
      | some names => .root :: names.map .name
      | none => spelled

/-- The directory that the components of a path are put behind when it is made absolute. -/
def startOf (fs : FileSystem) (path : Path) : Path :=
  let double := path.text.startsWith "//" && !path.text.startsWith "///"
  if path.isAbsolute then ⟨if double then "//" else "/"⟩ else fs.workingDirectory

theorem absolute?_eq (path : Path)
    : fs.absolute? path
      = if path.text.isEmpty then none
        else
          let joined := (path.components.filterMap spelling?).foldl join (fs.startOf path)
          some (if path.text.endsWith "/" then joined.join "" else joined) := rfl

/-- Behind that directory, the components of a path are those behind the working directory. -/
theorem components_startOf (rooted : fs.workingDirectory.isAbsolute = true) (path : Path)
    : (fs.startOf path).isAbsolute = true
      ∧ (fs.startOf path).components ++ body path.chars
        = (fs.workingDirectory.join path.text).components := by
  rw [startOf]
  cases leads : path.isAbsolute with
  | false =>
      have plain : path.text.toList.head? ≠ some '/' := beq_eq_false_iff_ne.mp leads
      rw [if_neg Bool.false_ne_true]
      exact ⟨rooted, (components_join rooted plain).symm⟩
  | true =>
      rw [if_pos rfl, join_of_isAbsolute leads, components_eq path, lead, if_pos leads]
      generalize (path.text.startsWith "//" && !path.text.startsWith "///") = double
      cases double <;> exact ⟨rfl, rfl⟩

/-- Making a path absolute puts it behind the working directory. -/
theorem components_of_absolute? (rooted : fs.workingDirectory.isAbsolute = true)
    {path absolute : Path} (h : fs.absolute? path = some absolute)
    : absolute.components = (fs.workingDirectory.join path.text).components := by
  obtain ⟨start, spelled⟩ := components_startOf rooted path
  rw [absolute?_eq] at h
  split at h
  · cases h
  · have joined : ((path.components.filterMap spelling?).foldl join (fs.startOf path)).components
        = (fs.workingDirectory.join path.text).components := by
      rw [filterMap_spelling?_components,
        components_foldl_join start fun _ member => isFileName_of_mem_body member, spelled]
    have leads : ((path.components.filterMap spelling?).foldl join (fs.startOf path)).isAbsolute
        = true := by
      rw [← head?_components, joined, head?_components]
      exact isAbsolute_join rooted _
    rw [← Option.some.inj h, ← joined]
    split
    · exact (components_join leads (by decide)).trans (List.append_nil _)
    · rfl

/-- Every path but the empty one has an absolute form. -/
theorem components_absoluteDirectory (rooted : fs.workingDirectory.isAbsolute = true)
    {directory : Path} (written : directory.text ≠ "")
    : (fs.absoluteDirectory directory).components = fs.absoluteComponents directory := by
  rw [absoluteDirectory, absoluteComponents]
  cases fs.canonical directory with
  | ok real => rfl
  | error error =>
      cases h : fs.absolute? directory with
      | none =>
          rw [absolute?, if_neg (by simpa using written)] at h
          cases h
      | some absolute =>
          have components := components_of_absolute? rooted h
          have leads : absolute.isAbsolute = true := by
            rw [← head?_components, components, head?_components]
            exact isAbsolute_join rooted _
          simp only [normalize?, leads, ← components]
          cases settled : settle? [] absolute.components with
          | none => rfl
          | some names =>
              exact components_ofNames <| isFileName_of_settle? (List.forall_mem_nil _)
                (fun name member => isFileName_of_mem_components member) settled

/-- The absolute form of a directory begins with the root. -/
theorem head?_absoluteComponents (rooted : fs.workingDirectory.isAbsolute = true)
    (absolute : ∀ path real, fs.canonical path = .ok real → real.isAbsolute = true)
    (directory : Path)
    : (fs.absoluteComponents directory).head? = some .root := by
  rw [absoluteComponents]
  split
  · rename_i real h
    exact head?_components.mpr (absolute _ _ h)
  · dsimp only
    split
    · rfl
    · exact head?_components.mpr (isAbsolute_join rooted _)

/-- The empty path has none and stays as it is. -/
theorem absoluteDirectory_empty (missing : (fs.canonical ⟨""⟩).toOption = none)
    : fs.absoluteDirectory ⟨""⟩ = ⟨""⟩ := by
  rw [absoluteDirectory]
  cases h : fs.canonical ⟨""⟩ with
  | ok real => rw [h] at missing; cases missing
  | error error => rfl

end FileSystem

-----------------------------------------------------------------------------------------
-- Helpers
-----------------------------------------------------------------------------------------

namespace Jail

variable {jail : Jail} {fs : FileSystem} {name : String}

/-- A plain name is a single name behind any directory. -/
theorem exists_name_of_isPlainName (h : isPlainName name = true)
    : ∃ file, (Path.mk name).components = [.name file]
        ∧ name.toList.head? ≠ some '/'
        ∧ body name.toList = [.name file] := by
  rw [isPlainName] at h
  split at h
  · rename_i file single
    refine ⟨file, single, fun first => ?_, ?_⟩
    · have rooted : (Path.mk name).isAbsolute = true := beq_iff_eq.mpr first
      rw [← head?_components, single] at rooted
      cases rooted
    · have parts := components_eq ⟨name⟩
      rw [single, lead] at parts
      split at parts
      · cases parts
      · split at parts
        · cases parts
        · exact parts.symm
  · cases h

/-- A helper is an executable file under a plain name in the directory of the helpers. -/
theorem findHelper_eq_ok {path : Path}
    : jail.findHelper fs name = .ok path
      ↔ isPlainName name = true ∧ path = jail.helpers.join name
        ∧ ∃ size, fs.kind path = .ok (.file size true) := by
  rw [findHelper]
  constructor
  · intro h
    split at h
    · cases h
    · rename_i plain
      refine ⟨by simpa using plain, ?_⟩
      dsimp only at h
      split at h
      · rename_i size found
        cases h
        exact ⟨rfl, size, found⟩
      · cases h
  · rintro ⟨plain, rfl, size, found⟩
    rw [plain, Bool.not_true, if_neg Bool.false_ne_true]
    simp only [found]

/-- The directory of the helpers of a jail that could be made. -/
theorem helpers_of_make {root helpers : Path} (made : Jail.make fs root helpers = .ok jail)
    : jail.helpers = fs.absoluteDirectory helpers := by
  rw [Jail.make] at made
  cases h : fs.canonical root with
  | error error => rw [h] at made; cases made
  | ok real => rw [h] at made; cases made; rfl

/-- A jail can be made at a directory that exists. -/
theorem make_of_locate {disk : Disk} {root : Path} {names : List String}
    (located : disk.locate root true = .ok names) (helpers : Path)
    : Jail.make disk.fileSystem root helpers
      = .ok ⟨.ofNames true names, disk.fileSystem.absoluteDirectory helpers⟩ := by
  rw [Jail.make, Disk.canonical_of_locate located]
  rfl

/-- A helper is found by an absolute path, which has one name behind the absolute form of the
directory that was given when the jail was made, whatever has become of the file system. Only with
the empty path for that directory is a helper found by its name alone.
-/
theorem findHelper_absolute {later : FileSystem} {root helpers path : Path}
    (rooted : fs.workingDirectory.isAbsolute = true)
    (absolute : ∀ path real, fs.canonical path = .ok real → real.isAbsolute = true)
    (made : Jail.make fs root helpers = .ok jail) (found : jail.findHelper later name = .ok path)
    : (helpers.text ≠ ""
        → path.isAbsolute = true
          ∧ ∃ file, (Path.mk name).components = [.name file]
            ∧ path.components = fs.absoluteComponents helpers ++ [.name file])
      ∧ (helpers = ⟨""⟩ → (fs.canonical ⟨""⟩).toOption = none
        → path = ⟨name⟩ ∧ path.isAbsolute = false) := by
  obtain ⟨plain, rfl, -⟩ := findHelper_eq_ok.mp found
  obtain ⟨file, single, notRooted, behind⟩ := exists_name_of_isPlainName plain
  rw [helpers_of_make made]
  constructor
  · intro written
    have directory := FileSystem.components_absoluteDirectory rooted written
    have rooted' : (fs.absoluteDirectory helpers).isAbsolute = true := by
      rw [← head?_components, directory]
      exact FileSystem.head?_absoluteComponents rooted absolute helpers
    refine ⟨isAbsolute_join rooted' name, file, single, ?_⟩
    rw [components_join rooted' notRooted, directory, behind]
  · rintro rfl missing
    have alone : (Path.mk "").join name = ⟨name⟩ := by
      rw [join, if_neg notRooted, if_pos (by decide), String.empty_append]
    rw [FileSystem.absoluteDirectory_empty missing, alone]
    exact ⟨rfl, beq_eq_false_iff_ne.mpr notRooted⟩

/-- A disk with a helper in the working directory. -/
def toolDisk : Disk where
  root := .directory [(.text "work", .directory [(.text "next", .file [] true)])]
  working := ["work"]

theorem make_toolDisk (helpers : Path)
    : Jail.make toolDisk.fileSystem ⟨"/work"⟩ helpers
      = .ok ⟨⟨"/work"⟩, toolDisk.fileSystem.absoluteDirectory helpers⟩ := by
  have work
      : toolDisk.locate ⟨"/work"⟩ true = .ok ["work"]
        ∧ toolDisk.node ⟨"/work"⟩ true = .ok (.directory [(.text "next", .file [] true)]) :=
    Disk.node_of_names [] ["work"] (by decide) rfl (by decide) rfl nofun (by decide)
  exact make_of_locate work.1 helpers

/-- A directory that does not exist, spelled with dots, still has its helpers found absolutely. -/
theorem findHelper_absolute_of_dots
    : ∃ jail, Jail.make toolDisk.fileSystem ⟨"/work"⟩ ⟨"missing/.././"⟩ = .ok jail
      ∧ jail.findHelper toolDisk.fileSystem "next" = .ok ⟨"/work/next"⟩
      ∧ (Path.mk "/work/next").isAbsolute = true
      ∧ ∃ file, (Path.mk "next").components = [.name file]
        ∧ (Path.mk "/work/next").components
          = toolDisk.fileSystem.absoluteComponents ⟨"missing/.././"⟩ ++ [.name file] := by
  have missing : toolDisk.fileSystem.canonical ⟨"missing/.././"⟩ = .error .notFound := by
    have segments : FileNode.lookupSegments "missing/.././" = ["missing", "..", ".", "."] := by
      decide
    have walked : toolDisk.root.walk true FileNode.maxLinks ["work"] ["missing", "..", ".", "."]
        = .error .notFound :=
      FileNode.walk_missing ⟨by decide, _, rfl⟩ rfl
    change (toolDisk.root.locate ["work"] "missing/.././" true).map _ = _
    rw [FileNode.locate_eq _ _ (by decide), if_neg (by decide), segments]
    exact congrArg _ (congrArg _ walked)
  have directory : toolDisk.fileSystem.absoluteDirectory ⟨"missing/.././"⟩ = ⟨"/work"⟩ := by
    rw [FileSystem.absoluteDirectory, missing]
    decide +kernel
  have tool : toolDisk.locate ⟨"/work/next"⟩ true = .ok ["work", "next"]
      ∧ toolDisk.node ⟨"/work/next"⟩ true = .ok (.file [] true) :=
    Disk.node_of_names [] ["work", "next"] (by decide) rfl (by decide) rfl nofun (by decide)
  have made := make_toolDisk ⟨"missing/.././"⟩
  rw [directory] at made
  have found : (Jail.mk ⟨"/work"⟩ ⟨"/work"⟩).findHelper toolDisk.fileSystem "next"
      = .ok ⟨"/work/next"⟩ :=
    findHelper_eq_ok.mpr ⟨by decide, by decide, 0, Disk.kind_of_file tool.2⟩
  have absolute (path real : Path) (h : toolDisk.fileSystem.canonical path = .ok real)
      : real.isAbsolute = true :=
    toolDisk.isAbsolute_of_canonical h
  exact ⟨_, made, found, (findHelper_absolute (by decide) absolute made found).1 (by decide)⟩

/-- With the empty path for the directory of the helpers, a helper of the working directory is found
by its name alone.
-/
theorem findHelper_relative_of_empty
    : ∃ jail, Jail.make toolDisk.fileSystem ⟨"/work"⟩ ⟨""⟩ = .ok jail
      ∧ jail.findHelper toolDisk.fileSystem "next" = .ok ⟨"next"⟩
      ∧ toolDisk.fileSystem.workingDirectory.isAbsolute = true
      ∧ (Path.mk "next").isAbsolute = false := by
  have tool : toolDisk.locate ⟨"next"⟩ true = .ok ["work", "next"]
      ∧ toolDisk.node ⟨"next"⟩ true = .ok (.file [] true) :=
    Disk.node_of_names ["work"] ["next"] (by decide) rfl (by decide) rfl nofun (by decide)
  have made := make_toolDisk ⟨""⟩
  rw [FileSystem.absoluteDirectory_empty rfl] at made
  have found : (Jail.mk ⟨"/work"⟩ ⟨""⟩).findHelper toolDisk.fileSystem "next" = .ok ⟨"next"⟩ :=
    findHelper_eq_ok.mpr ⟨by decide, by decide, 0, Disk.kind_of_file tool.2⟩
  exact ⟨_, made, found, by decide, by decide⟩

end Jail

end DueTasks
