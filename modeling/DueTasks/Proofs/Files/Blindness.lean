import DueTasks.Proofs.Files.Confinement
import DueTasks.Proofs.Files.Directories

/-! What resolving a path tells about the files outside of a jail.
Two trees that look alike inside of a jail let a walk take the same steps, until a link takes it to
a name that neither lies in the jail nor leads to it. A path that no link takes there is resolved
alike in both.
-/

namespace DueTasks

open DueTasks.Path

-----------------------------------------------------------------------------------------
-- Trees that look alike inside of a jail
-----------------------------------------------------------------------------------------

namespace FileNode

/-- Two places look alike to a walk: both are missing, files, directories, links with one text, or
neither of these.
-/
inductive Alike : Option FileNode → Option FileNode → Prop
  | absent : Alike none none
  | file {bytes executable bytes' executable'}
    : Alike (some (.file bytes executable)) (some (.file bytes' executable'))
  | directory {entries entries'} : Alike (some (.directory entries)) (some (.directory entries'))
  | link {target} : Alike (some (.link target)) (some (.link target))
  | special : Alike (some .special) (some .special)

theorem Alike.refl (place : Option FileNode) : Alike place place := by
  rcases place with _ | ⟨_ | _ | _ | _⟩ <;> constructor

/-- Two trees have the same names, kinds and links below the jail. -/
def AlikeInside (jail : List String) (root root' : FileNode) : Prop :=
  ∀ names, Alike (root.at? (jail ++ names)) (root'.at? (jail ++ names))

/-- Trees with one and the same jail are alike inside of it. -/
theorem AlikeInside.of_at?_eq {jail : List String} {root root' : FileNode}
    (same : root.at? jail = root'.at? jail)
    : AlikeInside jail root root' := by
  intro names
  rw [at?_append, at?_append, same]
  exact .refl _

/-- What is known of the places of a tree, given the jail: it lies in the jail or leads to it. -/
def Known (jail names : List String) : Prop :=
  jail <+: names ∨ names <+: jail

theorem Known.before {jail names before : List String} (known : Known jail names)
    (h : before <+: names)
    : Known jail before := by
  rcases known with inside | above
  · exact List.prefix_or_prefix_of_prefix inside h
  · exact .inr (h.trans above)

theorem Known.nil (jail : List String) : Known jail [] :=
  .inr List.nil_prefix

/-- The jail is there, and is not a link. -/
def HasJail (jail : List String) (root : FileNode) : Prop :=
  ∃ node, root.at? jail = some node ∧ ∀ target, node ≠ .link target

/-- A link at a known place lies in the jail. -/
theorem inside_of_link {jail names : List String} {root : FileNode} {target : String}
    (hasJail : HasJail jail root) (known : Known jail names)
    (link : root.at? names = some (.link target))
    : jail <+: names := by
  rcases known with inside | ⟨rest, rfl⟩
  · exact inside
  · obtain ⟨node, found, plain⟩ := hasJail
    cases rest with
    | nil => exact ⟨[], by rw [List.append_nil, List.append_nil]⟩
    | cons name more =>
        obtain ⟨entries, directory⟩ := hasDirectory_of_behind found
        cases link.symm.trans directory

variable {jail : List String} {root root' : FileNode}

theorem HasJail.of_alike (hasJail : HasJail jail root) (alike : AlikeInside jail root root')
    : HasJail jail root' := by
  obtain ⟨node, found, plain⟩ := hasJail
  have there := alike []
  rw [List.append_nil, found] at there
  rw [HasJail]
  generalize root'.at? jail = place at there ⊢
  cases there with
  | file | directory | special => exact ⟨_, rfl, nofun⟩
  | link => exact absurd rfl (plain _)

/-- Known places are alike: those above the jail are directories in both trees. -/
theorem AlikeInside.alike (alike : AlikeInside jail root root') (hasJail : HasJail jail root)
    {names : List String} (known : Known jail names)
    : Alike (root.at? names) (root'.at? names) := by
  rcases known with ⟨rest, rfl⟩ | ⟨rest, rfl⟩
  · exact alike rest
  · cases rest with
    | nil => simpa only [List.append_nil] using alike []
    | cons name more =>
        obtain ⟨node', found', -⟩ := hasJail.of_alike alike
        obtain ⟨node, found, -⟩ := hasJail
        obtain ⟨entries, directory⟩ := hasDirectory_of_behind found
        obtain ⟨entries', directory'⟩ := hasDirectory_of_behind found'
        rw [directory, directory']
        exact .directory

-----------------------------------------------------------------------------------------
-- Walks that look outside
-----------------------------------------------------------------------------------------

/-- A walk comes to ask for a name that neither lies in the jail nor leads to it. -/
inductive LooksOutside (root : FileNode) (jail : List String)
    : Nat → List String → List String → Prop
  | asks {links place name rest} (asks : root.Asks place name)
    (unknown : ¬ Known jail (place.reverse ++ [name]))
    : LooksOutside root jail links place (name :: rest)
  | current {links place rest}
    (directory : root.HasDirectory place.reverse)
    (later : LooksOutside root jail links place rest)
    : LooksOutside root jail links place ("." :: rest)
  | parent {links place rest}
    (directory : root.HasDirectory place.reverse)
    (later : LooksOutside root jail links place.tail rest)
    : LooksOutside root jail links place (".." :: rest)
  | enter {links place name rest node} (asks : root.Asks place name)
    (found : root.at? (place.reverse ++ [name]) = some node)
    (plain : ∀ target, node ≠ .link target)
    (later : LooksOutside root jail links (name :: place) rest)
    : LooksOutside root jail links place (name :: rest)
  | follow {links place name rest target} (asks : root.Asks place name)
    (found : root.at? (place.reverse ++ [name]) = some (.link target))
    (later
      : LooksOutside root jail links (startOfTarget target place) (lookupSegments target ++ rest))
    : LooksOutside root jail (links + 1) place (name :: rest)

/-- Names lead to a link in the jail that takes a walk to a name outside. -/
def Escapes (root : FileNode) (jail names : List String) : Prop :=
  ∃ place name rest target,
    names = place.reverse ++ name :: rest
    ∧ jail <+: place.reverse ++ [name]
    ∧ root.at? (place.reverse ++ [name]) = some (.link target)
    ∧ LooksOutside root jail (maxLinks - 1) (startOfTarget target place)
        (lookupSegments target ++ rest)

theorem Alike.hasDirectory_iff {names : List String}
    (alike : Alike (root.at? names) (root'.at? names))
    : root.HasDirectory names ↔ root'.HasDirectory names := by
  rw [HasDirectory, HasDirectory]
  generalize root.at? names = there at alike ⊢
  generalize root'.at? names = there' at alike ⊢
  cases alike <;> simp

/-- A walk arrives at the same place in two trees, or looks outside in both. -/
def WalksAlike (root root' : FileNode) (jail : List String) (links : Nat)
    (place segments : List String) : Prop :=
  walk root true links place segments = walk root' true links place segments
  ∨ LooksOutside root jail links place segments ∧ LooksOutside root' jail links place segments

variable {links : Nat} {place rest : List String} {name : String}

/-- Staying in a directory, if what comes next is walked alike. -/
theorem WalksAlike.current
    (directory : root.HasDirectory place.reverse)
    (directory' : root'.HasDirectory place.reverse)
    (later : WalksAlike root root' jail links place rest)
    : WalksAlike root root' jail links place ("." :: rest) := by
  rw [WalksAlike, walk_current directory, walk_current directory']
  exact later.imp_right fun looks => ⟨.current directory looks.1, .current directory' looks.2⟩

/-- Going back from a directory, if what comes next is walked alike. -/
theorem WalksAlike.parent
    (directory : root.HasDirectory place.reverse)
    (directory' : root'.HasDirectory place.reverse)
    (later : WalksAlike root root' jail links place.tail rest)
    : WalksAlike root root' jail links place (".." :: rest) := by
  rw [WalksAlike, walk_parent directory, walk_parent directory']
  exact later.imp_right fun looks => ⟨.parent directory looks.1, .parent directory' looks.2⟩

/-- Asking for a known name, if what it leads to is walked alike. -/
theorem WalksAlike.of_asks (asks : root.Asks place name) (asks' : root'.Asks place name)
    (alike : Alike (root.at? (place.reverse ++ [name])) (root'.at? (place.reverse ++ [name])))
    (enter : WalksAlike root root' jail links (name :: place) rest)
    (follow
      : ∀ target fewer, links = fewer + 1
        → WalksAlike root root' jail fewer (startOfTarget target place)
            (lookupSegments target ++ rest))
    : WalksAlike root root' jail links place (name :: rest) := by
  rw [WalksAlike, walk_of_asks asks, walk_of_asks asks']
  cases found : root.at? (place.reverse ++ [name]) with
  | none =>
      cases found' : root'.at? (place.reverse ++ [name]) with
      | none => exact .inl rfl
      | some node' => rw [found, found'] at alike; cases alike
  | some node =>
      cases found' : root'.at? (place.reverse ++ [name]) with
      | none => rw [found, found'] at alike; cases alike
      | some node' =>
          rw [found, found'] at alike
          cases alike with
          | file | directory | special =>
              exact enter.imp_right fun later =>
                ⟨.enter asks found nofun later.1, .enter asks' found' nofun later.2⟩
          | link =>
              cases links with
              | zero => exact .inl rfl
              | succ fewer =>
                  exact (follow _ fewer rfl).imp_right fun later =>
                    ⟨.follow asks found later.1, .follow asks' found' later.2⟩

/-- In trees that are alike inside of the jail, walks from a known place are alike, by induction on
the links that may be followed and on the segments.
-/
theorem walksAlike (hasJail : HasJail jail root) (alike : AlikeInside jail root root')
    (links : Nat) {place segments : List String} (known : Known jail place.reverse)
    : WalksAlike root root' jail links place segments := by
  induction links using Nat.strongRecOn generalizing place segments with
  | ind links ihLinks =>
      induction segments generalizing place with
      | nil => exact .inl (by rw [walk, walk])
      | cons name rest ih =>
          have same := (alike.alike hasJail known).hasDirectory_iff
          by_cases directory : root.HasDirectory place.reverse
          · have directory' := same.mp directory
            by_cases current : name = "."
            · subst current
              exact .current directory directory' (ih known)
            by_cases parent : name = ".."
            · subst parent
              have above : Known jail place.tail.reverse :=
                known.before (List.reverse_prefix.mpr (List.tail_suffix place))
              exact .parent directory directory' (ih above)
            by_cases long : maxNameBytes < name.utf8ByteSize
            · left
              rw [walk_nameTooLong directory long, walk_nameTooLong directory' long]
            have asked : IsAsked name := ⟨current, parent, Nat.not_lt.mp long⟩
            have asks : root.Asks place name := ⟨asked, directory⟩
            have asks' : root'.Asks place name := ⟨asked, directory'⟩
            by_cases there : Known jail (place.reverse ++ [name])
            · refine .of_asks asks asks' (alike.alike hasJail there) (ih ?_) ?_
              · rwa [List.reverse_cons]
              · rintro target fewer rfl
                refine ihLinks fewer (Nat.lt_succ_self _) ?_
                rw [startOfTarget]
                split
                · exact .nil jail
                · exact known
            · exact .inr ⟨.asks asks there, .asks asks' there⟩
          · left
            rw [walk_notADirectory directory, walk_notADirectory (mt same.mpr directory)]

/-- A walk along names in the jail looks outside only behind a link in the jail, by induction on the
walk: what it enters before lies on the way to the jail or in it.
-/
theorem escapes_of_looksOutside (hasJail : HasJail jail root) {names : List String}
    (files : ∀ name ∈ names, IsFileName name) (inside : jail <+: names) {segments : List String}
    (looks : LooksOutside root jail links place segments)
    (way : names = place.reverse ++ segments) (unused : links = maxLinks)
    : Escapes root jail names := by
  have known {before rest : List String} (way : names = before ++ rest) : Known jail before :=
    List.prefix_or_prefix_of_prefix inside ⟨rest, way.symm⟩
  induction looks with
  | @asks links place name rest asks unknown =>
      exact absurd (known (way.trans (List.append_cons ..))) unknown
  | current =>
      exact absurd rfl (files _ (way ▸ List.mem_append_right _ List.mem_cons_self)).current
  | parent =>
      exact absurd rfl (files _ (way ▸ List.mem_append_right _ List.mem_cons_self)).parent
  | enter asks found plain later ih =>
      refine ih ?_ unused
      rw [way, List.reverse_cons, ← List.append_cons]
  | @follow links place name rest target asks found later ih =>
      have there := known (way.trans (List.append_cons ..))
      have fewer : links = maxLinks - 1 := Nat.eq_sub_of_add_eq unused
      exact ⟨place, name, rest, target, way, inside_of_link hasJail there found, found,
        fewer ▸ later⟩

/-- No walk looks outside at the root alone. -/
theorem not_looksOutside_current : ¬ LooksOutside root jail links place ["."] := by
  intro looks
  generalize segments : ["."] = path at looks
  cases looks with
  | asks asks => cases segments; exact asks.notCurrent rfl
  | current _ later => cases segments; cases later
  | parent => exact absurd (List.head_eq_of_cons_eq segments) (by decide)
  | enter asks => cases segments; exact asks.notCurrent rfl
  | follow asks => cases segments; exact asks.notCurrent rfl

end FileNode

-----------------------------------------------------------------------------------------
-- Paths inside of a jail
-----------------------------------------------------------------------------------------

open FileNode

/-- In trees that are alike inside of the jail, a path of names in the jail leads to the same place,
or escapes in both.
-/
theorem Disk.canonical_alike {disk disk' : Disk} {jail names : List String}
    (hasJail : HasJail jail disk.root) (alike : AlikeInside jail disk.root disk'.root)
    (files : ∀ name ∈ names, IsFileName name) (inside : jail <+: names)
    : disk.fileSystem.canonical (ofNames true names)
        = disk'.fileSystem.canonical (ofNames true names)
      ∨ disk.root.Escapes jail names ∧ disk'.root.Escapes jail names := by
  have walks : WalksAlike disk.root disk'.root jail maxLinks []
      (lookupSegments (ofNames true names).text) :=
    walksAlike hasJail alike maxLinks (.nil jail)
  rcases walks with same | ⟨looks, looks'⟩
  · have first : (ofNames true names).text.toList.head? = some '/' :=
      beq_iff_eq.mp (isAbsolute_ofNames names)
    left
    change (disk.root.locate _ _ true).map _ = (disk'.root.locate _ _ true).map _
    simp only [FileNode.locate, first, if_true, same]
  · right
    by_cases named : names = []
    · subst named
      have segments : lookupSegments (ofNames true []).text = ["."] := by decide
      rw [segments] at looks
      exact absurd looks not_looksOutside_current
    · rw [lookupSegments_ofNames files named] at looks looks'
      exact ⟨escapes_of_looksOutside hasJail files inside looks rfl rfl,
        escapes_of_looksOutside (hasJail.of_alike alike) files inside looks' rfl rfl⟩

namespace Jail

/-- The root of a jail is what names lead to on a disk. -/
structure LiesAt (jail : Jail) (names : List String) (disk : Disk) : Prop where
  root : jail.root = ofNames true names
  files : ∀ name ∈ names, IsFileName name
  there : disk.root.HasJail names

/-- Names below a jail. -/
theorem LiesAt.inside {jail : Jail} {names spelled : List String} {disk : Disk}
    (lies : jail.LiesAt names disk) (files : ∀ name ∈ spelled, IsFileName name)
    (inside : jail.root.components <+: (ofNames true spelled).components)
    : names <+: spelled := by
  rw [lies.root, components_ofNames lies.files, components_ofNames files] at inside
  exact (List.prefix_map_iff_of_injective fun _ _ => PathComponent.name.inj).mp
    (List.cons_prefix_cons.mp inside).2

/-- On disks that look alike inside of the jail, a path is resolved alike, unless the path that is
spelled leads through a link in the jail to a name outside. Then the answer is told by where it
leads.
-/
theorem resolve_blind {jail : Jail} {names : List String} {disk disk' : Disk}
    (lies : jail.LiesAt names disk) (alike : AlikeInside names disk.root disk'.root) {base : Path}
    (same
      : (disk.fileSystem.canonical base).toOption = (disk'.fileSystem.canonical base).toOption)
    (relative : String)
    : jail.resolve disk.fileSystem base relative = jail.resolve disk'.fileSystem base relative
      ∨ ∃ spelled,
        (jail.named disk.fileSystem base relative).normalize? = some (ofNames true spelled)
        ∧ disk.root.Escapes names spelled
        ∧ disk'.root.Escapes names spelled
        ∧ jail.resolve disk.fileSystem base relative
          = jail.resolveSpelled disk.fileSystem relative (ofNames true spelled)
        ∧ jail.resolve disk'.fileSystem base relative
          = jail.resolveSpelled disk'.fileSystem relative (ofNames true spelled) := by
  have named : jail.named disk'.fileSystem base relative
      = jail.named disk.fileSystem base relative := by
    rw [Jail.named, Jail.named, same]
  rw [resolve_eq, resolve_eq, named]
  cases normalized : (jail.named disk.fileSystem base relative).normalize? with
  | none => exact .inl rfl
  | some path =>
      cases within : jail.inside relative path with
      | error error =>
          simp only [within]
          exact .inl rfl
      | ok found =>
          obtain ⟨lies', rfl⟩ := inside_eq_ok within
          have absolute := isAbsolute_of_inside (lies.root ▸ isAbsolute_ofNames names) lies'
          obtain ⟨spelled, files, rfl⟩ := exists_names_of_normalize? normalized absolute
          simp only [within]
          rcases Disk.canonical_alike lies.there alike files (lies.inside files lies')
            with same | ⟨escapes, escapes'⟩
          · left
            change jail.resolveSpelled _ _ _ = jail.resolveSpelled _ _ _
            rw [resolveSpelled, resolveSpelled, same]
          · exact .inr ⟨spelled, rfl, escapes, escapes', rfl, rfl⟩

/-- A disk with a jail that holds a link into the directory beside it, given what is in there. -/
def diskBeside (entries : List (EntryName × FileNode)) : Disk where
  root := .directory [
    (.text "jail", .directory [(.text "escape", .link "../outside/missing")]),
    (.text "outside", .directory entries)]
  working := []

/-- The jail on that disk. -/
def besideJail : Jail :=
  ⟨⟨"/jail"⟩, ⟨"/jail/.bin"⟩⟩

theorem besideJail_liesAt (entries : List (EntryName × FileNode))
    : besideJail.LiesAt ["jail"] (diskBeside entries) :=
  ⟨by decide, List.forall_mem_singleton.mpr (by decide), _, rfl, nofun⟩

variable (entries : List (EntryName × FileNode))

theorem canonical_besideJail
    : (diskBeside entries).fileSystem.canonical ⟨"/jail"⟩ = .ok ⟨"/jail"⟩ := by
  have leads
      : (diskBeside entries).locate ⟨"/jail"⟩ true = .ok ["jail"]
        ∧ (diskBeside entries).node ⟨"/jail"⟩ true
          = .ok (.directory [(.text "escape", .link "../outside/missing")]) :=
    Disk.node_of_names [] ["jail"] (by decide) rfl (by decide) rfl nofun (by decide)
  exact Disk.canonical_of_locate leads.1

/-- What the link leads to is told by what is next to the jail. -/
theorem canonical_escape
    : (diskBeside entries).fileSystem.canonical ⟨"/jail/escape"⟩
      = ((diskBeside entries).root.walk true (maxLinks - 1) ["outside"] ["missing"]).map
          fun place => ofNames true place.reverse := by
  have segments : lookupSegments "/jail/escape" = ["jail", "escape"] := by decide
  have target : lookupSegments "../outside/missing" = ["..", "outside", "missing"] := by decide
  let root := (diskBeside entries).root
  have followed := @walk_follow root (maxLinks - 1) ["jail"] [] "escape" _ rfl (by decide)
  have walked : root.walk true maxLinks [] ["jail", "escape"]
      = root.walk true (maxLinks - 1) ["outside"] ["missing"] :=
    calc root.walk true maxLinks [] ["jail", "escape"]
      _ = root.walk true maxLinks ["jail"] ["escape"] := walk_enter rfl nofun (by decide)
      _ = root.walk true (maxLinks - 1) ["jail"] ["..", "outside", "missing"] := by
          rw [startOfTarget, if_neg (by decide), target] at followed
          exact followed
      _ = root.walk true (maxLinks - 1) [] ["outside", "missing"] := walk_parent ⟨_, rfl⟩
      _ = root.walk true (maxLinks - 1) ["outside"] ["missing"] :=
          walk_enter rfl nofun (by decide)
  change (root.locate _ "/jail/escape" true).map _ = _
  rw [locate_eq _ _ (by decide), if_pos (by decide), segments, walked]
  cases root.walk true (maxLinks - 1) ["outside"] ["missing"] <;> rfl

theorem resolve_escape
    : besideJail.resolve (diskBeside entries).fileSystem ⟨"/jail"⟩ "escape"
      = besideJail.resolveSpelled (diskBeside entries).fileSystem "escape" ⟨"/jail/escape"⟩ := by
  have named : besideJail.named (diskBeside entries).fileSystem ⟨"/jail"⟩ "escape"
      = ⟨"/jail/escape"⟩ := by
    have relative : "escape".toList = 'e' :: "scape".toList := by decide
    rw [Jail.named, canonical_besideJail, relative]
    decide
  have normalized : (Path.mk "/jail/escape").normalize? = some ⟨"/jail/escape"⟩ := by decide
  have within : besideJail.inside "escape" ⟨"/jail/escape"⟩ = .ok ⟨"/jail/escape"⟩ := by
    rw [inside_eq, if_pos (by decide)]
  rw [resolve_eq, named, normalized]
  simp only [within]
  rfl

/-- A link to a missing place outside of the jail is resolved to itself. -/
theorem resolve_escape_of_missing
    : besideJail.resolve (diskBeside []).fileSystem ⟨"/jail"⟩ "escape" = .ok ⟨"/jail/escape"⟩ := by
  rw [resolve_escape, resolveSpelled, canonical_escape,
    walk_missing ⟨by decide, _, rfl⟩ rfl]
  rfl

/-- A link to a file outside of the jail is refused. -/
theorem resolve_escape_of_file
    : besideJail.resolve (diskBeside [(.text "missing", .file [] false)]).fileSystem ⟨"/jail"⟩
        "escape"
      = .error (.outsideJail "escape") := by
  have other : ¬ besideJail.root.components <+: (Path.mk "/outside/missing").components := by decide
  let root := (diskBeside [(.text "missing", .file [] false)]).root
  have there : root.at? (["outside"] ++ ["missing"]) = some (.file [] false) := rfl
  have walked : root.walk true (maxLinks - 1) ["outside"] ["missing"]
      = .ok ["missing", "outside"] :=
    walk_names there nofun (by decide)
  rw [resolve_escape, resolveSpelled, canonical_escape, walked]
  exact (inside_eq _ _).trans (if_neg other)

theorem alikeInside_diskBeside (entries' : List (EntryName × FileNode))
    : AlikeInside ["jail"] (diskBeside entries).root (diskBeside entries').root :=
  .of_at?_eq rfl

/-- A link that leads to a missing place on one disk and to a file on the other takes the path that
is spelled out of the jail on both.
-/
theorem resolve_blind_of_linkOutside
    : let disk := diskBeside []
      let disk' := diskBeside [(.text "missing", .file [] false)]
      besideJail.LiesAt ["jail"] disk
      ∧ AlikeInside ["jail"] disk.root disk'.root
      ∧ ∃ spelled,
        (besideJail.named disk.fileSystem ⟨"/jail"⟩ "escape").normalize?
          = some (ofNames true spelled)
        ∧ disk.root.Escapes ["jail"] spelled
        ∧ disk'.root.Escapes ["jail"] spelled := by
  intro disk disk'
  have lies : besideJail.LiesAt ["jail"] disk := besideJail_liesAt _
  have alike : AlikeInside ["jail"] disk.root disk'.root := alikeInside_diskBeside _ _
  have same : (disk.fileSystem.canonical ⟨"/jail"⟩).toOption
      = (disk'.fileSystem.canonical ⟨"/jail"⟩).toOption := by
    rw [canonical_besideJail, canonical_besideJail]
  refine ⟨lies, alike, ?_⟩
  rcases resolve_blind lies alike same "escape" with equal | ⟨spelled, normalized, escapes⟩
  · rw [resolve_escape_of_missing, resolve_escape_of_file] at equal
    cases equal
  · exact ⟨spelled, normalized, escapes.1, escapes.2.1⟩

/-- So resolving a path can tell what is missing outside of a jail, on disks that have the very same
jail.
-/
theorem resolve_tells_missing
    : let disk := diskBeside []
      let disk' := diskBeside [(.text "missing", .file [] false)]
      besideJail.LiesAt ["jail"] disk
      ∧ besideJail.LiesAt ["jail"] disk'
      ∧ disk.root.at? ["jail"] = disk'.root.at? ["jail"]
      ∧ disk.fileSystem.canonical ⟨"/jail"⟩ = disk'.fileSystem.canonical ⟨"/jail"⟩
      ∧ besideJail.resolve disk.fileSystem ⟨"/jail"⟩ "escape" = .ok ⟨"/jail/escape"⟩
      ∧ besideJail.resolve disk'.fileSystem ⟨"/jail"⟩ "escape" = .error (.outsideJail "escape") :=
  ⟨besideJail_liesAt _, besideJail_liesAt _, rfl,
    (canonical_besideJail _).trans (canonical_besideJail _).symm, resolve_escape_of_missing,
    resolve_escape_of_file⟩

end Jail

end DueTasks
