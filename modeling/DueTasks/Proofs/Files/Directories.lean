import DueTasks.Proofs.Files.Lookup

/-! Directories on the way of a walk.
Where a walk ends is told by names of files. A walk along names that lead to a directory meets no
link, so that it ends at those names.
-/

namespace DueTasks

open DueTasks.Path

/-- A changed value comes from a value. -/
theorem exists_of_map_eq_ok {ε α β : Type} {answer : Except ε α} {change : α → β} {value : β}
    (h : answer.map change = .ok value)
    : ∃ found, answer = .ok found ∧ change found = value := by
  cases answer with
  | error error => cases h
  | ok found =>
      cases h
      exact ⟨found, rfl, rfl⟩

namespace FileNode

-----------------------------------------------------------------------------------------
-- Segments
-----------------------------------------------------------------------------------------

theorem mem_lookupSegments {path segment : String} (member : segment ∈ lookupSegments path)
    : '/' ∉ segment.toList ∧ segment ≠ "" := by
  obtain ⟨part, written, rfl⟩ := List.mem_map.mp member
  rw [String.toList_ofList]
  rcases List.mem_append.mp written with filtered | closing
  · obtain ⟨part_mem, written⟩ := List.mem_filter.mp filtered
    refine ⟨?_, fun none => of_decide_eq_true written (String.ofList_injective none)⟩
    intro slash
    exact beq_eq_false_iff_ne.mp (Text.solid_of_mem_parts part_mem '/' slash) rfl
  · split at closing
    · rw [List.mem_singleton.mp closing]
      exact ⟨by decide, by decide⟩
    · cases closing

/-- Segments that mean names are those names, by induction on the segments. -/
theorem map_ofList_of_componentOf {segments : List (List Char)} {names : List String}
    (meant : segments.map componentOf = names.map .name)
    : segments.map String.ofList = names := by
  induction segments generalizing names with
  | nil => exact (List.map_eq_nil_iff.mp meant.symm).symm
  | cons segment segments ih =>
      cases names with
      | nil => cases meant
      | cons name names =>
          obtain ⟨first, rest⟩ := List.cons.inj meant
          rw [componentOf] at first
          split at first
          · cases first
          · rw [List.map_cons, ih rest, PathComponent.name.inj first]

/-- A path of names alone has those names looked up, dots apart. -/
theorem lookupSegments_of_body {path : String} {names : List String}
    (named : body path.toList = names.map .name)
    : (lookupSegments path).filter (· != ".") = names := by
  have busy : (Path.segments path.toList).filter (!isIdle ·)
      = ((Path.segments path.toList).filter (· ≠ [])).filter (· != ['.']) := by
    rw [List.filter_filter]
    apply List.filter_congr
    intro segment _
    rw [isIdle, Bool.not_or, Bool.and_comm, Bool.eq_iff_iff]
    simp
  have dot (segment : List Char) : (String.ofList segment != ".") = (segment != ['.']) := by
    have same : String.ofList segment = "." ↔ segment = ['.'] :=
      ⟨fun same => String.ofList_injective same, fun same => same ▸ rfl⟩
    rw [Bool.eq_iff_iff, bne_iff_ne, bne_iff_ne]
    exact not_congr same
  have closing
      : (if path.toList.getLast? = some '/' then [['.']] else []).filter (· != ['.']) = [] := by
    split <;> rfl
  rw [lookupSegments, List.filter_map, List.filter_append]
  simp only [Function.comp_def, dot]
  rw [closing, List.append_nil, ← busy]
  exact map_ofList_of_componentOf named

-----------------------------------------------------------------------------------------
-- The end of a walk
-----------------------------------------------------------------------------------------

/-- What a walk does about its first segment, if it ends somewhere: it stays, turns back, enters what
has that name or follows a link.
-/
theorem walk_cons_eq_ok {root : FileNode} {links : Nat} {place rest found : List String}
    {segment : String} (walked : walk root true links place (segment :: rest) = .ok found)
    : segment = "." ∧ walk root true links place rest = .ok found
      ∨ segment = ".." ∧ walk root true links place.tail rest = .ok found
      ∨ IsAsked segment ∧ walk root true links (segment :: place) rest = .ok found
      ∨ ∃ target fewer,
          links = fewer + 1
          ∧ walk root true fewer (startOfTarget target place) (lookupSegments target ++ rest)
            = .ok found := by
  by_cases directory : root.HasDirectory place.reverse
  · by_cases current : segment = "."
    · subst current
      exact .inl ⟨rfl, walk_current directory ▸ walked⟩
    by_cases parent : segment = ".."
    · subst parent
      exact .inr (.inl ⟨rfl, walk_parent directory ▸ walked⟩)
    by_cases long : maxNameBytes < segment.utf8ByteSize
    · rw [walk_nameTooLong directory long] at walked
      cases walked
    have asked : IsAsked segment := ⟨current, parent, Nat.not_lt.mp long⟩
    rw [walk_of_asks ⟨asked, directory⟩] at walked
    split at walked
    · cases walked
    · cases links with
      | zero => cases walked
      | succ fewer => exact .inr (.inr (.inr ⟨_, fewer, rfl, walked⟩))
    · exact .inr (.inr (.inl ⟨asked, walked⟩))
  · rw [walk_notADirectory directory] at walked
    cases walked

/-- A walk along segments of paths ends at names of files, by induction on the links that it may
follow, and for as many links on the segments.
-/
theorem isFileName_of_walk {root : FileNode} {links : Nat} {place segments found : List String}
    (files : ∀ name ∈ place, IsFileName name)
    (split : ∀ segment ∈ segments, '/' ∉ segment.toList ∧ segment ≠ "")
    (walked : walk root true links place segments = .ok found)
    : ∀ name ∈ found, IsFileName name := by
  induction links using Nat.strongRecOn generalizing place segments with
  | ind links follow =>
      induction segments generalizing place with
      | nil =>
          rw [walk] at walked
          cases walked
          exact files
      | cons segment segments ih =>
          obtain ⟨⟨solid, written⟩, split⟩ := List.forall_mem_cons.mp split
          rcases walk_cons_eq_ok walked with
            ⟨_, walked⟩ | ⟨_, walked⟩ | ⟨asked, walked⟩ | ⟨target, fewer, rfl, followed⟩
          · exact ih files split walked
          · exact ih (fun name member => files name (List.mem_of_mem_tail member)) split walked
          · have file : IsFileName segment :=
              ⟨solid, written, asked.notCurrent, asked.notParent⟩
            exact ih (List.forall_mem_cons.mpr ⟨file, files⟩) split walked
          · refine follow fewer (Nat.lt_succ_self fewer) ?_ ?_ followed
            · intro name member
              rw [startOfTarget] at member
              split at member
              · cases member
              · exact files name member
            · exact List.forall_mem_append.mpr ⟨fun _ => mem_lookupSegments, split⟩

theorem HasDirectory.before {root : FileNode} {before after : List String}
    (directory : root.HasDirectory (before ++ after))
    : root.HasDirectory before := by
  obtain ⟨entries, found⟩ := directory
  cases after with
  | nil => exact ⟨entries, by rwa [List.append_nil] at found⟩
  | cons name after => exact hasDirectory_of_behind found

/-- A walk along names that lead to a directory ends there, by induction on the segments: every
place on the way is a directory, so that none is a link.
-/
theorem walk_of_hasDirectory {root : FileNode} {links : Nat} {place names segments found : List String}
    (asked : segments.filter (· != ".") = names) (noParent : ".." ∉ names)
    (directory : root.HasDirectory (place.reverse ++ names))
    (walked : walk root true links place segments = .ok found)
    : found = names.reverse ++ place := by
  induction segments generalizing place names with
  | nil =>
      subst asked
      rw [walk] at walked
      cases walked
      rfl
  | cons segment segments ih =>
      have here := directory.before
      by_cases current : segment = "."
      · subst current
        rw [walk_current here] at walked
        exact ih asked noParent directory walked
      · rw [List.filter_cons_of_pos (by simpa using current)] at asked
        subst asked
        obtain ⟨other, noParent⟩ := not_or.mp (mt List.mem_cons.mpr noParent)
        by_cases long : maxNameBytes < segment.utf8ByteSize
        · rw [walk_nameTooLong here long] at walked
          cases walked
        · rw [← List.singleton_append, ← List.append_assoc] at directory
          obtain ⟨entries, entered⟩ := directory.before
          have short := Nat.not_lt.mp long
          have plain (target : String) : FileNode.directory entries ≠ .link target := by
            rintro ⟨⟩
          rw [walk_enter entered plain ⟨current, Ne.symm other, short⟩] at walked
          rw [← List.reverse_cons] at directory
          rw [ih rfl noParent directory walked, List.reverse_cons, List.append_assoc]
          rfl

end FileNode

namespace Disk

variable {disk : Disk} {path : Path} {names : List String}

/-- A path leads to the node at the place that it is located at. -/
theorem node_eq_ok {node : FileNode}
    : disk.node path true = .ok node
      ↔ ∃ names, disk.locate path true = .ok names ∧ disk.root.at? names = some node := by
  rw [Disk.node]
  cases located : disk.locate path true with
  | error error =>
      constructor
      · rintro ⟨⟩
      · rintro ⟨names, ⟨⟩, _⟩
  | ok names =>
      simp only [bind, Except.bind]
      constructor
      · intro found
        split at found
        · cases found
          exact ⟨names, rfl, ‹_›⟩
        · cases found
      · rintro ⟨_, ⟨rfl⟩, there⟩
        rw [there]

/-- A path that can be looked up is located where its walk ends. -/
theorem locate_of_walk {text : String} (spelled : FileNode.IsSpelled text)
    (walked
      : disk.root.walk true FileNode.maxLinks
          (if text.toList.head? = some '/' then [] else disk.working.reverse)
          (FileNode.lookupSegments text)
        = .ok names.reverse)
    : disk.locate ⟨text⟩ true = .ok names := by
  change disk.root.locate disk.working text true = _
  rw [FileNode.locate_eq _ _ spelled, walked]
  exact congrArg Except.ok (List.reverse_reverse names)

/-- A path of names leads to what they lead to from where it starts, unless that is a link. -/
theorem node_of_names {text : String} {node : FileNode} (start names : List String)
    (spelled : FileNode.IsSpelled text)
    (starts : (if text.toList.head? = some '/' then [] else disk.working) = start)
    (segments : FileNode.lookupSegments text = names)
    (found : disk.root.at? (start ++ names) = some node) (plain : ∀ target, node ≠ .link target)
    (asked : ∀ name ∈ names, FileNode.IsAsked name)
    : disk.locate ⟨text⟩ true = .ok (start ++ names) ∧ disk.node ⟨text⟩ true = .ok node := by
  have place : (if text.toList.head? = some '/' then [] else disk.working.reverse) = start.reverse := by
    rw [← starts]
    split <;> rfl
  have walked : disk.root.walk true FileNode.maxLinks start.reverse names
      = .ok (start ++ names).reverse := by
    rw [List.reverse_append]
    exact FileNode.walk_names (by rwa [List.reverse_reverse]) plain asked
  have located : disk.locate ⟨text⟩ true = .ok (start ++ names) :=
    locate_of_walk spelled (by rw [place, segments, walked])
  exact ⟨located, node_eq_ok.mpr ⟨start ++ names, located, found⟩⟩

/-- The canonical path of what a path leads to is made of the names of its place. -/
theorem canonical_of_locate (located : disk.locate path true = .ok names)
    : disk.fileSystem.canonical path = .ok (.ofNames true names) :=
  congrArg (Except.map (Path.ofNames true)) located

theorem kind_of_file {bytes : List UInt8} {executable : Bool}
    (node : disk.node path true = .ok (.file bytes executable))
    : disk.fileSystem.kind path = .ok (.file bytes.length executable) := by
  simp only [fileSystem, node]
  rfl

/-- The path of the root leads to the root. -/
theorem node_root {entries : List (EntryName × FileNode)} (root : disk.root = .directory entries)
    : disk.locate ⟨"/"⟩ true = .ok [] ∧ disk.node ⟨"/"⟩ true = .ok (.directory entries) := by
  have dot : FileNode.lookupSegments "/" = ["."] := by decide
  have here : disk.root.at? [] = some (.directory entries) := congrArg some root
  have directory : disk.root.HasDirectory [].reverse := ⟨entries, here⟩
  have located : disk.locate ⟨"/"⟩ true = .ok [] :=
    locate_of_walk (by decide)
      (by rw [if_pos (by decide), dot, FileNode.walk_current directory, FileNode.walk]; rfl)
  exact ⟨located, node_eq_ok.mpr ⟨[], located, here⟩⟩

/-- What a path is located at is the end of a walk. -/
theorem walk_of_locate (located : disk.locate path true = .ok names)
    : disk.root.walk true FileNode.maxLinks (if path.isAbsolute then [] else disk.working.reverse)
        (FileNode.lookupSegments path.text)
      = .ok names.reverse := by
  have start
      : (if path.text.toList.head? = some '/' then [] else disk.working.reverse)
        = if path.isAbsolute then [] else disk.working.reverse := by
    simp only [isAbsolute, chars, beq_iff_eq]
  rw [Disk.locate, FileNode.locate, start] at located
  split at located
  · cases located
  · split at located
    · cases located
    · split at located
      · cases located
      · obtain ⟨found, walked, rfl⟩ := exists_of_map_eq_ok located
        rw [walked, List.reverse_reverse]

/-- An absolute path is located at names of files. -/
theorem isFileName_of_locate (located : disk.locate path true = .ok names)
    (absolute : path.isAbsolute = true)
    : ∀ name ∈ names, IsFileName name := by
  have walked := walk_of_locate located
  rw [if_pos absolute] at walked
  have files := FileNode.isFileName_of_walk (List.forall_mem_nil _)
    (fun _ => FileNode.mem_lookupSegments) walked
  exact fun name member => files name (List.mem_reverse.mpr member)

/-- An absolute path of names alone is located at those names, if they lead to a directory. -/
theorem locate_of_hasDirectory {spelled : List String}
    (located : disk.locate path true = .ok names)
    (components : path.components = .root :: spelled.map .name)
    (directory : disk.root.HasDirectory spelled)
    : names = spelled := by
  have absolute : path.isAbsolute = true := head?_components.mp (by rw [components]; rfl)
  have walked := walk_of_locate located
  rw [if_pos absolute] at walked
  have named : body path.text.toList = spelled.map .name := by
    rw [components_eq, lead, if_pos absolute] at components
    exact (List.cons.inj components).2
  have noParent : ".." ∉ spelled := by
    intro member
    have component : .name ".." ∈ path.components := by
      rw [components]
      exact List.mem_cons_of_mem _ (List.mem_map_of_mem member)
    exact (isFileName_of_mem_components component).parent rfl
  have ends := FileNode.walk_of_hasDirectory (FileNode.lookupSegments_of_body named) noParent
    (by simpa using directory) walked
  rwa [List.append_nil, List.reverse_inj] at ends

end Disk

end DueTasks
