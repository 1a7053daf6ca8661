import DueTasks.Files.Path

/-! Paths and their components.
The components of a path are told by its parts between slashes. Names behind a slash each are the
components of an absolute path, and putting a path behind a directory puts its components behind
those of the directory.
-/

namespace DueTasks

-----------------------------------------------------------------------------------------
-- Parts of a text
-----------------------------------------------------------------------------------------

namespace Text

variable {separates : Char → Bool}

theorem parts_ne_nil (separates : Char → Bool) (chars : List Char)
    : parts separates chars ≠ [] := by
  cases chars with
  | nil => exact List.cons_ne_nil _ _
  | cons c rest =>
      rw [parts]
      split
      · exact List.cons_ne_nil _ _
      · split <;> exact List.cons_ne_nil _ _

theorem exists_parts_eq_cons (separates : Char → Bool) (chars : List Char)
    : ∃ part more, parts separates chars = part :: more :=
  List.exists_cons_of_ne_nil (parts_ne_nil separates chars)

theorem parts_cons_of_pos {c : Char} (separator : separates c = true) (rest : List Char)
    : parts separates (c :: rest) = [] :: parts separates rest := by
  obtain ⟨part, more, he⟩ := exists_parts_eq_cons separates rest
  rw [parts, he]
  exact if_pos separator

theorem parts_cons_of_neg {c : Char} (other : separates c = false) {rest part : List Char}
    {more : List (List Char)} (he : parts separates rest = part :: more)
    : parts separates (c :: rest) = (c :: part) :: more := by
  rw [parts, he]
  simp only [other, Bool.false_eq_true, if_false]

/-- The parts on both sides of a separator, by induction on what stands before it. -/
theorem parts_append_cons {c : Char} (separator : separates c = true) (before after : List Char)
    : parts separates (before ++ c :: after) = parts separates before ++ parts separates after := by
  induction before with
  | nil => exact parts_cons_of_pos separator after
  | cons first before ih =>
      rw [List.cons_append]
      cases hf : separates first with
      | true => rw [parts_cons_of_pos hf, parts_cons_of_pos hf, ih, List.cons_append]
      | false =>
          obtain ⟨part, more, he⟩ := exists_parts_eq_cons separates before
          rw [he] at ih
          rw [parts_cons_of_neg hf ih, parts_cons_of_neg hf he]
          rfl

/-- A text without separators is a single part. -/
theorem parts_of_solid {chars : List Char} (solid : ∀ c ∈ chars, separates c = false)
    : parts separates chars = [chars] := by
  induction chars with
  | nil => rfl
  | cons c rest ih =>
      obtain ⟨other, solid⟩ := List.forall_mem_cons.mp solid
      exact parts_cons_of_neg other (ih solid)

/-- No part has a separator. -/
theorem solid_of_mem_parts {chars part : List Char} (member : part ∈ parts separates chars)
    : ∀ c ∈ part, separates c = false := by
  induction chars generalizing part with
  | nil =>
      rw [List.mem_singleton.mp member]
      exact List.forall_mem_nil _
  | cons c rest ih =>
      cases hc : separates c with
      | true =>
          rw [parts_cons_of_pos hc] at member
          rcases List.mem_cons.mp member with rfl | member
          · exact List.forall_mem_nil _
          · exact ih member
      | false =>
          obtain ⟨first, more, he⟩ := exists_parts_eq_cons separates rest
          rw [parts_cons_of_neg hc he] at member
          rw [he] at ih
          rcases List.mem_cons.mp member with rfl | member
          · exact List.forall_mem_cons.mpr ⟨hc, ih List.mem_cons_self⟩
          · exact ih (List.mem_cons_of_mem _ member)

end Text

namespace Path

open Text

-----------------------------------------------------------------------------------------
-- Components
-----------------------------------------------------------------------------------------

/-- The components that the parts of a text between slashes stand for. -/
def body (chars : List Char) : List PathComponent :=
  ((segments chars).filter (!isIdle ·)).map componentOf

/-- What a path begins with: the root, a dot, or nothing in particular. -/
def lead (p : Path) : List PathComponent :=
  if p.isAbsolute then [.root] else if p.startsHere then [.current] else []

theorem components_eq (p : Path) : p.components = p.lead ++ body p.chars := by
  rw [components, lead]
  split
  · rfl
  · split <;> rfl

theorem body_append_slash (before after : List Char)
    : body (before ++ '/' :: after) = body before ++ body after := by
  have split : segments (before ++ '/' :: after) = segments before ++ segments after :=
    parts_append_cons rfl before after
  rw [body, split, List.filter_append, List.map_append]
  rfl

/-- A name of a file: neither empty nor a dot or two, and without slashes. -/
structure IsFileName (name : String) : Prop where
  solid : '/' ∉ name.toList
  written : name ≠ ""
  current : name ≠ "."
  parent : name ≠ ".."

instance : DecidablePred IsFileName := fun name =>
  decidable_of_iff
    ('/' ∉ name.toList ∧ name ≠ "" ∧ name ≠ "." ∧ name ≠ "..")
    ⟨fun ⟨solid, written, current, parent⟩ => ⟨solid, written, current, parent⟩,
      fun ⟨solid, written, current, parent⟩ => ⟨solid, written, current, parent⟩⟩

theorem IsFileName.plain {name : String} (h : IsFileName name)
    : name.toList.head? ≠ some '/' :=
  fun first => h.solid (List.mem_of_mem_head? first)

/-- The segment of a name of a file means that name. -/
theorem IsFileName.componentOf {name : String} (h : IsFileName name)
    : isIdle name.toList = false ∧ Path.componentOf name.toList = .name name := by
  have other {word : String} (distinct : name ≠ word) : name.toList ≠ word.toList :=
    fun same => distinct (String.toList_injective same)
  refine ⟨?_, ?_⟩
  · rw [isIdle, Bool.or_eq_false_iff, beq_eq_false_iff_ne, beq_eq_false_iff_ne]
    exact ⟨other h.written, other h.current⟩
  · have parent : name.toList ≠ ['.', '.'] := other h.parent
    rw [Path.componentOf, if_neg parent, String.ofList_toList]

/-- The components of a path are names of files and `..`, apart from its first one. -/
theorem isFileName_of_mem_body {chars : List Char} {component : PathComponent}
    (member : component ∈ body chars)
    : component = .parent ∨ ∃ name, component = .name name ∧ IsFileName name := by
  obtain ⟨segment, filtered, rfl⟩ := List.mem_map.mp member
  obtain ⟨part, busy⟩ := List.mem_filter.mp filtered
  rw [componentOf]
  split
  · exact .inl rfl
  · rename_i parent
    simp only [isIdle, Bool.not_or, Bool.and_eq_true, Bool.not_eq_true',
      beq_eq_false_iff_ne] at busy
    have other {word : List Char} (distinct : segment ≠ word)
        : String.ofList segment ≠ String.ofList word :=
      fun same => distinct (String.ofList_injective same)
    refine .inr ⟨_, rfl, ?_, other busy.1, other busy.2, other parent⟩
    intro slash
    rw [String.toList_ofList] at slash
    exact beq_eq_false_iff_ne.mp (solid_of_mem_parts part '/' slash) rfl

/-- A name of a file is a single segment. -/
theorem segments_of_isFileName {name : String} (h : IsFileName name)
    : segments name.toList = [name.toList] :=
  parts_of_solid fun _ member => beq_eq_false_iff_ne.mpr fun same => h.solid (same ▸ member)

/-- The text of names with slashes between them. -/
theorem toList_intercalate_cons (name next : String) (names : List String)
    : ("/".intercalate (name :: next :: names)).toList
      = name.toList ++ '/' :: ("/".intercalate (next :: names)).toList := by
  rw [String.toList_intercalate, String.toList_intercalate, List.map_cons, List.map_cons,
    List.intercalate_cons_cons, List.append_assoc]
  rfl

/-- Names between slashes are the segments of their text, by induction on the names. -/
theorem segments_intercalate {names : List String} (files : ∀ name ∈ names, IsFileName name)
    (named : names ≠ [])
    : segments ("/".intercalate names).toList = names.map String.toList := by
  induction names with
  | nil => contradiction
  | cons name names ih =>
      obtain ⟨file, files⟩ := List.forall_mem_cons.mp files
      have single := segments_of_isFileName file
      cases names with
      | nil => exact single
      | cons next names =>
          rw [toList_intercalate_cons, List.map_cons, ← ih files (List.cons_ne_nil _ _)]
          exact (parts_append_cons rfl _ _).trans (congrArg (· ++ _) single)

/-- They are the components of their text, too. -/
theorem body_intercalate {names : List String} (files : ∀ name ∈ names, IsFileName name)
    : body ("/".intercalate names).toList = names.map .name := by
  by_cases named : names = []
  · rw [named]
    rfl
  · have busy : ∀ segment ∈ names.map String.toList, (!isIdle segment) = true :=
      List.forall_mem_map.mpr fun name member => by rw [(files name member).componentOf.1]; rfl
    rw [body, segments_intercalate files named, List.filter_eq_self.mpr busy, List.map_map]
    exact List.map_congr_left fun name member => (files name member).componentOf.2

theorem body_of_isFileName {name : String} (h : IsFileName name)
    : body name.toList = [.name name] :=
  have single : body ("/".intercalate [name]).toList = [.name name] :=
    body_intercalate fun _ member => List.mem_singleton.mp member ▸ h
  single

theorem chars_ofNames (names : List String)
    : (ofNames true names).chars = '/' :: ("/".intercalate names).toList := by
  rw [chars, ofNames, if_pos rfl, String.toList_append]
  rfl

theorem isAbsolute_ofNames (names : List String) : (ofNames true names).isAbsolute = true := by
  rw [isAbsolute, chars_ofNames]
  rfl

/-- Names of files behind a slash each are a path from the root. -/
theorem components_ofNames {names : List String} (files : ∀ name ∈ names, IsFileName name)
    : (ofNames true names).components = .root :: names.map .name := by
  have split : body ([] ++ '/' :: ("/".intercalate names).toList) = names.map .name :=
    (body_append_slash _ _).trans (body_intercalate files)
  rw [components_eq, lead, if_pos (isAbsolute_ofNames names), chars_ofNames]
  exact congrArg (_ ++ ·) split

/-- A path begins with the root exactly if it begins with a slash. -/
theorem head?_components {p : Path} : p.components.head? = some .root ↔ p.isAbsolute = true := by
  rw [components_eq, lead]
  cases p.isAbsolute with
  | true => exact iff_of_true rfl rfl
  | false =>
      refine iff_of_false (fun head => ?_) Bool.false_ne_true
      rw [if_neg Bool.false_ne_true] at head
      split at head
      · cases head
      · rw [List.nil_append] at head
        rcases isFileName_of_mem_body (List.mem_of_mem_head? head) with none | ⟨name, none, -⟩ <;>
          cases none

/-- The names among the components of a path are names of files. -/
theorem isFileName_of_mem_components {p : Path} {name : String}
    (member : .name name ∈ p.components)
    : IsFileName name := by
  rw [components_eq] at member
  rcases List.mem_append.mp member with first | member
  · rw [lead] at first
    split at first
    · cases List.mem_singleton.mp first
    · split at first
      · cases List.mem_singleton.mp first
      · cases first
  · rcases isFileName_of_mem_body member with none | ⟨found, same, file⟩
    · cases none
    · cases same
      exact file

-----------------------------------------------------------------------------------------
-- Settled paths
-----------------------------------------------------------------------------------------

/-- A path from the root that has neither `.` nor `..` among its components. -/
structure IsSettled (p : Path) : Prop where
  absolute : p.isAbsolute = true
  current : .current ∉ p.components
  parent : .parent ∉ p.components

/-- What is left of names of files are names of files, by induction on the components. -/
theorem isFileName_of_settle? {before names : List String} {components : List PathComponent}
    (files : ∀ name ∈ before, IsFileName name)
    (named : ∀ name, .name name ∈ components → IsFileName name)
    (settled : settle? before components = some names)
    : ∀ name ∈ names, IsFileName name := by
  fun_induction settle? before components with
  | case1 before =>
      cases settled
      exact fun name member => files name (List.mem_reverse.mp member)
  | case2 => cases settled
  | case3 last before rest ih =>
      exact ih (List.forall_mem_cons.mp files).2
        (fun name member => named name (List.mem_cons_of_mem _ member)) settled
  | case4 before name rest ih =>
      exact ih (List.forall_mem_cons.mpr ⟨named name List.mem_cons_self, files⟩)
        (fun name member => named name (List.mem_cons_of_mem _ member)) settled
  | case5 before rest ih | case6 before rest ih =>
      exact ih files (fun name member => named name (List.mem_cons_of_mem _ member)) settled

/-- No path of names alone begins with a slash. -/
theorem isAbsolute_ofNames_false {names : List String} (files : ∀ name ∈ names, IsFileName name)
    : (ofNames false names).isAbsolute = false := by
  have text : (ofNames false names).chars = ("/".intercalate names).toList := by
    rw [chars, ofNames, if_neg Bool.false_ne_true, String.toList_append]
    rfl
  have solid {name : String} (file : IsFileName name) (rest : List Char)
      : (name.toList ++ rest).head? ≠ some '/' := by
    cases first : name.toList with
    | nil => exact absurd (String.toList_eq_nil_iff.mp first) file.written
    | cons c more =>
        rintro ⟨rfl⟩
        exact file.solid (first ▸ List.mem_cons_self)
  rw [isAbsolute, text, beq_eq_false_iff_ne]
  rcases names with _ | ⟨name, _ | ⟨next, names⟩⟩
  · exact nofun
  · rw [show "/".intercalate [name] = name from rfl, ← List.append_nil name.toList]
    exact solid (files name List.mem_cons_self) []
  · rw [toList_intercalate_cons]
    exact solid (files name List.mem_cons_self) _

/-- An absolute path that is resolved by its spelling leads from the root by names of files. -/
theorem exists_names_of_normalize? {p q : Path} (normalized : p.normalize? = some q)
    (absolute : q.isAbsolute = true)
    : ∃ names, (∀ name ∈ names, IsFileName name) ∧ q = ofNames true names := by
  obtain ⟨names, settled, rfl⟩ := Option.map_eq_some_iff.mp normalized
  have files := isFileName_of_settle? (List.forall_mem_nil _)
    (fun name member => isFileName_of_mem_components member) settled
  cases rooted : p.isAbsolute with
  | false =>
      rw [rooted, isAbsolute_ofNames_false files] at absolute
      cases absolute
  | true => exact ⟨names, files, rfl⟩

/-- So it is settled. -/
theorem isSettled_of_normalize? {p q : Path} (normalized : p.normalize? = some q)
    (absolute : q.isAbsolute = true)
    : q.IsSettled := by
  obtain ⟨names, files, rfl⟩ := exists_names_of_normalize? normalized absolute
  refine ⟨absolute, ?_, ?_⟩ <;>
    · rw [components_ofNames files]
      simp

-----------------------------------------------------------------------------------------
-- Paths behind directories
-----------------------------------------------------------------------------------------

/-- A path behind an absolute directory is absolute. -/
theorem isAbsolute_join {base : Path} (rooted : base.isAbsolute = true) (relative : String)
    : (base.join relative).isAbsolute = true := by
  have head : base.text.toList.head? = some '/' := beq_iff_eq.mp rooted
  rw [isAbsolute, beq_iff_eq, join, chars]
  split
  · assumption
  · split <;> simp only [String.toList_append, List.head?_append, head, Option.some_or]

/-- A path behind an absolute directory has its components behind those of the directory. -/
theorem components_join {base : Path} (rooted : base.isAbsolute = true) {relative : String}
    (plain : relative.toList.head? ≠ some '/')
    : (base.join relative).components = base.components ++ body relative.toList := by
  have joined := isAbsolute_join rooted relative
  rw [components_eq, components_eq base, lead, lead, if_pos joined, if_pos rooted,
    List.append_assoc]
  refine congrArg _ ?_
  rw [join, if_neg plain]
  by_cases closed : base.chars.getLast? = some '/'
  · -- the directory ends with the slash that separates it from the path
    obtain ⟨before, text⟩ : ∃ before, base.chars = before ++ ['/'] :=
      List.getLast?_eq_some_iff.mp closed
    have text' : (Path.mk (base.text ++ relative)).chars = before ++ '/' :: relative.toList := by
      rw [chars, String.toList_append, show base.text.toList = before ++ ['/'] from text,
        List.append_assoc]
      rfl
    have nothing : body [] = [] := rfl
    rw [if_pos (by simp [closed]), text', text, body_append_slash, body_append_slash, nothing,
      List.append_nil]
  · have text : (Path.mk (base.text ++ "/" ++ relative)).chars
        = base.chars ++ '/' :: relative.toList := by
      rw [chars, String.toList_append, String.toList_append, List.append_assoc]
      rfl
    have written : base.text ≠ "" := fun none => by
      rw [isAbsolute, chars, none] at rooted
      cases rooted
    rw [if_neg (by simpa [closed] using written), text, body_append_slash]

/-- An absolute path stands for itself behind every directory. -/
theorem join_of_isAbsolute {path : Path} (absolute : path.isAbsolute = true) (base : Path)
    : base.join path.text = path := by
  have first : path.text.toList.head? = some '/' := beq_iff_eq.mp absolute
  rw [join, if_pos first]

end Path

end DueTasks
