import DueTasks.Files.Jail
import DueTasks.Proofs.Files.Components

/-! What a jail lets out.
Whatever the operating system says about links, a path that a task names is resolved to a place
inside of the jail, or it is refused.
-/

namespace DueTasks

open DueTasks.Path

namespace Jail

variable (jail : Jail) (fs : FileSystem)

/-- The path that a text names from a directory, with its `.` and `..`. -/
def named (base : Path) (relative : String) : Path :=
  match relative.toList with
  | '/' :: rest => jail.root.join (String.ofList rest)
  | _ => ((fs.canonical base).toOption.getD base).join relative

/-- Resolving a path, once it has been resolved by its spelling. -/
def resolveSpelled (relative : String) (spelled : Path) : Except FileError Path :=
  match fs.canonical spelled with
  | .ok real => jail.inside relative real
  | .error _ => .ok spelled

theorem resolve_eq (base : Path) (relative : String)
    : jail.resolve fs base relative
      = match (jail.named fs base relative).normalize? with
        | none => .error (.outsideJail relative)
        | some normalized =>
            jail.inside relative normalized >>= jail.resolveSpelled fs relative := rfl

variable {jail} {fs} {shown : String} {path real : Path}

/-- What lies inside of a jail has the components of its root before its own. -/
theorem inside_eq (shown : String) (path : Path)
    : jail.inside shown path
      = if jail.root.components <+: path.components then .ok path
        else .error (.outsideJail shown) := by
  simp only [inside, Path.startsWith, List.isPrefixOf_iff_prefix]

theorem inside_eq_ok {found : Path} (h : jail.inside shown path = .ok found)
    : jail.root.components <+: path.components ∧ found = path := by
  rw [inside_eq] at h
  split at h
  · rename_i within
    cases h
    exact ⟨within, rfl⟩
  · cases h

theorem inside_eq_error {error : FileError} (h : jail.inside shown path = .error error)
    : error = .outsideJail shown := by
  rw [inside_eq] at h
  split at h
  · cases h
  · cases h
    rfl

/-- What lies inside of a jail with an absolute root is absolute. -/
theorem isAbsolute_of_inside (rooted : jail.root.isAbsolute = true)
    (within : jail.root.components <+: path.components)
    : path.isAbsolute = true := by
  obtain ⟨rest, split⟩ := within
  rw [← head?_components] at rooted ⊢
  rw [← split, List.head?_append, rooted]
  rfl

/-- Every error is that the path lies outside. -/
theorem resolve_eq_error {base : Path} {relative : String} {error : FileError}
    (h : jail.resolve fs base relative = .error error)
    : error = .outsideJail relative := by
  rw [resolve_eq] at h
  split at h
  · cases h
    rfl
  · rename_i normalized _
    cases within : jail.inside relative normalized with
    | error other =>
        rw [within] at h
        cases h
        exact inside_eq_error within
    | ok spelled =>
        rw [within] at h
        change jail.resolveSpelled fs relative spelled = .error error at h
        rw [resolveSpelled] at h
        split at h
        · exact inside_eq_error h
        · cases h

/-- What is resolved is what the path really leads to, or else the path as it is spelled. -/
theorem resolve_eq_ok {base : Path} {relative : String}
    (h : jail.resolve fs base relative = .ok path)
    : ∃ spelled,
        (jail.named fs base relative).normalize? = some spelled
        ∧ jail.root.components <+: spelled.components
        ∧ jail.root.components <+: path.components
        ∧ (fs.canonical spelled = .ok path
          ∨ path = spelled ∧ ∃ error, fs.canonical spelled = .error error) := by
  rw [resolve_eq] at h
  split at h
  · cases h
  · rename_i normalized hn
    cases within : jail.inside relative normalized with
    | error other =>
        rw [within] at h
        cases h
    | ok spelled =>
        obtain ⟨lies, rfl⟩ := inside_eq_ok within
        rw [within] at h
        change jail.resolveSpelled fs relative spelled = .ok path at h
        refine ⟨spelled, hn, lies, ?_⟩
        rw [resolveSpelled] at h
        split at h
        · rename_i real hr
          obtain ⟨lies', rfl⟩ := inside_eq_ok h
          exact ⟨lies', .inl hr⟩
        · rename_i error hr
          cases h
          exact ⟨lies, .inr ⟨rfl, error, hr⟩⟩

/-- A path that a task names is resolved to a place inside of the jail, which is what the operating
system says that it leads to whenever it says so, or is refused as lying outside.
-/
theorem resolve_confined (rooted : jail.root.isAbsolute = true)
    (settled : ∀ path real, fs.canonical path = .ok real → real.IsSettled) (base : Path)
    (relative : String)
    : (∀ found, jail.resolve fs base relative = .ok found
        → jail.root.components <+: found.components
          ∧ found.IsSettled
          ∧ ∀ spelled real, (jail.named fs base relative).normalize? = some spelled
            → fs.canonical spelled = .ok real
            → found = real)
      ∧ ∀ error, jail.resolve fs base relative = .error error
        → error = .outsideJail relative := by
  refine ⟨fun found h => ?_, fun error h => resolve_eq_error h⟩
  obtain ⟨spelled, normalized, spelledInside, inside, leads⟩ := resolve_eq_ok h
  refine ⟨inside, ?_, fun spelled' real normalized' canonical => ?_⟩
  · rcases leads with canonical | ⟨rfl, -⟩
    · exact settled _ _ canonical
    · exact isSettled_of_normalize? normalized (isAbsolute_of_inside rooted inside)
  · obtain rfl := Option.some.inj (normalized.symm.trans normalized')
    rcases leads with canonical' | ⟨-, error, absent⟩
    · cases canonical'.symm.trans canonical
      rfl
    · cases absent.symm.trans canonical

/-- A file system that knows of one link. -/
def linkedSystem : FileSystem where
  workingDirectory := ⟨"/"⟩
  canonical path := if path = ⟨"/jail/link"⟩ then .ok ⟨"/jail/real"⟩ else .error .notFound
  kind _ := .error .notFound
  bytes _ := .error .notFound
  linkTarget? _ := .error .notFound

/-- A path with idle parts of every kind leads through a link. -/
theorem resolve_confined_of_linkedSystem
    : let jail : Jail := ⟨⟨"/jail"⟩, ⟨"/jail/.bin"⟩⟩
      jail.resolve linkedSystem ⟨"/jail/tasks"⟩ ".././/link/" = .ok ⟨"/jail/real"⟩
      ∧ jail.root.components <+: (Path.mk "/jail/real").components
      ∧ (Path.mk "/jail/real").IsSettled := by
  intro jail
  have rooted : jail.root.isAbsolute = true := by decide
  have settled (path real : Path) (h : linkedSystem.canonical path = .ok real)
      : real.IsSettled := by
    simp only [linkedSystem] at h
    split at h
    · cases h
      exact ⟨by decide, by decide, by decide⟩
    · cases h
  have resolved
      : jail.resolve linkedSystem ⟨"/jail/tasks"⟩ ".././/link/" = .ok ⟨"/jail/real"⟩ := by
    have found : (jail.resolve linkedSystem ⟨"/jail/tasks"⟩ ".././/link/").toOption
        = some ⟨"/jail/real"⟩ := by decide +kernel
    generalize jail.resolve linkedSystem ⟨"/jail/tasks"⟩ ".././/link/" = answer at found ⊢
    cases answer <;> cases found
    rfl
  have confined := (resolve_confined rooted settled ⟨"/jail/tasks"⟩ ".././/link/").1 _ resolved
  exact ⟨resolved, confined.1, confined.2.1⟩

end Jail

end DueTasks
