import DueTasks.Program.Run

/-! The registry of a request.
A request has a registry if its settings can be read, its jail can be made and its directory can be
listed. The registry then holds what is listed, in the surroundings that the request sets up.
-/

namespace DueTasks

/-- The entries of a registry are those that it was made from. -/
theorem Registry.entries_ofEntries {σ : Type} (environment : Environment σ)
    (entries : List TaskEntry)
    : (ofEntries environment entries).entries = entries := by
  rw [Registry.entries, ofEntries, List.map_map]
  exact List.map_id' entries

/-- A sequence answers if its first step does and the rest answers after it. -/
theorem mapError_bind_eq_ok {ε ε' α β : Type} {answer : Except ε α} {wrap : ε → ε'}
    {next : α → Except ε' β} {value : β}
    : (answer.mapError wrap >>= next) = .ok value
      ↔ ∃ found, answer = .ok found ∧ next found = .ok value := by
  cases answer with
  | error error =>
      constructor
      · rintro ⟨⟩
      · rintro ⟨found, ⟨⟩, _⟩
  | ok found =>
      constructor
      · exact fun h => ⟨found, rfl, h⟩
      · rintro ⟨_, ⟨rfl⟩, h⟩
        exact h

namespace Request

variable {request : Request} {today : Date} {disk : Disk}

/-- The surroundings in which the tasks of a request are evaluated. -/
def surroundings (request : Request) (today : Date) (settings : Settings) (jail : Jail)
    : Environment Machine where
  now := request.now.getD today
  files := Machine.files jail
  run := Machine.run settings.timeout
  filters := .none
  builtins := Builtin.standard

/-- A request chooses settings, makes a jail of them and lists its directory. -/
structure SetsUp (request : Request) (disk : Disk) (settings : Settings) (jail : Jail)
    (entries : List TaskEntry)
    : Prop where
  chosen : request.settings.settings disk.fileSystem = .ok settings
  made
    : Jail.make disk.fileSystem (settings.jailRootFor request.directory)
        (settings.helpersFor (settings.jailRootFor request.directory))
      = .ok jail
  listed : disk.tasks request.directory request.recurse = .ok entries

theorem registry_eq_ok {r : Registry Machine}
    : request.registry today disk = .ok r
      ↔ ∃ settings jail entries,
          request.SetsUp disk settings jail entries
          ∧ r = .ofEntries (request.surroundings today settings jail) entries := by
  simp only [Request.registry, mapError_bind_eq_ok]
  constructor
  · rintro ⟨settings, chosen, jail, made, entries, listed, ⟨rfl⟩⟩
    exact ⟨settings, jail, entries, ⟨chosen, made, listed⟩, rfl⟩
  · rintro ⟨settings, jail, entries, setsUp, rfl⟩
    exact ⟨settings, setsUp.chosen, jail, setsUp.made, entries, setsUp.listed, rfl⟩

end Request

end DueTasks
