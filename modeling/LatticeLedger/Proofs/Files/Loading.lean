import LatticeLedger.Command

/-!
# Running a command in a directory

A directory is a model of the file system, and a program that reads and writes files is a function
on directories. These lemmas say which function the basic commands are: reading changes nothing,
and loading applies a parser to what is read.
-/

namespace LatticeLedger

namespace Directory

/-- Reading a file answers with its text and leaves the directory as it was. -/
theorem run_readText {directory : Directory} {path : String} :
    (FileSystem.readText path : StateM Directory _).run directory =
      (directory.readText path, directory) := rfl

/-- Writing a file changes the directory, unless it fails and leaves it as it was. -/
theorem run_writeText {directory : Directory} {path text : String} :
    (FileSystem.writeText path text : StateM Directory _).run directory =
      match directory.writeText path text with
      | .ok written => (.ok (), written)
      | .error error => (.error error, directory) := by
  change StateT.run (get >>= _) directory = _
  rw [StateT.run_bind]
  show StateT.run (match directory.writeText path text with | .ok _ => _ | .error _ => _) _ = _
  cases directory.writeText path text <;> rfl

/-- A file of the directory takes every text. -/
theorem writeText_of_resolve {directory : Directory} {path name text : String}
    (hresolve : directory.resolve path = .ok (.entry .here name))
    (hslash : path.endsWith "/" = false) (hlimit : name.utf8ByteSize ≤ nameLimit) :
    directory.writeText path text = .ok ⟨directory.files.insert name text.toUTF8⟩ := by
  refine bind_eq_ok_iff.2 ⟨_, hresolve, ?_⟩
  refine bind_eq_ok_iff.2 ⟨(), require_eq_ok_iff.2 (by simp [hslash]), ?_⟩
  refine bind_eq_ok_iff.2 ⟨directory.files.get? name, ?_, rfl⟩
  exact bind_eq_ok_iff.2 ⟨(), require_eq_ok_iff.2 hlimit, rfl⟩

end Directory

namespace Directory

variable {ε α : Type}

/-- What is loaded from a file of a directory. -/
def loaded (directory : Directory) (parse : String → Except ε α) (path : String) :
    Except (LoadError ε) α :=
  match directory.readText path with
  | .ok text => (parse text).mapError .content
  | .error error => .error (.file path error)

/-- What is loaded where a standard value stands for a file that is not named. -/
def loadedOr (directory : Directory) (standard : α) (parse : String → Except ε α) :
    Option String → Except (LoadError ε) α
  | none => .ok standard
  | some path => directory.loaded parse path

/-- A file that can be read is loaded as the parser reads its text. -/
theorem loaded_of_readText {directory : Directory} {parse : String → Except ε α}
    {path text : String} (h : directory.readText path = .ok text) :
    directory.loaded parse path = (parse text).mapError .content := by
  rw [loaded, h]

/-- A value is loaded if there is a text under the path and the text is read as that value. -/
theorem loaded_eq_ok_iff {directory : Directory} {parse : String → Except ε α} {path : String}
    {value : α} :
    directory.loaded parse path = .ok value ↔
      ∃ text, directory.readText path = .ok text ∧ parse text = .ok value := by
  rw [loaded]
  cases directory.readText path with
  | ok text => simp [mapError_eq_ok_iff]
  | error error => simp

end Directory

/-- Loading a file leaves the directory as it was. -/
theorem run_load {ε α : Type} {parse : String → Except ε α} {directory : Directory}
    {path : String} :
    (load parse path : StateM Directory _).run directory =
      (directory.loaded parse path, directory) := by
  rw [load, StateT.run_bind, Directory.run_readText, Directory.loaded]
  cases directory.readText path <;> rfl

/-- A file that can be read is loaded as the parser reads its text, and no file is changed. -/
theorem run_load_of_readText {ε α : Type} {parse : String → Except ε α} {directory : Directory}
    {path text : String} (h : directory.readText path = .ok text) :
    (load parse path : StateM Directory _).run directory =
      ((parse text).mapError .content, directory) := by
  rw [run_load, Directory.loaded_of_readText h]

/-- What is loaded is what the parser makes of the text of the file, and no file is changed. -/
theorem run_load_eq_ok_iff {ε α : Type} {parse : String → Except ε α}
    {directory after : Directory} {path : String} {value : α} :
    (load parse path : StateM Directory _).run directory = (.ok value, after) ↔
      directory = after ∧
        ∃ text, directory.readText path = .ok text ∧ parse text = .ok value := by
  rw [run_load, Prod.mk.injEq, and_comm, Directory.loaded_eq_ok_iff]

/-- Loading a file that need not be named leaves the directory as it was. -/
theorem run_loadOr {ε α : Type} {standard : α} {parse : String → Except ε α}
    {directory : Directory} {path? : Option String} :
    (Command.loadOr standard parse path? : StateM Directory _).run directory =
      (directory.loadedOr standard parse path?, directory) := by
  cases path? with
  | none => rfl
  | some path => exact run_load

/-- A stage that changes no file, followed by a rest that changes none, gives what they give one
after the other. -/
theorem run_stage {ε δ α β : Type} {directory : Directory} {start : StateM Directory (Except ε α)}
    {outcome : Except ε α} {rename : ε → δ} {next : α → ExceptT δ (StateM Directory) β}
    {answer : α → Except δ β} (hstart : start.run directory = (outcome, directory))
    (hnext : ∀ value, (next value).run.run directory = (answer value, directory)) :
    (ExceptT.mk (return (← start).mapError rename) >>= next).run.run directory =
      (outcome.mapError rename >>= answer, directory) := by
  rw [ExceptT.run_bind, ExceptT.run_mk, StateT.run_bind, StateT.run_bind, hstart]
  cases outcome with
  | error error => rfl
  | ok value => exact hnext value

end LatticeLedger
