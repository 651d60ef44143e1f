import LearnPg.Workspace.Store

/-! The operations of one section on the disk. `writeEnvelopeLocked` writes a
temporary file and renames it; each call may fail and leave what the calls before
it did. -/
namespace LearnPg.Workspace.Disk

open Data Secrets Store LearnPg.Basis.Sections

/-- What is at `s.path` and at `s.path + ".tmp"`. -/
structure Paths where
  file : File
  tmp : File
  deriving DecidableEq

abbrev OnDisk := ExceptT String (StateM Paths)

def readEnvelope (s : WorkspaceStore) (w : World) : OnDisk Envelope := do
  let paths ← get
  MonadExcept.ofExcept (readEnvelopeNoLock s w paths.file)

/-- `os.WriteFile`. A write that fails leaves `torn`. -/
def writeTmp (w : World) (torn content : File) : OnDisk Unit :=
  match w.writeError with
  | none => modify fun paths => { paths with tmp := content }
  | some err => do
    modify fun paths => { paths with tmp := torn }
    throw err

/-- `os.Rename`, which replaces the file whole or not at all. -/
def rename (w : World) : OnDisk Unit :=
  match w.renameError with
  | none => modify fun paths => ⟨paths.tmp, .missing⟩
  | some err => throw err

def writeEnvelope (s : WorkspaceStore) (w : World) (torn : File) (env : Envelope) :
    OnDisk Unit := do
  MonadExcept.ofExcept (check w.mkdirError)
  let projects ← MonadExcept.ofExcept
    (encryptNodePasswords s.crypto s.encKey w.nonce env.projects)
  writeTmp w torn (.envelope { env with projects })
  rename w

/-- Read, edit and write under `s.mu`. -/
def operate (s : WorkspaceStore) (w : World) (torn : File)
    (edit : Envelope → Except String Envelope) : OnDisk Unit := do
  let env ← readEnvelope s w
  let env ← MonadExcept.ofExcept (edit env)
  writeEnvelope s w torn env

def perform (s : WorkspaceStore) (w : World) (torn : File)
    (edit : Envelope → Except String Envelope) (paths : Paths) : Except String Unit × Paths :=
  (operate s w torn edit).run.run paths

section

variable {s : WorkspaceStore} {w : World} {torn : File} {edit : Envelope → Except String Envelope}
  {env : Envelope} {paths : Paths}

theorem run_bind {α β : Type} (x : OnDisk α) (f : α → OnDisk β) :
    (x >>= f).run.run paths =
      match x.run.run paths with
      | (.ok a, paths) => (f a).run.run paths
      | (.error err, paths) => (.error err, paths) := by
  rw [ExceptT.run_bind, StateT.run_bind]
  obtain ⟨result, after⟩ := x.run.run paths
  cases result with
  | error err => rfl
  | ok a => rfl

theorem run_ofExcept {α : Type} (x : Except String α) :
    (MonadExcept.ofExcept x : OnDisk α).run.run paths = (x, paths) := by
  cases x with
  | error err => rfl
  | ok a => rfl

theorem run_readEnvelope :
    (readEnvelope s w).run.run paths = (readEnvelopeNoLock s w paths.file, paths) :=
  run_ofExcept (readEnvelopeNoLock s w paths.file)

/-- The file that a write on the disk leaves is the one that the store's write
yields. -/
theorem run_writeEnvelope : ∃ tmp,
    (writeEnvelope s w torn env).run.run paths =
      match writeEnvelopeLocked s w env with
      | .ok file => (.ok (), ⟨file, tmp⟩)
      | .error err => (.error err, ⟨paths.file, tmp⟩) := by
  unfold writeEnvelope writeEnvelopeLocked writeTmp rename
  cases w.mkdirError with
  | some err => exact ⟨paths.tmp, rfl⟩
  | none =>
    cases encryptNodePasswords s.crypto s.encKey w.nonce env.projects with
    | error err => exact ⟨paths.tmp, rfl⟩
    | ok projects =>
      cases w.writeError with
      | some err => exact ⟨torn, rfl⟩
      | none =>
        cases w.renameError with
        | some err => exact ⟨_, rfl⟩
        | none => exact ⟨.missing, rfl⟩

theorem run_edit : ∃ tmp,
    (MonadExcept.ofExcept (edit env) >>= writeEnvelope s w torn).run.run paths =
      match edit env >>= writeEnvelopeLocked s w with
      | .ok file => (.ok (), ⟨file, tmp⟩)
      | .error err => (.error err, ⟨paths.file, tmp⟩) := by
  rw [run_bind, run_ofExcept]
  cases edit env with
  | error err => exact ⟨paths.tmp, rfl⟩
  | ok env => exact run_writeEnvelope

theorem exec_locked {file : File} : (locked s w edit).exec file =
    readEnvelopeNoLock s w file >>= fun env => edit env >>= writeEnvelopeLocked s w := rfl

/-- An operation on the disk refines the operation on the file. -/
theorem perform_exec (s : WorkspaceStore) (w : World) (torn : File)
    (edit : Envelope → Except String Envelope) (paths : Paths) : ∃ tmp,
    perform s w torn edit paths =
      match (locked s w edit).exec paths.file with
      | .ok file => (.ok (), ⟨file, tmp⟩)
      | .error err => (.error err, ⟨paths.file, tmp⟩) := by
  unfold perform operate
  rw [run_bind, run_readEnvelope, exec_locked]
  cases readEnvelopeNoLock s w paths.file with
  | error err => exact ⟨paths.tmp, rfl⟩
  | ok env => exact run_edit

end

end LearnPg.Workspace.Disk
