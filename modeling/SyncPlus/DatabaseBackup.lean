import SyncPlus.DirectoryWalk
import SyncPlus.Lib.Preconditions

/-!
# Database backups

The files of the application directory and the calls a backup manager makes on
them. Every call of the file system is a step of its own, that succeeds or fails
(`FsAnswer`); one that fails changes nothing, a copy apart, which leaves what it had
written. SQLite and gzip are not part of the program: `DatabaseFormat` says of the
bytes of a database, with those of the files beside it, whether SQLite opens it and
finds it intact, and what a compressed backup decompresses to.

This module is the code that validates backups, quarantines the live database and
restores one.
-/

namespace SyncPlus

/-! ## Files -/

/-- What `unique_token` makes: the nanoseconds of the clock and a count. -/
abbrev Token := Nat × UInt64

inductive DatabasePart where
  | database
  | wal
  | shm
  deriving DecidableEq

/-- The paths of the application directory. -/
inductive AppPath where
  | live (part : DatabasePart)
  | quarantined (token : Token) (part : DatabasePart)
  | backup (name : Name)
  | temporary (label : String) (token : Token)
  | elsewhere (path : PathBuf)
  deriving DecidableEq

inductive FileNode where
  | file (bytes : List UInt8)
  | other
  deriving DecidableEq

def FileNode.isFile : FileNode → Bool
  | file _ => true
  | other => false

abbrev AppFiles := AppPath → Option FileNode

structure DatabaseFormat where
  integrityOk : List UInt8 → Option FileNode → Option FileNode → Bool
  decompress : List UInt8 → Option (List UInt8)

inductive IoErrorKind where
  | notFound
  | alreadyExists
  | other
  deriving DecidableEq

inductive QuarantineReason where
  | sidecarNotRegular (sidecar : AppPath)
  | couldNotRetainDatabase (kind : IoErrorKind)
  | couldNotRetainSidecar (sidecar : AppPath) (kind : IoErrorKind)
  | appearedDuringRestore
  deriving DecidableEq

inductive RotationReason where
  | couldNotRemove (kind : IoErrorKind)
  | selectedNewest
  deriving DecidableEq

inductive BackupError where
  | invalidPath (reason : String)
  | io (kind : IoErrorKind)
  | sqlite
  | integrity
  | compression
  | backupNotFound
  | backupNotValidated
  | liveDatabaseHealthy
  | quarantine (reason : QuarantineReason)
  | rotation (reason : RotationReason)
  deriving DecidableEq

/-! ## Calls of the file system -/

/-- What the environment answers a step. -/
structure FsAnswer where
  fails : Bool
  /-- The clock and the count of the process. -/
  token : Token
  /-- The entries of the backup directory. -/
  entries : List Name
  /-- What a copy that fails has written. -/
  written : List UInt8

/-- The steps of the quarantine that decide about the live database, those that
name the files of a new backup, and any other. -/
inductive Site where
  | plain
  | quarantineCheck
  | quarantineName
  | snapshotName
  | stagingName
  | backupName
  deriving DecidableEq

abbrev Backup := Procedure FsAnswer AppFiles Site Unit BackupError

namespace AppFiles

def set (files : AppFiles) (path : AppPath) (node : Option FileNode) : AppFiles :=
  fun p => if p = path then node else files p

@[simp] theorem set_same (files : AppFiles) (path : AppPath) (node : Option FileNode) :
    files.set path node path = node := if_pos rfl

theorem set_of_ne {files : AppFiles} {path p : AppPath} {node : Option FileNode} (h : p ≠ path) :
    files.set path node p = files p := if_neg h

theorem set_set (files : AppFiles) (path : AppPath) (node node' : Option FileNode) :
    (files.set path node).set path node' = files.set path node' := by
  funext p
  unfold set
  split <;> rfl

end AppFiles

/-- A call that fails with an I/O error, and otherwise does what `f` says. -/
def fsCall {α : Type} (site : Site)
    (f : FsAnswer → AppFiles → Except IoErrorKind (α × AppFiles)) : Backup α :=
  .call site fun answer files =>
    if answer.fails then (.error (.io .other), files)
    else
      match f answer files with
      | .ok (a, files') => (.ok a, files')
      | .error kind => (.error (.io kind), files)

/-- Whether there is a regular file. -/
def symlinkMetadata (site : Site) (path : AppPath) : Backup Bool :=
  fsCall site fun _ files =>
    match files path with
    | some node => .ok (node.isFile, files)
    | none => .error .notFound

def readDir : Backup (List Name) :=
  fsCall .plain fun answer files =>
    .ok (answer.entries.filter fun name => (files (.backup name)).isSome, files)

/-- A call that has no effect on the files: permissions, flushes, and the
directories themselves. -/
def touch : Backup Unit := fsCall .plain fun _ files => .ok ((), files)

def openFile (path : AppPath) : Backup (List UInt8) :=
  fsCall .plain fun _ files =>
    match files path with
    | some (.file bytes) => .ok (bytes, files)
    | some .other => .error .other
    | none => .error .notFound

def openCreateNew (path : AppPath) : Backup Unit :=
  fsCall .plain fun _ files =>
    match files path with
    | some _ => .error .alreadyExists
    | none => .ok ((), files.set path (some (.file [])))

def removeFile (path : AppPath) : Backup Unit :=
  fsCall .plain fun _ files =>
    match files path with
    | some _ => .ok ((), files.set path none)
    | none => .error .notFound

/-- `fs::rename`, which takes the place of what is at the target. -/
def rename (source target : AppPath) : Backup Unit :=
  fsCall .plain fun _ files =>
    match files source with
    | some node => .ok ((), (files.set source none).set target (some node))
    | none => .error .notFound

/-- Write what a reader gives into an open file; the reader may fail as well. -/
def copyInto (read : Option (List UInt8)) (error : BackupError) (path : AppPath) : Backup Unit :=
  .call .plain fun answer files =>
    match read with
    | some bytes =>
        if answer.fails then (.error error, files.set path (some (.file answer.written)))
        else (.ok (), files.set path (some (.file bytes)))
    | none => (.error error, files.set path (some (.file answer.written)))

def uniqueToken (site : Site) : Backup Token :=
  .call site fun answer files => (.ok answer.token, files)

/-- The file with this suffix beside a database. No other than the live one has
any. -/
def AppFiles.beside (files : AppFiles) (part : DatabasePart) : AppPath → Option FileNode
  | .live .database => files (.live part)
  | _ => none

def AppFiles.integrity (format : DatabaseFormat) (answer : FsAnswer) (files : AppFiles)
    (path : AppPath) : Except BackupError Unit :=
  match files path with
  | some (.file bytes) => do
      ensure (answer.fails = false) .sqlite
      ensure (format.integrityOk bytes (files.beside .wal path) (files.beside .shm path) = true)
        .integrity
  | _ => .error .sqlite

/-- Open a database read-only and run the integrity check. -/
def verifyDatabase (format : DatabaseFormat) (site : Site) (path : AppPath) : Backup Unit :=
  .call site fun answer files => (files.integrity format answer path, files)

/-- Errors of `p` get another name. -/
def Backup.mapError {α : Type} (p : Backup α) (f : BackupError → BackupError) : Backup α := do
  match ← p.attempt with
  | .ok a => return a
  | .error e => .ofExcept (.error (f e))

/-- `let _ = …`: whether it fails does not matter. -/
def Backup.ignore (p : Backup Unit) : Backup Unit := do
  let _ ← p.attempt
  return ()

def ioKind : BackupError → IoErrorKind
  | .io kind => kind
  | _ => .other

/-! ## Validation -/

section

variable (format : DatabaseFormat)

def validateSqliteFile (site : Site) (path : AppPath) : Backup Unit := do
  let isFile ← symlinkMetadata site path
  Procedure.ofExcept (ensure (isFile = true) .integrity)
  verifyDatabase format site path

def decompressFile (source destination : AppPath) : Backup Unit := do
  let input ← openFile source
  openCreateNew destination
  touch
  copyInto (format.decompress input) .compression destination
  touch

def ensurePrivateDir : Backup Unit := do
  touch
  touch

/-- `ensure_layout`: the directories for backups, quarantine and temporary
files. -/
def ensureLayout : Backup Unit := do
  ensurePrivateDir
  ensurePrivateDir
  ensurePrivateDir

def isRegularFile (path : AppPath) : Backup Bool := do
  match ← (symlinkMetadata .plain path).attempt with
  | .ok isFile => return isFile
  | .error _ => return false

def isBackupName (name : Name) : Bool :=
  (PathBuf.toText ⟨name⟩).any fun text =>
    "syncplus-".toList.isPrefixOf text.toList && ".sqlite.gz".toList.isSuffixOf text.toList

def validateCompressedBackup (source : AppPath) : Backup Unit := do
  let isFile ← isRegularFile source
  Procedure.ofExcept (ensure (isFile = true) .backupNotValidated)
  let token ← uniqueToken .plain
  let validationPath := AppPath.temporary "validate" token
  let result ← Procedure.attempt do
    decompressFile format source validationPath
    validateSqliteFile format .plain validationPath
  Backup.ignore (removeFile validationPath)
  Procedure.ofExcept result

/-- The loop of `list_validated_backups`. -/
def listEntries : List Name → Backup (List Name)
  | [] => return []
  | name :: rest => do
      touch
      if isBackupName name then
        let isFile ← isRegularFile (.backup name)
        if isFile then
          let validated ← (validateCompressedBackup format (.backup name)).attempt
          let backups ← listEntries rest
          return if validated.isOk then name :: backups else backups
        else listEntries rest
      else listEntries rest

def listValidatedBackups : Backup (List Name) := do
  ensureLayout
  let entries ← readDir
  let backups ← listEntries format entries
  return (backups.insertionSort fun a b => a ≤ b).reverse

/-- The backup that is selected, by its name in the backup directory. -/
def validateSelectedBackup (selected : AppPath) : Backup Name := do
  match selected with
  | .backup name =>
      Procedure.ofExcept (ensure (isBackupName name = true) .backupNotValidated)
      let backups ← listValidatedBackups format
      Procedure.ofExcept (orError (backups.find? (· = name)) .backupNotValidated)
  | .elsewhere path =>
      if path.isAbsolute then .ofExcept (.error .backupNotValidated)
      else .ofExcept (.error (.invalidPath "selected backup path must be absolute"))
  | _ => .ofExcept (.error .backupNotValidated)

/-! ## Quarantine -/

def sqliteSidecars : List DatabasePart := [.wal, .shm]

/-- The sidecars that are there. -/
def regularSidecars : List DatabasePart → Backup (List DatabasePart)
  | [] => return []
  | part :: rest => do
      match ← (symlinkMetadata .plain (.live part)).attempt with
      | .ok true =>
          let sidecars ← regularSidecars rest
          return part :: sidecars
      | .ok false => .ofExcept (.error (.quarantine (.sidecarNotRegular (.live part))))
      | .error (.io .notFound) => regularSidecars rest
      | .error e => .ofExcept (.error e)

def moveSidecars (token : Token) : List DatabasePart → Backup Unit
  | [] => return ()
  | part :: rest => do
      Backup.mapError (rename (.live part) (.quarantined token part)) fun e =>
        .quarantine (.couldNotRetainSidecar (.live part) (ioKind e))
      touch
      moveSidecars token rest

def quarantineLiveDatabase : Backup AppPath := do
  ensureLayout
  let isFile ← Backup.mapError (symlinkMetadata .plain (.live .database)) fun e =>
    if ioKind e = .notFound then .backupNotFound else e
  Procedure.ofExcept
    (ensure (isFile = true) (.invalidPath "live database path is not a regular file"))
  let healthy ← (validateSqliteFile format .quarantineCheck (.live .database)).attempt
  Procedure.ofExcept (ensure (healthy.isOk = false) .liveDatabaseHealthy)
  let sidecars ← regularSidecars sqliteSidecars
  let token ← uniqueToken .quarantineName
  Backup.mapError (rename (.live .database) (.quarantined token .database)) fun e =>
    .quarantine (.couldNotRetainDatabase (ioKind e))
  moveSidecars token sidecars
  touch
  touch
  return .quarantined token .database

/-! ## Restore -/

/-- `install_database`, of the bytes of a file that was restored. -/
def installDatabase (source destination : AppPath) : Backup Unit := do
  let appeared ← (symlinkMetadata .plain destination).attempt
  Procedure.ofExcept (ensure (appeared.isOk = false) (.quarantine .appearedDuringRestore))
  let input ← openFile source
  openCreateNew destination
  match ← touch.attempt with
  | .error e =>
      Backup.ignore (removeFile destination)
      .ofExcept (.error e)
  | .ok () =>
      let result ← Procedure.attempt do
        copyInto (some input) (.io .other) destination
        touch
        touch
      match result with
      | .ok () => return ()
      | .error e =>
          Backup.ignore (removeFile destination)
          .ofExcept (.error e)

/-- What `restore_validated_backup` does with a live database that is there. -/
def setAside : Backup Unit := do
  match ← (symlinkMetadata .plain (.live .database)).attempt with
  | .error _ => return ()
  | .ok isFile =>
      Procedure.ofExcept
        (ensure (isFile = true) (.invalidPath "live database path is not a regular file"))
      let healthy ← (validateSqliteFile format .plain (.live .database)).attempt
      Procedure.ofExcept (ensure (healthy.isOk = false) .liveDatabaseHealthy)
      let _ ← quarantineLiveDatabase format
      return ()

/-- An installed database is checked, and removed again unless it is found intact. -/
def checkInstalled : Except BackupError Unit → Backup (Except BackupError Unit)
  | .error e => return .error e
  | .ok () => do
      match ← (validateSqliteFile format .plain (.live .database)).attempt with
      | .ok () => return .ok ()
      | .error e =>
          Backup.ignore (removeFile (.live .database))
          return .error e

/-- What `restore_validated_backup` does once no live database is in the way. -/
def installSelected (name : Name) : Backup AppPath := do
  let token ← uniqueToken .plain
  let restored := AppPath.temporary "restore" token
  let installed ← Procedure.attempt do
    decompressFile format (.backup name) restored
    validateSqliteFile format .plain restored
    installDatabase restored (.live .database)
  let result ← checkInstalled format installed
  Backup.ignore (removeFile restored)
  Procedure.ofExcept result
  return .live .database

def restoreValidatedBackup (selected : AppPath) : Backup AppPath := do
  ensureLayout
  let name ← validateSelectedBackup format selected
  setAside format
  installSelected format name

end

end SyncPlus
