/-
# AudioDown.KeyStore.Bootstrap — `load_or_create_master_key`

The program of key_store.rs, one request for each file operation.  Of the checks on file metadata those are
left out that look at the type and the owner of a file and at its access control list: nothing in the
directory changes them.  The mutex of the process is left out too; it only keeps two calls apart that the
file lock keeps apart anyway.
-/
import AudioDown.KeyStore.Disk
import AudioDown.Lib.Method

namespace AudioDown.KeyStore

inductive CredentialKeyStoreError where
  | unsafeCredentialsDirectory
  | unsafeCredentialsDirectoryPermissions
  | unsafeBootstrapLock
  | unsafePendingKeyFile
  | unsafeMasterKeyFile
  | unsafeMasterKeyPermissions
  | invalidMasterKeyLength
  | randomnessUnavailable
  | ioError
deriving DecidableEq

abbrev KeyM := ExceptT CredentialKeyStoreError FileProgram

/-- `operation.map_err(|_| error)?`. -/
def need (a : FileAct) (error : CredentialKeyStoreError) : KeyM a.Value :=
  ExceptT.mk (.act a fun
    | .ok value => .ret (.ok value)
    | .error _ => .ret (.error error))

/-- `if !condition { return Err(error) }`. -/
def ensure (condition : Bool) (error : CredentialKeyStoreError) : KeyM Unit :=
  if condition then pure () else throw error

/-! ## Checks -/

def validateCredentialsDirectory (mode : Nat) : KeyM Unit :=
  ensure (mode = credentialsDirectoryMode) .unsafeCredentialsDirectoryPermissions

def validateMasterKeyMetadata (stat : Stat) : KeyM Unit := do
  ensure (stat.nlink = 1) .unsafeMasterKeyFile
  ensure (stat.mode = masterKeyFileMode) .unsafeMasterKeyPermissions

def validateAuxiliaryFile (stat : Stat) (error : CredentialKeyStoreError) (requireSingleLink : Bool) :
    KeyM Unit :=
  ensure ((!requireSingleLink || stat.nlink = 1) && stat.mode = masterKeyFileMode) error

/-! ## The directory and the lock -/

def createCredentialsDirectory : KeyM Bool :=
  ExceptT.mk (.act .mkdir fun
    | .ok () => .ret (.ok true)
    | .error .exist => .ret (.ok false)
    | .error _ => .ret (.error .ioError))

/-- `if created { … }`. -/
def whenCreated (created : Bool) (x : KeyM Unit) : KeyM Unit := if created then x else pure ()

def openCredentialsDirectory : KeyM Unit := do
  let created ← createCredentialsDirectory
  need .openDir .unsafeCredentialsDirectory
  whenCreated created (need .chmodDir .ioError)
  let mode ← need .statDir .ioError
  validateCredentialsDirectory mode
  whenCreated created do
    need .syncDir .ioError
    need .syncData .ioError

def openLockFile : KeyM Unit :=
  ExceptT.mk (.act .createLock fun
    | .ok () => (do
        need .chmodLock .ioError
        need .syncLock .ioError
        need .syncDir .ioError : KeyM Unit).run
    | .error .exist => (need .openLock .unsafeBootstrapLock).run
    | .error _ => .ret (.error .ioError))

def validateLock : KeyM Unit := do
  let stat ← need .statLock .ioError
  validateAuxiliaryFile stat .unsafeBootstrapLock true

/-- `validate_open_entry` for the lock. -/
def validateLockEntry : KeyM Unit := do
  let path ← need .statLock .unsafeBootstrapLock
  let opened ← need .statLock .ioError
  ensure (path.ino = opened.ino) .unsafeBootstrapLock

/-- The lock is released when its descriptor goes out of scope, whatever the outcome. -/
def locked {α : Type} (body : KeyM α) : KeyM α :=
  ExceptT.mk (body.run.bind fun r => .act .unlock fun _ => .ret r)

/-! ## The key -/

def loadMasterKey : KeyM MasterKey := do
  let key ← need .openKey .unsafeMasterKeyFile
  let stat ← need (.statFile key) .ioError
  validateMasterKeyMetadata stat
  let path ← need .statKey .unsafeMasterKeyFile
  let opened ← need (.statFile key) .ioError
  ensure (path.ino = opened.ino) .unsafeMasterKeyFile
  let bytes ← need (.readFile key) .ioError
  if h : bytes.length = masterKeyBytes then pure ⟨bytes, h⟩ else throw .invalidMasterKeyLength

def cleanupPendingKey : KeyM Unit :=
  ExceptT.mk (.act .statPending fun
    | .error .noent => .ret (.ok ())
    | .error _ => .ret (.error .ioError)
    | .ok stat => (do
        validateAuxiliaryFile stat .unsafePendingKeyFile false
        need .unlinkPending .ioError
        need .syncDir .ioError : KeyM Unit).run)

def cleanupCreatedPending : KeyM Unit :=
  ExceptT.mk (.act .unlinkPending fun
    | .ok () | .error .noent => (need .syncDir .ioError).run
    | .error _ => .ret (.error .ioError))

/-- `write_all`; each round writes at least one byte, so there are no more rounds than bytes. -/
def writeAll (ino : Nat) : Nat → List UInt8 → KeyM Unit
  | _, [] => pure ()
  | 0, _ :: _ => throw .ioError
  | rounds + 1, byte :: bytes => do
      let written ← need (.write ino (byte :: bytes)) .ioError
      if written = 0 then throw .ioError else writeAll ino rounds ((byte :: bytes).drop written)

def preparePendingKey (pending : Nat) (keyBytes : MasterKey) : KeyM Unit := do
  need (.chmodFile pending) .ioError
  let stat ← need (.statFile pending) .ioError
  validateAuxiliaryFile stat .unsafePendingKeyFile true
  writeAll pending masterKeyBytes keyBytes.val
  need (.syncFile pending) .ioError
  need .syncDir .ioError

/-- `prepare_pending_key`, and the pending file removed if that fails. -/
def preparePendingOrClean (pending : Nat) (keyBytes : MasterKey) : KeyM Unit :=
  ExceptT.mk ((preparePendingKey pending keyBytes).run.bind fun
    | .ok () => .ret (.ok ())
    | .error error => (do cleanupCreatedPending; throw error : KeyM Unit).run)

def validatePublishedKey (pending : Nat) : KeyM Unit := do
  let published ← need .statKey .unsafeMasterKeyFile
  let opened ← need (.statFile pending) .ioError
  validateMasterKeyMetadata published
  ensure (published.ino = opened.ino) .unsafeMasterKeyFile

def publishKey (pending : Nat) (keyBytes : MasterKey) : KeyM MasterKey :=
  ExceptT.mk (.act .linkKey fun
    | .ok () => (do
        need .unlinkPending .ioError
        need .syncDir .ioError
        validatePublishedKey pending
        pure keyBytes : KeyM MasterKey).run
    | .error .exist => (do
        cleanupCreatedPending
        need .syncDir .ioError
        loadMasterKey : KeyM MasterKey).run
    | .error _ => (do
        cleanupCreatedPending
        throw .ioError : KeyM MasterKey).run)

def createMasterKey : KeyM MasterKey := do
  let keyBytes ← need .fillBytes .randomnessUnavailable
  let pending ← need .createPending .ioError
  preparePendingOrClean pending keyBytes
  publishKey pending keyBytes

def findMasterKey : KeyM MasterKey :=
  ExceptT.mk (.act .statKey fun
    | .ok _ => (do
        need .syncDir .ioError
        loadMasterKey : KeyM MasterKey).run
    | .error .noent => createMasterKey.run
    | .error _ => .ret (.error .ioError))

def underLock : KeyM MasterKey := do
  validateLock
  validateLockEntry
  cleanupPendingKey
  findMasterKey

def loadOrCreateMasterKey : KeyM MasterKey := do
  openCredentialsDirectory
  openLockFile
  validateLock
  need .flock .ioError
  locked underLock

end AudioDown.KeyStore
