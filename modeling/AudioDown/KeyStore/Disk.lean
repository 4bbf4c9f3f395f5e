/-
# AudioDown.KeyStore.Disk — the directory of the master key, and what a power loss leaves of it

The key lives in a directory of its own below the data directory.  Three names are used there: the
bootstrap lock, the pending key and the key.  The last two are hard links, possibly to one file.

A file operation acts on what the system shows.  What is on disk lags behind: an entry of a directory is
durable once the directory has been synced, the contents of a file once the file has been synced.  After a
power loss (`Dir.lose`) an entry that was not durable may be there or not, and a file that was not synced
may hold anything.  The operations here succeed or fail as a whole; a write may be short.
-/
import AudioDown.Lib.Prog
import Mathlib.Data.Option.Basic

namespace AudioDown.KeyStore

open Lib

/-! ## Files and entries -/

def masterKeyBytes : Nat := 32

def credentialsDirectoryMode : Nat := 0o700

def masterKeyFileMode : Nat := 0o600

abbrev MasterKey := { bytes : List UInt8 // bytes.length = masterKeyBytes }

structure File where
  content : List UInt8
  /-- what it holds is on disk -/
  synced : Bool

/-- The files and the links to them; a file is known by its inode number. -/
structure Links where
  pending : Option Nat
  key : Option Nat
  files : Nat → File
  /-- the inode number of the next file -/
  fresh : Nat

structure Dir where
  mode : Nat
  lockFile : Bool
  links : Links
  /-- the entry of the key is on disk -/
  keySynced : Bool

/-- The data directory: the credentials directory below it, and whether its entry is on disk. -/
structure Disk where
  dir : Option Dir
  entrySynced : Bool

/-- What `fstat` and `statat` tell. -/
structure Stat where
  mode : Nat
  nlink : Nat
  ino : Nat
deriving DecidableEq

def Links.nlink (l : Links) (ino : Nat) : Nat :=
  (if l.pending = some ino then 1 else 0) + (if l.key = some ino then 1 else 0)

def Links.stat (l : Links) (ino : Nat) : Stat := ⟨masterKeyFileMode, l.nlink ino, ino⟩

/-! ## File operations -/

inductive Errno where
  | exist
  | noent
  | other
deriving DecidableEq

inductive FileAct where
  | mkdir
  | openDir
  | chmodDir
  | statDir
  | syncDir
  | syncData
  | createLock
  | openLock
  | chmodLock
  | syncLock
  | statLock
  | flock
  | unlock
  | statPending
  | unlinkPending
  | statKey
  | openKey
  | linkKey
  | fillBytes
  | createPending
  | chmodFile (ino : Nat)
  | statFile (ino : Nat)
  | write (ino : Nat) (bytes : List UInt8)
  | syncFile (ino : Nat)
  | readFile (ino : Nat)

/-- What an operation returns when it succeeds. -/
abbrev FileAct.Value : FileAct → Type
  | .statDir | .write .. | .openKey | .createPending => Nat
  | .statLock | .statPending | .statKey | .statFile _ => Stat
  | .fillBytes => MasterKey
  | .readFile _ => List UInt8
  | _ => Unit

abbrev FileAct.Resp (a : FileAct) : Type := Except Errno a.Value

abbrev FileProgram := Prog FileAct FileAct.Resp

/-- How the environment meets an operation: it may fail, a write transfers some of the bytes, and the
random number generator gives a key. -/
structure FileChoice where
  failed : Bool
  /-- one less than the bytes a `write` takes -/
  short : Nat
  random : MasterKey

def Links.exec (c : FileChoice) : (a : FileAct) → Links → a.Resp × Links
  | .statPending, l =>
      match l.pending with
      | none => (.error .noent, l)
      | some ino => (.ok (l.stat ino), l)
  | .unlinkPending, l =>
      match l.pending with
      | none => (.error .noent, l)
      | some _ => (.ok (), { l with pending := none })
  | .statKey, l =>
      match l.key with
      | none => (.error .noent, l)
      | some ino => (.ok (l.stat ino), l)
  | .openKey, l =>
      match l.key with
      | none => (.error .noent, l)
      | some ino => (.ok ino, l)
  | .linkKey, l =>
      match l.pending, l.key with
      | none, _ => (.error .noent, l)
      | some _, some _ => (.error .exist, l)
      | some ino, none => (.ok (), { l with key := some ino })
  | .fillBytes, l => (.ok c.random, l)
  | .createPending, l =>
      match l.pending with
      | some _ => (.error .exist, l)
      | none => (.ok l.fresh, { l with
          pending := some l.fresh
          files := Function.update l.files l.fresh ⟨[], false⟩
          fresh := l.fresh + 1 })
  | .chmodFile _, l => (.ok (), l)
  | .statFile ino, l => (.ok (l.stat ino), l)
  | .write ino bytes, l =>
      (.ok (min (c.short + 1) bytes.length), { l with
        files := Function.update l.files ino ⟨(l.files ino).content ++ bytes.take (c.short + 1), false⟩ })
  | .syncFile ino, l =>
      (.ok (), { l with files := Function.update l.files ino ⟨(l.files ino).content, true⟩ })
  | .readFile ino, l => (.ok (l.files ino).content, l)
  -- the operations on the directory itself and on the lock are below
  | _, l => (.error .other, l)

def Dir.exec (c : FileChoice) : (a : FileAct) → Dir → a.Resp × Dir
  | .openDir, d => (.ok (), d)
  | .chmodDir, d => (.ok (), { d with mode := credentialsDirectoryMode })
  | .statDir, d => (.ok d.mode, d)
  | .syncDir, d => (.ok (), { d with keySynced := d.links.key.isSome })
  | .createLock, d =>
      if d.lockFile then (.error .exist, d) else (.ok (), { d with lockFile := true })
  | .openLock, d => if d.lockFile then (.ok (), d) else (.error .noent, d)
  | .chmodLock, d | .syncLock, d => (.ok (), d)
  -- there is one lock file, and nothing removes it
  | .statLock, d => if d.lockFile then (.ok ⟨masterKeyFileMode, 1, 0⟩, d) else (.error .noent, d)
  | .linkKey, d =>
      ((d.links.exec c .linkKey).1, { d with
        links := (d.links.exec c .linkKey).2
        keySynced := d.keySynced && d.links.key.isSome })
  | a, d => ((d.links.exec c a).1, { d with links := (d.links.exec c a).2 })

/-! ## The machine -/

/-- What the processes share: the disk, and who holds the lock (`flock`). -/
structure Machine where
  disk : Disk
  holder : Option Nat

/-- An empty file number, for the files nobody has created. -/
def noFile : File := ⟨[], false⟩

def Dir.new (inherited : Nat) : Dir :=
  ⟨credentialsDirectoryMode + inherited, false, ⟨none, none, fun _ => noFile, 0⟩, false⟩

/-- Operation `a` of call `i`, when it does not fail.  Closing the lock's descriptor releases it; `flock`
is only taken while nobody holds the lock. -/
def Machine.perform (inherited i : Nat) (c : FileChoice) : (a : FileAct) → Machine → a.Resp × Machine
  | .mkdir, m =>
      match m.disk.dir with
      | some _ => (.error .exist, m)
      | none => (.ok (), { m with disk := ⟨some (Dir.new inherited), false⟩ })
  | .syncData, m => (.ok (), { m with disk.entrySynced := m.disk.dir.isSome })
  | .flock, m => (.ok (), { m with holder := some i })
  | .unlock, m => (.ok (), { m with holder := none })
  | a, m =>
      match m.disk.dir with
      | none => (.error .noent, m)
      | some d => ((d.exec c a).1, { m with disk.dir := some (d.exec c a).2 })

/-- The meaning of an operation of call `i`. -/
def fileStep (inherited i : Nat) : Semantics FileAct FileAct.Resp FileChoice Machine
  | .unlock, c, m => m.perform inherited i c .unlock
  | a, c, m => if c.failed then (.error .other, m) else m.perform inherited i c a

/-! ## Power loss -/

/-- What happens to be on disk besides what was synced.  For the lock file and the pending key anything is
allowed, synced or not. -/
structure Loss where
  /-- the credentials directory -/
  dir : Bool
  /-- the mode the directory was created with, and not the one set later -/
  oldMode : Bool
  lockFile : Bool
  /-- the pending key: any file there has been, or none -/
  pending : Option Nat
  /-- the entry of the key -/
  key : Bool
  /-- the contents of the files that were not synced -/
  content : Nat → List UInt8

def Links.lose (loss : Loss) (keySynced : Bool) (l : Links) : Links where
  pending := loss.pending.filter (· < l.fresh)
  key := if keySynced || loss.key then l.key else none
  files := fun ino => if (l.files ino).synced then l.files ino else ⟨loss.content ino, false⟩
  fresh := l.fresh

def Dir.lose (inherited : Nat) (loss : Loss) (d : Dir) : Dir where
  mode := if loss.oldMode then credentialsDirectoryMode + inherited else d.mode
  lockFile := loss.lockFile
  links := d.links.lose loss d.keySynced
  keySynced := (d.links.lose loss d.keySynced).key.isSome

def Disk.lose (inherited : Nat) (loss : Loss) (disk : Disk) : Disk :=
  if disk.entrySynced || loss.dir then ⟨disk.dir.map (Dir.lose inherited loss), disk.dir.isSome⟩
  else ⟨none, false⟩

end AudioDown.KeyStore
