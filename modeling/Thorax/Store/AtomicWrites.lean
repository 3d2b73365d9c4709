import Thorax.Library.FileSystem
import Thorax.Store.Access

/-!
# Writing files through the file system

How the store changes its files, call by call: a new content is written to a temporary file beside
the old one, synced, and put in its place; then the directory is synced.
-/

namespace Thorax

open FileSystem Remote

/-- The files at some paths, and the temporary files beside them. -/
inductive FileName (P : Type) where
  | file (path : P)
  | temporary (path : P) (random : ℕ)
  deriving DecidableEq

abbrev FileCall (P : Type) := Call (FileName P) UInt8

/-- A call that failed, by the file it was for. -/
abbrev FileError (P : Type) := FileName P × ErrorKind

abbrev FileProgram (P α : Type) := Program (FileCall P) Call.Reply (FileError P) α

variable {P : Type}

namespace FileProgram

/-- A call whose failure ends the program. -/
def request (name : FileName P) (call : FileCall P) : FileProgram P call.Answer := do
  .lift ((← Program.ask call).mapError (name, ·))

/-- Try to remove a file, and end with an error. -/
def discard {α : Type} (temporary : FileName P) (error : FileError P) : FileProgram P α := do
  let _ ← Program.ask (.removeFile temporary)
  .fail error

end FileProgram

open FileProgram

def temporaryPathFor (path : P) (random : ℕ) : FileName P := .temporary path random

def createDirAll (path : FileName P) : FileProgram P Unit := request path (.createDirAll path)

/-- The directory of a file is made, and closed to others. -/
def createPrivateDirAll (path : FileName P) : FileProgram P Unit := do
  createDirAll path
  request path (.setPermissions path)

def syncParentDirectory (path : FileName P) : FileProgram P Unit := request path (.syncParent path)

/-- A rename that gives up where it fails. -/
def renameOver (source destination : FileName P) : FileProgram P Unit := do
  match ← Program.ask (.rename source destination) with
  | .ok _ => pure ()
  | .error kind => discard source (destination, kind)

def replaceFile (source destination : FileName P) : FileProgram P Unit := do
  match ← Program.ask (.rename source destination) with
  | .ok _ => pure ()
  -- where a rename does not replace its destination, the destination is removed first
  | .error .alreadyExists =>
    request destination (.removeFile destination)
    renameOver source destination
  | .error kind => discard source (destination, kind)

/-- A call on the temporary file, which is removed where the call fails. -/
def requestOrDiscard (temporary : FileName P) (call : FileCall P) : FileProgram P Unit := do
  match ← Program.ask call with
  | .ok _ => pure ()
  | .error kind => discard temporary (temporary, kind)

/-- Write a file beside its path, sync it and put it in its place. -/
def writeThroughTemporary (prepare finish : FileProgram P Unit) (path : P) (random : ℕ)
    (bytes : Bytes) : FileProgram P Unit := do
  prepare
  let temporary := temporaryPathFor path random
  let file ← request temporary (.createNew temporary)
  requestOrDiscard temporary (.writeAll file bytes)
  requestOrDiscard temporary (.syncAll file)
  replaceFile temporary (.file path)
  finish
  syncParentDirectory (.file path)

def writeAtomic (path : P) (random : ℕ) (bytes : Bytes) : FileProgram P Unit :=
  writeThroughTemporary (createDirAll (.file path)) (pure ()) path random bytes

def writePrivateAtomicInner (path : P) (random : ℕ) (bytes : Bytes)
    (privateParent : Bool) : FileProgram P Unit :=
  writeThroughTemporary
    (if privateParent then createPrivateDirAll (.file path) else createDirAll (.file path))
    (request (.file path) (.setPermissions (.file path))) path random bytes

def writePrivateAtomic (path : P) (random : ℕ) (bytes : Bytes) : FileProgram P Unit :=
  writePrivateAtomicInner path random bytes true

/-- Give a file its name, which must be free, and drop the temporary one. -/
def linkTemporary (temporary destination : FileName P) : FileProgram P Unit := do
  match ← Program.ask (.hardLink temporary destination) with
  | .error kind => discard temporary (destination, kind)
  | .ok _ =>
    request temporary (.removeFile temporary)
    syncParentDirectory destination

/-- Unless it is forced, a file that exists is not replaced. -/
def writePrivateOutput (path : P) (random : ℕ) (bytes : Bytes) (force : Bool) :
    FileProgram P Unit :=
  if force then writePrivateAtomicInner path random bytes false
  else do
    createDirAll (.file path)
    let temporary := temporaryPathFor path random
    let file ← request temporary (.createNew temporary)
    request temporary (.writeAll file bytes)
    request temporary (.syncAll file)
    linkTemporary temporary (.file path)

def removeFileDurable (path : P) : FileProgram P Unit := do
  match ← Program.ask (.removeFile (.file path)) with
  | .ok _ => syncParentDirectory (.file path)
  | .error .notFound => pure ()
  | .error kind => .fail (.file path, kind)

end Thorax
