/-
  Delivery/ApplyEntry.lean --- `apply_entry` of `localityd/src/generation_sync.rs`, with
  the algorithms that it applies an entry of a delta with.

  An entry that changes a file moves it to a name of its own next to it, the preimage,
  and publishes the new file under the name that is now free.  A payload is staged before,
  and a merge base is the payload of an earlier delta: they are values here.
-/
import Locality.Core.Conflict
import Locality.Delivery.MountTree
import Locality.Delivery.Records

set_option autoImplicit false

namespace Locality.Delivery

open Locality.Core Locality.Foundation Locality.Protocol

/-! ## Errors and results -/

/-- The errors of applying an entry. -/
inductive ApplyError where
  | mount (error : MountError)
  | contentMismatch (contentVersionId : Text)
  | concurrentMutation
  | contract (message : Text)
  deriving DecidableEq, Repr

abbrev EntryProgram : Type → Type := Program MountOp MountOp.Answer ApplyError

/-- One operation on the files below the mount. -/
def EntryProgram.call (op : MountOp) : EntryProgram op.Answer := Program.perform op

def EntryProgram.ofMount {α : Type} (result : Except MountError α) : EntryProgram α :=
  .ofExcept (result.mapError .mount)

/-- The outcome of an entry, whether the tree was changed for it, and the digest and the
length of the file that a merge displaced. -/
structure EntryResult where
  outcome : GenerationApplyOutcome
  mutated : Bool
  displacedInodeFingerprint : Option (Text × Nat)
  deriving DecidableEq, Repr

def EntryResult.of (outcome : GenerationApplyOutcome) (mutated : Bool) : EntryResult :=
  ⟨outcome, mutated, none⟩

/-! ## Targets -/

/-- A name in a directory that was opened. -/
structure SecureTarget where
  parent : MountPath
  name : Text
  deriving DecidableEq, Repr

namespace SecureTarget

variable (self : SecureTarget)

def path : MountPath := self.parent ++ [self.name]

/-! ### Operations in the directory -/

def tryOpen (name : Text) : EntryProgram (Except MountError (Option (List UInt8))) :=
  EntryProgram.call (.openNamed self.parent name)

def tryRename (source target : Text) : EntryProgram (Except MountError Unit) :=
  EntryProgram.call (.rename self.parent source target)

def tryCreate (name : Text) : EntryProgram (Except MountError Unit) :=
  EntryProgram.call (.createNamed self.parent name)

def tryWrite (name : Text) (byte : UInt8) : EntryProgram (Except MountError Unit) :=
  EntryProgram.call (.write self.parent name byte)

def tryLink (source target : Text) : EntryProgram (Except MountError Unit) :=
  EntryProgram.call (.link self.parent source target)

def removeNamed (name : Text) : EntryProgram (Except MountError Unit) :=
  EntryProgram.call (.unlink self.parent name)

/-! ### What an apply asks for -/

def openNamed (name : Text) : EntryProgram (Option (List UInt8)) := do
  EntryProgram.ofMount (← self.tryOpen name)

def openCurrent : EntryProgram (Option (List UInt8)) := self.openNamed self.name

def moveCurrentTo (name : Text) : EntryProgram (Except MountError Unit) :=
  self.tryRename self.name name

def restoreNamed (name : Text) : EntryProgram Unit := do
  EntryProgram.ofMount (← self.tryRename name self.name)

def createNamed (name : Text) : EntryProgram Unit := do
  EntryProgram.ofMount (← self.tryCreate name)

/-- `write_all` to a file that was created. -/
def writeAll (name : Text) : List UInt8 → EntryProgram Unit
  | [] => pure ()
  | byte :: bytes => do
      EntryProgram.ofMount (← self.tryWrite name byte)
      writeAll name bytes

/-- `publish_named`: a link under the name of the target, in the place of the temporary. -/
def publishNamed (temporary : Text) : EntryProgram (Except MountError Unit) := do
  match ← self.tryLink temporary self.name with
  | .error error => return .error error
  | .ok _ => self.removeNamed temporary

end SecureTarget

def openChildDirectory (opened : MountPath) (name : Text) :
    EntryProgram (Except MountError Unit) :=
  EntryProgram.call (.openChildDirectory opened name)

/-- The parents of a target, opened from the root on. -/
def openParents (opened : MountPath) : MountPath → EntryProgram Unit
  | [] => pure ()
  | name :: names => do
      EntryProgram.ofMount (← openChildDirectory opened name)
      openParents (opened ++ [name]) names

def LogicalPath.target (path : LogicalPath) : SecureTarget :=
  let components := splitSlash path.value
  ⟨components.dropLast, components.getLastD []⟩

/-- `SecureMount::target`, which makes the parents that are missing. -/
def openTarget (path : LogicalPath) : EntryProgram SecureTarget := do
  let target := LogicalPath.target path
  openParents [] target.parent
  return target

def callHook (point : ApplyHook) : EntryProgram Unit := EntryProgram.call (.hook point)

/-! ## Files -/

/-- `str::from_utf8`. -/
def fromUtf8 (bytes : List UInt8) : Option Text :=
  (bytes.toByteArray.utf8Decode?).map Array.toList

structure GenerationMergeBase where
  /-- The payload, where it exists. -/
  payload : Option (List UInt8)
  identity : GenerationFileIdentity
  deriving DecidableEq, Repr

/-- What an entry is applied with. -/
structure EntryCall where
  codec : Codec
  deltaId : Text
  index : Nat
  /-- The payload of the entry, where it exists. -/
  payload : Option (List UInt8)
  mergeBase : Option GenerationMergeBase

namespace EntryCall

variable (self : EntryCall)

def digest (bytes : List UInt8) : Text := sha256Label self.codec.sha256 bytes

def shortSafeId : Text :=
  ((self.codec.sha256 (asBytes self.deltaId)).flatMap hexByte).take 16

def localName (suffix : String) : Text :=
  ".locality-generation-".toList ++ self.shortSafeId ++ ['-'] ++
    (toString self.index).toList ++ suffix.toList

def preimageName : Text := self.localName ".preimage"

def temporaryName : Text := self.localName ".tmp"

def mergeName : Text := self.localName ".merge"

def verifyOpenFile (bytes : List UInt8) (identity : GenerationFileIdentity) :
    Except ApplyError Unit :=
  if bytes.length ≠ identity.byteLength.toNat then
    throw (.contentMismatch identity.contentVersionId.value)
  else if self.digest bytes = identity.contentSha256 then pure ()
  else throw (.contentMismatch identity.contentVersionId.value)

/-- `verify_file`, and the bytes of the file. -/
def verifyFile (payload : Option (List UInt8)) (identity : GenerationFileIdentity) :
    Except ApplyError (List UInt8) :=
  match payload with
  | none => throw (.mount .notFound)
  | some bytes => do
      self.verifyOpenFile bytes identity
      return bytes

def readBoundedFile (bytes : List UInt8) : Except ApplyError (List UInt8) :=
  if maxGenerationFileBytes < bytes.length then
    throw (.contract "local merge candidate exceeds generation file byte limit".toList)
  else pure bytes

def digestTarget (target : SecureTarget) : EntryProgram (Option Text) := do
  let current ← target.openCurrent
  return current.map self.digest

/-- What a file that is open under a name holds now. -/
def digestOpenFileHandle (target : SecureTarget) (name : Text) : EntryProgram Text := do
  match ← target.openNamed name with
  | some bytes => return self.digest bytes
  | none => .fail (.mount .notFound)

/-! ## Publishing -/

inductive PublishResult where
  | published
  | occupied
  deriving DecidableEq, Repr

/-- The payload was verified, so that all of it is copied. -/
def publishPayload (target : SecureTarget) (identity : GenerationFileIdentity) :
    EntryProgram PublishResult := do
  let payload ← .ofExcept (self.verifyFile self.payload identity)
  match ← target.openNamed self.temporaryName with
  | none => pure ()
  | some bytes =>
      match self.verifyOpenFile bytes identity with
      | .ok _ => pure ()
      | .error _ => do
          EntryProgram.ofMount (← target.removeNamed self.temporaryName)
  match ← target.openNamed self.temporaryName with
  | some _ => pure ()
  | none => do
      target.createNamed self.temporaryName
      target.writeAll self.temporaryName payload
  match ← target.publishNamed self.temporaryName with
  | .ok _ => return .published
  | .error .alreadyExists => do
      let _ ← target.removeNamed self.temporaryName
      return .occupied
  | .error error => .fail (.mount error)

def publishLocalBytes (target : SecureTarget) (bytes : List UInt8) : EntryProgram Unit := do
  match ← target.openNamed self.mergeName with
  | none => pure ()
  | some _ => do
      EntryProgram.ofMount (← target.removeNamed self.mergeName)
  target.createNamed self.mergeName
  target.writeAll self.mergeName bytes
  EntryProgram.ofMount (← target.publishNamed self.mergeName)

/-! ## Renames -/

def conflictOutcome (target : SecureTarget) (incoming : Option GenerationFileIdentity) :
    EntryProgram EntryResult := do
  let localSha256 ← self.digestTarget target
  return .of (.conflict localSha256 incoming) false

/-- The preimage goes back to the target, unless there is a file again. -/
def restoreIfAbsent (target : SecureTarget) : EntryProgram Unit := do
  match ← self.digestTarget target with
  | none => target.restoreNamed self.preimageName
  | some _ => pure ()

/-- `apply_fenced_rename`, with the number of attempts that are left. -/
def applyFencedRename (source destination : SecureTarget) (old new : GenerationFileIdentity) :
    Nat → EntryProgram EntryResult
  | 0 => .fail .concurrentMutation
  | attempts + 1 => do
      let destinationDigest ← self.digestTarget destination
      if destinationDigest.any fun digest => decide (digest ≠ new.contentSha256) then
        self.conflictOutcome source (some new)
      else
        match ← source.openNamed self.preimageName with
        | some evidence =>
            if self.digest evidence ≠ old.contentSha256 then
              self.conflictOutcome source (some new)
            else do
              callHook .afterPreimageVerified
              let verified ← self.digestOpenFileHandle source self.preimageName
              if verified ≠ old.contentSha256 then do
                self.restoreIfAbsent source
                self.conflictOutcome source (some new)
              else do
                callHook .afterPreimageReverified
                let reverified ← self.digestOpenFileHandle source self.preimageName
                if reverified ≠ old.contentSha256 then do
                  self.restoreIfAbsent source
                  self.conflictOutcome source (some new)
                else
                  match destinationDigest with
                  | some _ => return .of .applied true
                  | none =>
                      match ← self.publishPayload destination new with
                      | .published => return .of .applied true
                      | .occupied => applyFencedRename source destination old new attempts
        | none =>
            let actual ← self.digestTarget source
            if actual = some old.contentSha256 then do
              EntryProgram.ofMount (← source.moveCurrentTo self.preimageName)
              callHook .afterPreimageMove
              applyFencedRename source destination old new attempts
            else if actual = none ∧ destinationDigest = some new.contentSha256 then
              return .of .applied false
            else self.conflictOutcome source (some new)

/-! ## Three-way updates -/

/-- The file that a merge takes for the local one: the preimage, where a merge displaced
it before, or the current one, unless it is the old or the new content. -/
def localCandidate (target : SecureTarget) (old new : GenerationFileIdentity) :
    EntryProgram (Option (List UInt8 × Bool)) := do
  let retained ← target.openNamed self.preimageName
  let retained ← .ofExcept (retained.mapM readBoundedFile)
  match retained.filter fun bytes => decide (self.digest bytes ≠ old.contentSha256) with
  | some bytes => return some (bytes, true)
  | none =>
      match ← target.openCurrent with
      | none => return none
      | some bytes => do
          let bytes ← .ofExcept (readBoundedFile bytes)
          if self.digest bytes = old.contentSha256 ∨ self.digest bytes = new.contentSha256 then
            return none
          else return some (bytes, false)

/-- The clean merge of three files that are texts. -/
def mergedBytes (base localBytes incoming : List UInt8) : Option (List UInt8) := do
  let base ← fromUtf8 base
  let localText ← fromUtf8 localBytes
  let incoming ← fromUtf8 incoming
  match mergeTextWithBase base localText incoming with
  | .clean merged => some (asBytes merged)
  | .conflict _ => none

/-- `apply_three_way_update`; nothing where the fenced update is to be made. -/
def applyThreeWayUpdate (target : SecureTarget) (mergeBase : GenerationMergeBase)
    (old new : GenerationFileIdentity) : EntryProgram (Option EntryResult) := do
  let base ← .ofExcept (self.verifyFile mergeBase.payload mergeBase.identity)
  let incoming ← .ofExcept (self.verifyFile self.payload new)
  match ← self.localCandidate target old new with
  | none => return none
  | some (localBytes, alreadyDisplaced) =>
      match mergedBytes base localBytes incoming with
      | none => return none
      | some merged =>
          let localSha256 := self.digest localBytes
          let fingerprint := some (localSha256, localBytes.length)
          let current ← if alreadyDisplaced then target.openCurrent else pure none
          match current with
          | some current =>
              -- at most the bytes of the limit are read
              let currentBytes ← .ofExcept (readBoundedFile current)
              if currentBytes = merged then return some ⟨.merged, false, fingerprint⟩
              else return none
          | none => do
              if alreadyDisplaced then pure ()
              else
                EntryProgram.ofMount (← target.moveCurrentTo self.preimageName)
                callHook .afterPreimageMove
              match ← target.openNamed self.preimageName with
              | none => .fail .concurrentMutation
              | some evidence =>
                  if self.digest evidence ≠ localSha256 then
                    match ← target.openCurrent with
                    | none => do
                        target.restoreNamed self.preimageName
                        -- the open file is the one that was put back
                        let restored ← self.digestOpenFileHandle target target.name
                        return some (.of (.conflict (some restored) (some new)) true)
                    | some _ => do
                        let evidence ← self.digestOpenFileHandle target self.preimageName
                        return some (.of (.conflict (some evidence) (some new)) true)
                  else do
                    self.publishLocalBytes target merged
                    return some ⟨.merged, true, fingerprint⟩

/-! ## Updates -/

/-- The preimage was written to behind its digest: it goes back, in the place of the new
content. -/
def undoUpdate (target : SecureTarget) (digest : Text) (new : GenerationFileIdentity) :
    EntryProgram EntryResult := do
  match ← self.digestTarget target with
  | some current =>
      if current = new.contentSha256 then
        EntryProgram.ofMount (← target.removeNamed target.name)
      else .fail .concurrentMutation
  | none => pure ()
  target.restoreNamed self.preimageName
  return .of (.conflict (some digest) (some new)) true

/-- `apply_fenced_update`, with the number of attempts that are left. -/
def applyFencedUpdate (target : SecureTarget) (old new : GenerationFileIdentity) :
    Nat → EntryProgram EntryResult
  | 0 => .fail .concurrentMutation
  | attempts + 1 => do
      match ← target.openNamed self.preimageName with
      | some preimage =>
          let preimageDigest := self.digest preimage
          if preimageDigest ≠ old.contentSha256 then
            match ← self.digestTarget target with
            | none => do
                target.restoreNamed self.preimageName
                return .of (.conflict (some preimageDigest) (some new)) true
            | some _ => .fail .concurrentMutation
          else do
            callHook .afterPreimageVerified
            let verifiedDigest ← self.digestOpenFileHandle target self.preimageName
            if verifiedDigest ≠ old.contentSha256 then self.undoUpdate target verifiedDigest new
            else do
              callHook .afterPreimageReverified
              let finalDigest ← self.digestOpenFileHandle target self.preimageName
              if finalDigest ≠ old.contentSha256 then self.undoUpdate target finalDigest new
              else
                match ← self.digestTarget target with
                | some actual =>
                    if actual = new.contentSha256 then return .of .applied true
                    else return .of (.conflict (some actual) (some new)) true
                | none =>
                    match ← self.publishPayload target new with
                    | .published => return .of .applied true
                    | .occupied => applyFencedUpdate target old new attempts
      | none =>
          match ← self.digestTarget target with
          | none => return .of (.conflict none (some new)) false
          | some actual =>
              if actual = new.contentSha256 then return .of .applied false
              else if actual = old.contentSha256 then
                match ← target.moveCurrentTo self.preimageName with
                | .ok _ => do
                    callHook .afterPreimageMove
                    applyFencedUpdate target old new attempts
                | .error .alreadyExists => applyFencedUpdate target old new attempts
                | .error error => .fail (.mount error)
              else return .of (.conflict (some actual) (some new)) false

/-! ## Deletes -/

/-- The preimage was written to behind its digest: it goes back. -/
def undoDelete (target : SecureTarget) (digest : Text) : EntryProgram EntryResult := do
  match ← self.digestTarget target with
  | some _ => .fail .concurrentMutation
  | none => do
      target.restoreNamed self.preimageName
      return .of (.conflict (some digest) none) true

/-- `apply_fenced_delete`, with the number of attempts that are left. -/
def applyFencedDelete (target : SecureTarget) (old : GenerationFileIdentity) :
    Nat → EntryProgram EntryResult
  | 0 => .fail .concurrentMutation
  | attempts + 1 => do
      match ← target.openNamed self.preimageName with
      | some preimage =>
          let preimageDigest := self.digest preimage
          if preimageDigest ≠ old.contentSha256 then self.undoDelete target preimageDigest
          else do
            callHook .afterPreimageVerified
            let verifiedDigest ← self.digestOpenFileHandle target self.preimageName
            if verifiedDigest ≠ old.contentSha256 then self.undoDelete target verifiedDigest
            else do
              callHook .afterPreimageReverified
              let finalDigest ← self.digestOpenFileHandle target self.preimageName
              if finalDigest ≠ old.contentSha256 then self.undoDelete target finalDigest
              else
                match ← self.digestTarget target with
                | none => return .of .deleted true
                | some actual => return .of (.conflict (some actual) none) true
      | none =>
          match ← self.digestTarget target with
          | none => return .of .deleted false
          | some actual =>
              if actual = old.contentSha256 then
                match ← target.moveCurrentTo self.preimageName with
                | .ok _ => do
                    callHook .afterPreimageMove
                    applyFencedDelete target old attempts
                | .error .alreadyExists => applyFencedDelete target old attempts
                | .error error => .fail (.mount error)
              else return .of (.conflict (some actual) none) false

/-! ## Entries -/

/-- The number of attempts of a fenced algorithm. -/
def maxAttempts : Nat := 8

/-- `apply_three_way_update` where there is a base, and else `apply_fenced_update`. -/
def applyUpdate (target : SecureTarget) (old new : GenerationFileIdentity) :
    EntryProgram EntryResult := do
  let merged ← match self.mergeBase with
    | some base => self.applyThreeWayUpdate target base old new
    | none => pure none
  match merged with
  | some result => return result
  | none => self.applyFencedUpdate target old new maxAttempts

def applyCreate (target : SecureTarget) (new : GenerationFileIdentity) :
    EntryProgram EntryResult := do
  match ← self.digestTarget target with
  | none =>
      match ← self.publishPayload target new with
      | .published => return .of .applied true
      | .occupied => self.conflictOutcome target (some new)
  | some actual =>
      if actual = new.contentSha256 then return .of .applied false
      else return .of (.conflict (some actual) (some new)) false

/-- The path that an entry finds its file at. -/
def localPath (existingPath : Option GenerationPathRecord) (old : GenerationFileIdentity) :
    LogicalPath :=
  (existingPath.map GenerationPathRecord.localLogicalPath).getD old.logicalPath

def applyEntry (entry : GenerationDeltaEntry) (existingPath : Option GenerationPathRecord) :
    EntryProgram EntryResult :=
  match entry.old, entry.new with
  | some old, some new =>
      let sourcePath := localPath existingPath old
      if old.logicalPath ≠ new.logicalPath then do
        let source ← openTarget sourcePath
        let destination ← openTarget new.logicalPath
        callHook .afterTargetOpen
        if sourcePath = new.logicalPath then self.applyUpdate source old new
        else self.applyFencedRename source destination old new maxAttempts
      else do
        let target ← openTarget sourcePath
        callHook .afterTargetOpen
        self.applyUpdate target old new
  | none, some new => do
      let target ← openTarget new.logicalPath
      callHook .afterTargetOpen
      self.applyCreate target new
  | some old, none => do
      let target ← openTarget (localPath existingPath old)
      callHook .afterTargetOpen
      self.applyFencedDelete target old maxAttempts
  | none, none => .fail (.contract "delta entry has no identity".toList)

end EntryCall

end Locality.Delivery
