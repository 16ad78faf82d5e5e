import CheckpointRestore.Lib.Pool
import CheckpointRestore.Pinning.Pin
import CheckpointRestore.Retention.Policy

namespace CheckpointRestore.Retention

open Go Interaction Pinning

/-!
# What the operator asks of the node and the cluster

The operations of the garbage collector and of pinning.  A section under `podRestorePinMu` is
one operation; its effect is that of a run of the section's program over the file system.

* `GcOp`, `gcSig` — the operations;
* `GcOp.act` — their answers and effects, on a shared file system: file calls may fail, an
  archive's identity may be unreadable at any time, `sort.Slice` returns some permutation or
  panics in its comparison, and API lookups and policy snapshots are arbitrary.
-/

/-! ### Archives by their names -/

/-- A checkpoint archive by its name. -/
def IsArchive (path : String) : Prop := ".tar".toList <:+ path.toList

instance (path : String) : Decidable (IsArchive path) :=
  inferInstanceAs (Decidable (".tar".toList <:+ path.toList))

/-- An archive's name does not end like `path ++ suffix` if the last characters differ. -/
theorem IsArchive.ne_append {archive suffix : String} {c : Char} (h : IsArchive archive)
    (hlast : suffix.toList.getLast? = some c) (hc : c ≠ 'r') (path : String) :
    archive ≠ path ++ suffix := by
  rintro rfl
  obtain ⟨pre, hpre⟩ := h
  have heq := congrArg List.getLast? hpre
  have htar : ".tar".toList.getLast? = some 'r' := rfl
  rw [String.toList_append, List.getLast?_append, List.getLast?_append, htar, hlast,
    Option.some_or, Option.some_or] at heq
  exact hc (Option.some.inj heq).symm

theorem IsArchive.ne_keepPath {archive : String} (h : IsArchive archive) (path : String) :
    archive ≠ keepPath path :=
  h.ne_append (c := 'p') rfl (by decide) path

theorem IsArchive.ne_tmpPath {archive : String} (h : IsArchive archive) (path : String) :
    archive ≠ tmpPath path :=
  h.ne_append (c := 'p') rfl (by decide) path

/-! ### Operations -/

/-- The operations. -/
inductive GcOp where
  | stat (path : String)
  | glob (pattern : String)
  | readRef (archive : String)
  | getPod (ns pod : String)
  | getNamespace (ns : String)
  | sortSlice (archives : List String)
  | rangeMap (keys : List String)
  | currentPolicySnapshot
  | removeUnlessPinned (archive : String)
  | pin (path owner : String)
  | unpin (path owner : String)

/-- The answers to an API lookup; only `NotFound` is told apart from other errors. -/
inductive ApiReply (α : Type) where
  | found (a : α)
  | notFound
  | failed (msg : String)
  deriving DecidableEq

/-- The operations with their answers.  A pod is answered with its container names; a sort
    without an answer has panicked. -/
def gcSig : Signature where
  Op := GcOp
  Reply
    | .stat _ => Option FileInfo
    | .glob _ => Option (List String)
    | .readRef _ => Except ReadError CheckpointDetails
    | .getPod _ _ => ApiReply (List String)
    | .getNamespace _ => ApiReply Unit
    | .sortSlice _ => Option (List String)
    | .rangeMap _ => List String
    | .currentPolicySnapshot => PolicySnapshot
    | .removeUnlessPinned _ => Unit
    | .pin _ _ => Bool
    | .unpin _ _ => Unit

/-- The host with the archives of a file system. -/
def hostOn (host : Host) (fs : FS) : Host := { host with openArchive := fs.openArchive }

/-- A host on which every call succeeds. -/
def plainHost : Host := Host.plain (fun _ => .error "")

/-- `getCheckpointArchiveInformation`. -/
def recordedIdentity (host : Host) (fs : FS) (archive : String) :
    Except ReadError CheckpointDetails :=
  readPodContainerRef (hostOn host fs) archive

/-- The identity is read from the archive alone. -/
theorem recordedIdentity_of_lookup {host : Host} {s t : FS} {archive : String}
    (h : s.lookup archive = t.lookup archive) :
    recordedIdentity host s archive = recordedIdentity host t archive := by
  have hopen : (hostOn host s).openArchive archive = (hostOn host t).openArchive archive := by
    show s.openArchive archive = t.openArchive archive
    unfold FS.openArchive
    rw [h]
  have huntar : ∀ dest files, untarFiles (hostOn host s) archive dest files
      = untarFiles (hostOn host t) archive dest files := by
    intro dest files
    unfold untarFiles
    rw [hopen]
    rfl
  unfold recordedIdentity readPodContainerRef extractSpecDump readDump
  simp only [huntar]
  rfl

/-- The answers and effects of the operations; the file calls of `faulty` may fail.  The
    comparison of a sort looks at two archives, and a failed `os.Stat` is reported by
    `log.Error(err, "Error stating file", archives[i])`: a key without a value, on which the
    development logger that `main` sets up panics. -/
def GcOp.act (host : Host) (faulty : fsSig.Op → Prop) :
    (op : gcSig.Op) → FS → gcSig.Reply op → FS → Prop
  | .stat path, s, r, s' => FsOp.act faulty (.stat path) s r s'
  | .glob pattern, s, r, s' => r = Filepath.glob s.keys pattern ∧ s' = s
  | .readRef archive, s, r, s' =>
      (∀ ref, r = .ok ref → recordedIdentity host s archive = .ok ref) ∧ s' = s
  | .getPod _ _, s, _, s' => s' = s
  | .getNamespace _, s, _, s' => s' = s
  | .sortSlice archives, s, r, s' =>
      ((∃ sorted, r = some sorted ∧ sorted.Perm archives) ∨ r = none ∧ 2 ≤ archives.length) ∧
      s' = s
  | .rangeMap keys, s, r, s' => r.Perm keys ∧ s' = s
  | .currentPolicySnapshot, s, _, s' => s' = s
  | .removeUnlessPinned archive, s, r, s' =>
      ∃ tr, Runs (FsOp.act faulty) (removeArchiveUnlessPinned archive) s tr r s'
  | .pin path owner, s, r, s' => ∃ tr, Runs (FsOp.act faulty) (pinLocked path owner) s tr r s'
  | .unpin path owner, s, r, s' =>
      ∃ tr, Runs (FsOp.act faulty) (unpinCheckpoint path owner) s tr r s'

/-- Operations that touch no file. -/
def GcOp.quiet : gcSig.Op → Prop
  | .removeUnlessPinned _ => False
  | .pin _ _ => False
  | .unpin _ _ => False
  | _ => True

theorem fs_of_quiet {host : Host} {faulty : fsSig.Op → Prop} {op : gcSig.Op} {s s' : FS}
    {r : gcSig.Reply op} (h : GcOp.act host faulty op s r s') (hq : GcOp.quiet op) : s' = s := by
  cases op with
  | removeUnlessPinned archive => exact absurd hq id
  | pin path owner => exact absurd hq id
  | unpin path owner => exact absurd hq id
  | stat path => exact h.2
  | glob pattern => exact h.2
  | readRef archive => exact h.2
  | sortSlice archives => exact h.2
  | rangeMap keys => exact h.2
  | getPod ns pod => exact h
  | getNamespace ns => exact h
  | currentPolicySnapshot => exact h

namespace Gc

/-- `os.Stat`. -/
def stat (path : String) : Prog gcSig (Option FileInfo) := .perform (S := gcSig) (.stat path)

/-- `filepath.Glob`. -/
def glob (pattern : String) : Prog gcSig (Option (List String)) :=
  .perform (S := gcSig) (.glob pattern)

/-- `getCheckpointArchiveInformation`. -/
def readRef (archive : String) : Prog gcSig (Except ReadError CheckpointDetails) :=
  .perform (S := gcSig) (.readRef archive)

/-- `getPodFromNamespace`. -/
def getPod (ns pod : String) : Prog gcSig (ApiReply (List String)) :=
  .perform (S := gcSig) (.getPod ns pod)

/-- `getNamespace`. -/
def getNamespace (ns : String) : Prog gcSig (ApiReply Unit) :=
  .perform (S := gcSig) (.getNamespace ns)

/-- `sort.Slice` by modification time. -/
def sortSlice (archives : List String) : OptionT (Prog gcSig) (List String) :=
  OptionT.mk (.perform (S := gcSig) (.sortSlice archives))

/-- The order in which a map is ranged over. -/
def rangeMap (keys : List String) : Prog gcSig (List String) :=
  .perform (S := gcSig) (.rangeMap keys)

/-- `currentPolicySnapshot`. -/
def currentPolicySnapshot : Prog gcSig PolicySnapshot :=
  .perform (S := gcSig) .currentPolicySnapshot

/-- `removeArchiveUnlessPinned`. -/
def removeUnlessPinned (archive : String) : Prog gcSig Unit :=
  .perform (S := gcSig) (.removeUnlessPinned archive)

/-- `pinCheckpoint`: the unlocked `os.Stat`, then the locked section. -/
def pinCheckpoint (path owner : String) : Prog gcSig Bool := do
  match ← stat path with
  | none => return false
  | some _ => .perform (S := gcSig) (.pin path owner)

/-- `unpinCheckpoint`. -/
def unpinCheckpoint (path owner : String) : Prog gcSig Unit :=
  .perform (S := gcSig) (.unpin path owner)

end Gc

/-- A `pinCheckpoint` call whose result is only reported. -/
def pinTask (path owner : String) : Prog gcSig Unit := do
  let _ ← Gc.pinCheckpoint path owner
  return ()

end CheckpointRestore.Retention
