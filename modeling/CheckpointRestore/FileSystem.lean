import CheckpointRestore.Lib.Crash
import CheckpointRestore.Archive

namespace CheckpointRestore

open Interaction

/-!
# The checkpoint directory — files, system calls and crashes

A flat map from paths to files.  A checkpoint archive is kept as its size and the entries its
reader delivers, every other file as its bytes; reading one as the other fails.

* `FS` — the file system;
* `FsOp`, `fsSig` — the system calls the operator makes on markers and archives;
* `FsOp.act` — their answers and effects; the calls of `faulty` may fail with an I/O error, also
  an `os.Stat` of a file that is there;
* `FsOp.answer` — the same without failures, as a function;
* `FsOp.tear` — what a crash in the middle of a call leaves: a write may be partial, a rename
  is atomic.
-/

/-! ### Files -/

/-- What a file holds. -/
inductive Content where
  | bytes (data : List UInt8)
  | tar (size : ℕ) (stream : TarStream)
  deriving DecidableEq

/-- The size in bytes. -/
def Content.size : Content → ℕ
  | .bytes data => data.length
  | .tar size _ => size

/-- A file; times are nanoseconds. -/
structure File where
  content : Content
  modTime : ℤ
  deriving DecidableEq

/-- What `os.Stat` reports, as far as the operator reads it. -/
structure FileInfo where
  size : ℤ
  modTime : ℤ
  deriving DecidableEq

/-- The files, by path. -/
abbrev FS := AList (fun _ : String => File)

namespace FS

/-- `os.Stat`; `none` is an error. -/
def stat (fs : FS) (path : String) : Option FileInfo :=
  (fs.lookup path).map (fun f => ⟨f.content.size, f.modTime⟩)

/-- Create or overwrite a file. -/
def put (fs : FS) (path : String) (content : Content) (modTime : ℤ) : FS :=
  fs.insert path ⟨content, modTime⟩

/-- Open a checkpoint archive. -/
def openArchive (fs : FS) (path : String) : Except String TarStream :=
  match fs.lookup path with
  | none => .error ("open " ++ path ++ ": no such file or directory")
  | some ⟨.bytes _, _⟩ => .error "archive/tar: invalid tar header"
  | some ⟨.tar _ stream, _⟩ => .ok stream

theorem stat_isSome {fs : FS} {path : String} : (fs.stat path).isSome = true ↔ path ∈ fs := by
  rw [stat, Option.isSome_map, AList.lookup_isSome]

end FS

/-! ### System calls -/

/-- The calls on single files. -/
inductive FsOp where
  | stat (path : String)
  | readFile (path : String)
  | writeFile (path : String) (data : List UInt8)
  | rename (old new : String)
  | remove (path : String)

/-- The answers of `os.ReadFile`. -/
inductive ReadReply where
  | ok (content : Content)
  | notExist
  | failed

/-- The calls with their answers; for the last three, whether they succeeded. -/
def fsSig : Signature where
  Op := FsOp
  Reply
    | .stat _ => Option FileInfo
    | .readFile _ => ReadReply
    | .writeFile _ _ => Bool
    | .rename _ _ => Bool
    | .remove _ => Bool

namespace FsOp

/-- No call fails. -/
def noFault (_ : fsSig.Op) : Prop := False

theorem not_noFault : ¬ ∃ op, noFault op := fun h => h.elim (fun _ hfalse => hfalse)

/-- Every call may fail. -/
def anyFault (_ : fsSig.Op) : Prop := True

/-- A write that was cut short. -/
def torn (path : String) (data : List UInt8) (s s' : FS) : Prop :=
  ∃ n t, s' = s.put path (.bytes (data.take n)) t

/-- The answers and effects of the calls, of which those of `faulty` may fail. -/
def act (faulty : fsSig.Op → Prop) : (op : fsSig.Op) → FS → fsSig.Reply op → FS → Prop
  | .stat path, s, r, s' => (r = s.stat path ∨ faulty (.stat path) ∧ r = none) ∧ s' = s
  | .readFile path, s, r, s' => s' = s ∧
      (match s.lookup path with
        | some f => r = .ok f.content ∨ faulty (.readFile path) ∧ r = .failed
        | none => r = .notExist ∨ faulty (.readFile path) ∧ r = .failed)
  | .writeFile path data, s, r, s' =>
      r = true ∧ (∃ t, s' = s.put path (.bytes data) t) ∨
      faulty (.writeFile path data) ∧ r = false ∧ (s' = s ∨ torn path data s s')
  | .rename old new, s, r, s' =>
      r = true ∧ (∃ f, s.lookup old = some f ∧ s' = (s.erase old).insert new f) ∨
      (faulty (.rename old new) ∨ old ∉ s) ∧ r = false ∧ s' = s
  | .remove path, s, r, s' =>
      r = true ∧ path ∈ s ∧ s' = s.erase path ∨
      (faulty (.remove path) ∨ path ∉ s) ∧ r = false ∧ s' = s

/-- What a crash in the middle of a call can leave. -/
def tear : (op : fsSig.Op) → FS → FS → Prop
  | .writeFile path data, s, s' => torn path data s s'
  | _, _, _ => False

/-- The calls where nothing fails and files are written at time `t`. -/
def answer (t : ℤ) : (op : fsSig.Op) → FS → fsSig.Reply op × FS
  | .stat path, s => (s.stat path, s)
  | .readFile path, s => (match s.lookup path with
      | some f => .ok f.content
      | none => .notExist, s)
  | .writeFile path data, s => (true, s.put path (.bytes data) t)
  | .rename old new, s => match s.lookup old with
    | some f => (true, (s.erase old).insert new f)
    | none => (false, s)
  | .remove path, s => if path ∈ s then (true, s.erase path) else (false, s)

theorem answer_act (faulty : fsSig.Op → Prop) (t : ℤ) (op : fsSig.Op) (s : FS) :
    act faulty op s (answer t op s).1 (answer t op s).2 := by
  cases op with
  | stat path => exact ⟨Or.inl rfl, rfl⟩
  | readFile path =>
    refine ⟨rfl, ?_⟩
    show match s.lookup path with
      | some f => (match s.lookup path with
          | some f => ReadReply.ok f.content
          | none => .notExist) = .ok f.content ∨ _
      | none => (match s.lookup path with
          | some f => ReadReply.ok f.content
          | none => .notExist) = .notExist ∨ _
    cases s.lookup path with
    | some f => exact Or.inl rfl
    | none => exact Or.inl rfl
  | writeFile path data => exact Or.inl ⟨rfl, t, rfl⟩
  | rename old new =>
    show act faulty (.rename old new) s
      (match s.lookup old with
        | some f => (true, (s.erase old).insert new f)
        | none => (false, s)).1
      (match s.lookup old with
        | some f => (true, (s.erase old).insert new f)
        | none => (false, s)).2
    cases hold : s.lookup old with
    | some f => exact Or.inl ⟨rfl, f, hold, rfl⟩
    -- a rename of a file that is not there fails also where nothing else does
    | none => exact Or.inr ⟨Or.inr (AList.lookup_eq_none.mp hold), rfl, rfl⟩
  | remove path =>
    show act faulty (.remove path) s
      (if path ∈ s then (true, s.erase path) else (false, s)).1
      (if path ∈ s then (true, s.erase path) else (false, s)).2
    split_ifs with hmem
    · exact Or.inl ⟨rfl, hmem, rfl⟩
    · exact Or.inr ⟨Or.inr hmem, rfl, rfl⟩

end FsOp

namespace Os

/-- `os.Stat`. -/
def stat (path : String) : Prog fsSig (Option FileInfo) := .perform (S := fsSig) (.stat path)

/-- `os.ReadFile`. -/
def readFile (path : String) : Prog fsSig ReadReply := .perform (S := fsSig) (.readFile path)

/-- `os.WriteFile`. -/
def writeFile (path : String) (data : List UInt8) : Prog fsSig Bool :=
  .perform (S := fsSig) (.writeFile path data)

/-- `os.Rename`. -/
def rename (old new : String) : Prog fsSig Bool := .perform (S := fsSig) (.rename old new)

/-- `os.Remove`. -/
def remove (path : String) : Prog fsSig Bool := .perform (S := fsSig) (.remove path)

end Os

end CheckpointRestore
