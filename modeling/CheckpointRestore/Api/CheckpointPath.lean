import CheckpointRestore.Lib.Filepath
import CheckpointRestore.Lib.Strings

namespace CheckpointRestore

open Go Go.Filepath

/-!
# Checkpoint paths — `api/v1/podrestore_types.go`

The rules every enforcement point applies to a checkpoint path: the controller before it
stamps the restore annotation, the CRI proxy before it hands the path to the runtime.

* `validateCheckpointPath`, `validateCheckpointPathInDir`, `validateCheckpointNamespaceHint`
  as the source has them, each error with its text;
* `TarIn` — what the rules are for: the path of a `.tar` file lying directly in a directory;
* `validateCheckpointPathInDir_ok_iff` — the accepted paths are exactly those;
* `checkpointPath_accepted_iff` — the same, as a text made of the directory and a file name.
-/

/-- Prefix of the annotation that names the archive a container is restored from. -/
def restoreCheckpointPathAnnotationPrefix : String := "restore.criu.org/checkpoint-path."

/-- Where the kubelet checkpoint API writes archives. -/
def defaultCheckpointDir : String := "/var/lib/kubelet/checkpoints"

/-! ### The checks -/

/-- Why a checkpoint path or file name is refused. -/
inductive PathError where
  | empty
  | notAbsolute (p : String)
  | notClean (p : String)
  | notTar (p : String)
  | notInDir (p dir : String)
  | notKubeletName (base : String)
  | otherNamespace (base ns : String)
  deriving DecidableEq

/-- The error's text. -/
def PathError.message (isPrint : Char → Bool) : PathError → String
  | .empty => "checkpoint path is empty"
  | .notAbsolute p => "checkpoint path " ++ Strings.quote isPrint p ++ " must be absolute"
  | .notClean p => "checkpoint path " ++ Strings.quote isPrint p
      ++ " must be clean (no '.', '..', or redundant separators)"
  | .notTar p => "checkpoint path " ++ Strings.quote isPrint p ++ " must be a .tar archive"
  | .notInDir p dir => "checkpoint path " ++ Strings.quote isPrint p
      ++ " is not inside the checkpoint directory " ++ Strings.quote isPrint dir
  | .notKubeletName base => "checkpoint archive " ++ Strings.quote isPrint base
      ++ " does not follow the kubelet naming convention "
      ++ "checkpoint-<pod>_<namespace>-<container>-<timestamp>.tar"
  | .otherNamespace base ns => "checkpoint archive " ++ Strings.quote isPrint base
      ++ " does not belong to namespace " ++ Strings.quote isPrint ns

/-- An absolute, lexically clean path ending in `.tar`. -/
def validateCheckpointPath (p : String) : Except PathError Unit :=
  if p = "" then .error .empty
  else if !isAbs p then .error (.notAbsolute p)
  else if clean p ≠ p then .error (.notClean p)
  else if ext p ≠ ".tar" then .error (.notTar p)
  else .ok ()

/-- The directory that is enforced: the default one if none is configured. -/
def enforcedDir (allowedDir : String) : String :=
  if allowedDir = "" then defaultCheckpointDir else allowedDir

/-- Additionally, the archive lies directly inside `allowedDir`. -/
def validateCheckpointPathInDir (p allowedDir : String) : Except PathError Unit :=
  match validateCheckpointPath p with
  | .error e => .error e
  | .ok () =>
    if dir p ≠ clean (enforcedDir allowedDir) then .error (.notInDir p (enforcedDir allowedDir))
    else .ok ()

/-- The coarse check of the file name against the kubelet naming convention: the text after
    the pod name's `_` starts with the namespace and a dash. -/
def validateCheckpointNamespaceHint (p ns : String) : Except PathError Unit :=
  match Strings.cutPrefix (base p) "checkpoint-" with
  | none => .error (.notKubeletName (base p))
  | some rest =>
    match Strings.cut rest '_' with
    | none => .error (.notKubeletName (base p))
    | some (_, after) =>
      if !Strings.hasPrefix after (ns ++ "-") then .error (.otherNamespace (base p) ns)
      else .ok ()

/-! ### What the checks are for -/

/-- `p` is the path of a `.tar` file lying directly in the directory `D`. -/
def TarIn (D p : String) : Prop :=
  ∃ name : List Char, '/' ∉ name ∧ ".tar".toList <:+ name ∧
    p = String.ofList (under D.toList name)

theorem validateCheckpointPath_ok_iff {p : String} :
    validateCheckpointPath p = .ok ()
      ↔ isAbs p = true ∧ clean p = p ∧ ext p = ".tar" := by
  unfold validateCheckpointPath
  by_cases h0 : p = ""
  · subst h0; simp [isAbs, isRooted]
  by_cases h1 : isAbs p = true <;> by_cases h2 : clean p = p <;> by_cases h3 : ext p = ".tar" <;>
    simp [h0, h1, h2, h3]

theorem validateCheckpointPathInDir_ok {p allowedDir : String} :
    validateCheckpointPathInDir p allowedDir = .ok ()
      ↔ (isAbs p = true ∧ clean p = p ∧ ext p = ".tar") ∧
        dir p = clean (enforcedDir allowedDir) := by
  rw [← validateCheckpointPath_ok_iff, validateCheckpointPathInDir]
  cases h : validateCheckpointPath p with
  | error e => simp
  | ok u => simp

theorem clean_eq_iff {p q : String} : clean p = q ↔ cleanChars p.toList = q.toList := by
  rw [clean, ← String.toList_inj, String.toList_ofList]

theorem ext_eq_tar_iff {d b : List Char} (hb : '/' ∉ b) :
    ext (String.ofList (d ++ '/' :: b)) = ".tar" ↔ ".tar".toList <:+ b := by
  rw [ext, ← String.toList_inj, String.toList_ofList, String.toList_ofList, extChars_append hb]
  exact ext_eq_iff (e := ['t', 'a', 'r']) (by decide)

/-- The directory of an accepted path is absolute, whatever was configured. -/
theorem isRooted_dirChars {p : List Char} (h : isRooted p = true) :
    isRooted (dirChars p) = true := by
  obtain ⟨d, b, rfl, hb, hr⟩ := exists_split h
  rw [dirChars, splitChars_append hb, cleanChars, hr]
  exact isRooted_render_true _

/-- A file lying directly in a directory: the path splits before its name. -/
theorem under_split (D name : List Char) : ∃ d, under D name = d ++ '/' :: name := by
  unfold under
  by_cases h : D = ['/']
  · exact ⟨[], by simp [h]⟩
  · exact ⟨D, by simp [h]⟩

/-- **The accepted paths.**  A path passes the checks exactly when the enforced directory is
    absolute and the path is that of a `.tar` file lying directly in it. -/
theorem validateCheckpointPathInDir_ok_iff {p allowedDir : String} :
    validateCheckpointPathInDir p allowedDir = .ok ()
      ↔ isAbs (clean (enforcedDir allowedDir)) = true
        ∧ TarIn (clean (enforcedDir allowedDir)) p := by
  rw [validateCheckpointPathInDir_ok]
  have hD : (clean (enforcedDir allowedDir)).toList
      = cleanChars (enforcedDir allowedDir).toList := by
    rw [clean, String.toList_ofList]
  generalize (clean (enforcedDir allowedDir)) = D at hD ⊢
  constructor
  · rintro ⟨⟨habs, hclean, hext⟩, hdir⟩
    have hdir' : dirChars p.toList = D.toList := by rw [← hdir, dir, String.toList_ofList]
    obtain ⟨d, b, hp, hb, hrd⟩ := exists_split (p := p.toList) habs
    have hpe : p = String.ofList (d ++ '/' :: b) := by rw [← hp, String.ofList_toList]
    have htar : ".tar".toList <:+ b := (ext_eq_tar_iff hb).mp (hpe ▸ hext)
    have hnorm : Normal b := normal_of_suffix (e := ['t', 'a', 'r']) hb (by decide) htar
    have hpu : p.toList = under D.toList b := by
      have hcl := cleanChars_under hrd hnorm
      rw [← hp, clean_eq_iff.mp hclean] at hcl
      rw [hcl, ← hdir', dirChars, hp, splitChars_append hb]
    refine ⟨?_, b, hb, htar, by rw [← hpu, String.ofList_toList]⟩
    rw [isAbs, ← hdir']
    exact isRooted_dirChars habs
  · rintro ⟨hDr, name, hname, htar, rfl⟩
    have hDr' : isRooted (cleanChars (enforcedDir allowedDir).toList) = true := by
      rw [← hD]; exact hDr
    obtain ⟨elems, hel, hren⟩ := cleanChars_abs hDr'
    have hnorm : Normal name := normal_of_suffix (e := ['t', 'a', 'r']) hname (by decide) htar
    obtain ⟨habs, hclean, -, hdir⟩ := (dirChars_eq_iff hel (hD.trans hren)).mpr ⟨name, hnorm, rfl⟩
    obtain ⟨d, hd⟩ := under_split D.toList name
    refine ⟨⟨by rwa [isAbs, String.toList_ofList], ?_, ?_⟩, ?_⟩
    · rw [clean_eq_iff, String.toList_ofList]; exact hclean
    · rw [hd]; exact (ext_eq_tar_iff hname).mpr htar
    · rw [dir, String.toList_ofList, hdir, String.ofList_toList]

/-- The directory an archive must lie in: the configured one, cleaned, or the default one. -/
def checkpointDir (d : String) : String := if d = "" then defaultCheckpointDir else clean d

theorem checkpointDir_eq (d : String) : checkpointDir d = clean (enforcedDir d) := by
  unfold checkpointDir enforcedDir
  split_ifs with h
  · decide
  · rfl

/-- The path of the file `b` in the directory `D`. -/
def pathIn (D b : String) : String := if D = "/" then "/" ++ b else D ++ "/" ++ b

theorem toList_pathIn (D b : String) : (pathIn D b).toList = under D.toList b.toList := by
  have hslash : "/".toList = ['/'] := rfl
  have hroot : D = "/" ↔ D.toList = ['/'] := by rw [← String.toList_inj, hslash]
  unfold pathIn under
  by_cases h : D = "/"
  · rw [if_pos h, if_pos (hroot.mp h), String.toList_append, hslash]
    rfl
  · rw [if_neg h, if_neg (fun h' => h (hroot.mpr h')), String.toList_append, String.toList_append,
      hslash]
    simp

/-- **The validator accepts exactly the archives directly in the directory.**  A path passes if and
    only if the directory is absolute and the path is the directory followed by a file name
    without a slash that ends in `.tar`. -/
theorem checkpointPath_accepted_iff (p d : String) :
    validateCheckpointPathInDir p d = .ok () ↔
      isAbs (checkpointDir d) = true ∧
        ∃ b : String, '/' ∉ b.toList ∧ ".tar".toList <:+ b.toList ∧
          p = pathIn (checkpointDir d) b := by
  rw [validateCheckpointPathInDir_ok_iff, ← checkpointDir_eq]
  refine and_congr_right (fun _ => ⟨?_, ?_⟩)
  · rintro ⟨name, hslash, htar, rfl⟩
    have hname : (String.ofList name).toList = name := String.toList_ofList
    refine ⟨String.ofList name, by rwa [hname], by rwa [hname], ?_⟩
    rw [← String.toList_inj, toList_pathIn, String.toList_ofList, String.toList_ofList]
  · rintro ⟨b, hslash, htar, rfl⟩
    refine ⟨b.toList, hslash, htar, ?_⟩
    rw [← toList_pathIn, String.ofList_toList]

example : validateCheckpointPathInDir "/ckpt/a.tar" "/ckpt/" = .ok () := by decide
example : validateCheckpointPathInDir "/ckpt/../etc/a.tar" "/ckpt"
    = .error (.notClean "/ckpt/../etc/a.tar") := by decide

end CheckpointRestore
