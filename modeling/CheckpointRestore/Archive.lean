import Mathlib.Data.List.AList
import CheckpointRestore.Lib.Filepath
import CheckpointRestore.Lib.Json
import CheckpointRestore.Lib.Strings

namespace CheckpointRestore

open Go Go.Filepath

/-!
# Checkpoint archives — `internal/checkpointarchive/archive.go`

Reading the metadata of an archive nobody trusts: entries are extracted by exact name into a
private directory, bounded in size, and the identity is taken from `spec.dump`.

The host answers the system calls (`Host`), and so do the decoders of the dump files, which
belong to the vendored metadata library.  Every answer is arbitrary, failures included.

* `untarFiles`, `extractSpecDump`, `readPodContainerRef`, `readPodNamespace`,
  `readBaseImage` as the source has them, each error with its text;
* `readPodNamespace_ne_empty` — a namespace that is read is not empty.
-/

/-! ### Tar streams and the host -/

/-- One tar entry as the reader delivers it: its content, then end of file or an error. -/
structure TarEntry where
  name : String
  typeflag : Char
  data : List UInt8
  readErr : Option String
  deriving DecidableEq

/-- `tar.TypeReg`. -/
def typeReg : Char := '0'

/-- The entries of an opened archive, then end of archive or an error. -/
structure TarStream where
  entries : List TarEntry
  err : Option String
  deriving DecidableEq

/-- A string map of the source. -/
abbrev StringMap := AList (fun _ : String => String)

/-- Indexing a Go map: the zero value for an absent key. -/
def StringMap.get (m : StringMap) (k : String) : String := (m.lookup k).getD ""

/-- The host's answers: opening and decompressing an archive, the calls on the temporary
    directory, and the decoders of the dump files. -/
structure Host where
  openArchive : String → Except String TarStream
  mkdirTemp : Except String String
  mkdirAll : String → Option String
  create : String → Option String
  write : String → Option String
  close : String → Option String
  missing : String → String
  specAnnotations : List UInt8 → Except String StringMap
  rootfsImageName : List UInt8 → Except String String

/-- Files written so far, by path. -/
abbrev Extracted := AList (fun _ : String => List UInt8)

/-! ### Extraction -/

/-- 16 MiB. -/
def maxExtractedFileSize : ℕ := 16 * 2 ^ 20

/-- Why an archive is not unpacked. -/
inductive EntryError where
  | host (msg : String)
  | notRegular (name : String) (typeflag : Char)
  | escapes (name : String)
  | tooLarge (name : String)
  deriving DecidableEq

/-- The error's text. -/
def EntryError.message (isPrint : Char → Bool) : EntryError → String
  | .host msg => msg
  | .notRegular name typeflag => "archive entry " ++ Strings.quote isPrint name
      ++ " is not a regular file (type " ++ Strings.quoteRune isPrint typeflag ++ ")"
  | .escapes name => "archive entry " ++ Strings.quote isPrint name
      ++ " escapes destination directory"
  | .tooLarge name => "archive entry " ++ Strings.quote isPrint name ++ " exceeds the "
      ++ toString maxExtractedFileSize ++ "-byte extraction limit"

section Extract
variable (host : Host)

/-- `io.Copy` of an entry through the limit: what reaches the file, and the error if reading
    or writing failed.  An error beyond the limit is never seen. -/
def copyEntry (target : String) (e : TarEntry) : List UInt8 × Option String :=
  (e.data.take (maxExtractedFileSize + 1),
    match host.write target with
    | some msg => some msg
    | none => if e.data.length ≤ maxExtractedFileSize then e.readErr else none)

/-- The callback of `UntarFiles` on one entry. -/
def untarEntry (cleanDest : String) (want : List String) (files : Extracted) (e : TarEntry) :
    Extracted × Except EntryError Unit :=
  let name := clean e.name
  if !want.contains name then (files, .ok ())
  else if e.typeflag ≠ typeReg then (files, .error (.notRegular e.name e.typeflag))
  else
    let target := join cleanDest name
    if target ≠ cleanDest ∧ !Strings.hasPrefix target (cleanDest ++ "/") then
      (files, .error (.escapes e.name))
    else match host.mkdirAll (dir target) with
    | some msg => (files, .error (.host msg))
    | none =>
      match host.create target with
      | some msg => (files, .error (.host msg))
      | none =>
        let (data, copyErr) := copyEntry host target e
        let files := files.insert target data
        match copyErr, host.close target with
        | some msg, _ => (files, .error (.host msg))
        | none, some msg => (files, .error (.host msg))
        | none, none =>
          if data.length > maxExtractedFileSize then (files, .error (.tooLarge e.name))
          else (files, .ok ())

/-- `iterateTarArchive` once the archive is open: the callback runs on every entry until it
    fails; then the stream's own error counts. -/
def iterateEntries (callback : Extracted → TarEntry → Extracted × Except EntryError Unit) :
    List TarEntry → Option String → Extracted → Extracted × Except EntryError Unit
  | [], none, files => (files, .ok ())
  | [], some msg, files => (files, .error (.host msg))
  | e :: es, err, files =>
    match callback files e with
    | (files, .error x) => (files, .error x)
    | (files, .ok ()) => iterateEntries callback es err files

/-- `UntarFiles`: extract the named entries of `src` into `dest`.  The error is wrapped as
    "unpacking of checkpoint archive failed". -/
def untarFiles (src dest : String) (files : List String) : Extracted × Except EntryError Unit :=
  match host.openArchive src with
  | .error msg => (∅, .error (.host msg))
  | .ok stream =>
    iterateEntries (untarEntry host (clean dest) (files.map clean)) stream.entries stream.err ∅

/-- Why a dump file of an archive cannot be read. -/
inductive DumpError where
  | mkdirTemp (msg : String)
  | unpacking (e : EntryError)
  | dump (msg : String)
  deriving DecidableEq

/-- The error's text. -/
def DumpError.message (isPrint : Char → Bool) : DumpError → String
  | .mkdirTemp msg => msg
  | .unpacking e => "unpacking of checkpoint archive failed: " ++ e.message isPrint
  | .dump msg => msg

/-- Extract one dump file into a private directory and decode it (`ReadJSONFile`). -/
def readDump {α : Type} (file : String) (decode : List UInt8 → Except String α)
    (checkpointPath : String) : Except DumpError α :=
  match host.mkdirTemp with
  | .error msg => .error (.mkdirTemp msg)
  | .ok tempDir =>
    match untarFiles host checkpointPath tempDir [file] with
    | (_, .error e) => .error (.unpacking e)
    | (files, .ok ()) =>
      match files.lookup (join tempDir file) with
      | none => .error (.dump (host.missing (join tempDir file)))
      | some data =>
        match decode data with
        | .error msg => .error (.dump msg)
        | .ok a => .ok a

/-- `metadata.SpecDumpFile`. -/
def specDumpFile : String := "spec.dump"

/-- `metadata.ConfigDumpFile`. -/
def configDumpFile : String := "config.dump"

/-- `extractSpecDump`: the annotations of the recorded OCI spec. -/
def extractSpecDump (checkpointPath : String) : Except DumpError StringMap :=
  readDump host specDumpFile host.specAnnotations checkpointPath

end Extract

/-! ### Identity -/

/-- CRI-O's kubelet labels, as a JSON map. -/
def criOLabelsAnnotation : String := "io.kubernetes.cri-o.Labels"

/-- The pod sandbox's namespace, recorded by containerd. -/
def containerdSandboxNamespaceAnnotation : String := "io.kubernetes.cri.sandbox-namespace"

/-- The pod sandbox's name, recorded by containerd. -/
def containerdSandboxNameAnnotation : String := "io.kubernetes.cri.sandbox-name"

/-- The container's name, recorded by containerd. -/
def containerdContainerNameAnnotation : String := "io.kubernetes.cri.container-name"

/-- `metadata.CheckpointAnnotationNamespace`. -/
def checkpointAnnotationNamespace : String := "org.criu.checkpoint.pod.namespace"

/-- `metadata.CheckpointAnnotationPod`. -/
def checkpointAnnotationPod : String := "org.criu.checkpoint.pod.name"

/-- `metadata.CheckpointAnnotationName`. -/
def checkpointAnnotationName : String := "org.criu.checkpoint.container.name"

/-- `kubelettypes.KubernetesPodNamespaceLabel`. -/
def kubernetesPodNamespaceLabel : String := "io.kubernetes.pod.namespace"

/-- `kubelettypes.KubernetesPodNameLabel`. -/
def kubernetesPodNameLabel : String := "io.kubernetes.pod.name"

/-- `kubelettypes.KubernetesContainerNameLabel`. -/
def kubernetesContainerNameLabel : String := "io.kubernetes.container.name"

/-- The pod container captured in an archive. -/
structure PodContainerRef where
  ns : String
  pod : String
  container : String
  deriving DecidableEq

/-- All three parts are recorded. -/
def PodContainerRef.complete (r : PodContainerRef) : Bool :=
  r.ns != "" && r.pod != "" && r.container != ""

/-- An identity together with where it was recorded. -/
structure PodContainerRefCandidate where
  source : String
  ref : PodContainerRef

/-- Why annotations give no identity. -/
inductive IdentityError where
  | labels
  | incomplete (source : String) (ref : PodContainerRef)
  | conflicting (source source' : String)
  | notFound
  deriving DecidableEq

/-- The error's text; `jsonErr` is the JSON decoder's. -/
def IdentityError.message (isPrint : Char → Bool) (jsonErr : String) : IdentityError → String
  | .labels => "parsing " ++ Strings.quote isPrint criOLabelsAnnotation ++ ": " ++ jsonErr
  | .incomplete source ref => source ++ " identity is incomplete: namespace="
      ++ Strings.quote isPrint ref.ns ++ " pod=" ++ Strings.quote isPrint ref.pod
      ++ " container=" ++ Strings.quote isPrint ref.container
  | .conflicting source source' =>
      "conflicting pod/container identity between " ++ source ++ " and " ++ source'
  | .notFound => "no supported pod/container identity annotations found"

/-- The CRI-O candidate: present when the annotation is not empty, and then it must parse. -/
def criOCandidate (annotations : StringMap) :
    Except IdentityError (List PodContainerRefCandidate) :=
  let raw := annotations.get criOLabelsAnnotation
  if raw ≠ "" then
    match (Json.parse raw.toList).bind Json.decodeStringMap with
    | none => .error .labels
    | some labels => .ok [{
        source := criOLabelsAnnotation
        ref := {
          ns := StringMap.get labels kubernetesPodNamespaceLabel
          pod := StringMap.get labels kubernetesPodNameLabel
          container := StringMap.get labels kubernetesContainerNameLabel } }]
  else .ok []

/-- `appendCandidateIfPresent`: present when any part is recorded. -/
def candidateIfPresent (source : String) (ref : PodContainerRef) :
    List PodContainerRefCandidate :=
  if ref.ns = "" ∧ ref.pod = "" ∧ ref.container = "" then [] else [{ source, ref }]

/-- The containerd candidate. -/
def containerdCandidate (annotations : StringMap) : List PodContainerRefCandidate :=
  candidateIfPresent "containerd CRI annotations" {
    ns := annotations.get containerdSandboxNamespaceAnnotation
    pod := annotations.get containerdSandboxNameAnnotation
    container := annotations.get containerdContainerNameAnnotation }

/-- The checkpointctl candidate. -/
def checkpointctlCandidate (annotations : StringMap) : List PodContainerRefCandidate :=
  candidateIfPresent "checkpointctl annotations" {
    ns := annotations.get checkpointAnnotationNamespace
    pod := annotations.get checkpointAnnotationPod
    container := annotations.get checkpointAnnotationName }

/-- The loop over the candidates: each one complete and equal to the first. -/
def selectCandidate (selected : Option PodContainerRefCandidate) :
    List PodContainerRefCandidate → Except IdentityError PodContainerRef
  | [] => match selected with
    | none => .error .notFound
    | some s => .ok s.ref
  | c :: cs =>
    if !c.ref.complete then .error (.incomplete c.source c.ref)
    else match selected with
      | none => selectCandidate (some c) cs
      | some s =>
        if s.ref ≠ c.ref then .error (.conflicting s.source c.source)
        else selectCandidate selected cs

/-- `podContainerRefFromAnnotations`. -/
def podContainerRefFromAnnotations (annotations : StringMap) :
    Except IdentityError PodContainerRef :=
  match criOCandidate annotations with
  | .error e => .error e
  | .ok cs => selectCandidate none
      (cs ++ containerdCandidate annotations ++ checkpointctlCandidate annotations)

/-! ### The readers -/

/-- Why an archive's metadata cannot be read. -/
inductive ReadError where
  | specDump (path : String) (e : DumpError)
  | identity (path : String) (e : IdentityError)
  | labels (path : String)
  | noNamespace (path : String)
  | baseImage (e : DumpError)
  | noRootfsImageName (path : String)
  deriving DecidableEq

/-- The error's text; `jsonErr` is the JSON decoder's. -/
def ReadError.message (isPrint : Char → Bool) (jsonErr : String) : ReadError → String
  | .specDump path e => "reading spec.dump from " ++ path ++ ": " ++ e.message isPrint
  | .identity path e => "reading pod/container identity from spec.dump of " ++ path ++ ": "
      ++ e.message isPrint jsonErr
  | .labels path => "parsing " ++ Strings.quote isPrint criOLabelsAnnotation
      ++ " in spec.dump of " ++ path ++ ": " ++ jsonErr
  | .noNamespace path => "checkpoint " ++ path ++ " records no pod namespace in spec.dump"
  | .baseImage (.dump msg) => "reading checkpoint config.dump: " ++ msg
  | .baseImage e => e.message isPrint
  | .noRootfsImageName path => "checkpoint " ++ path ++ " records no rootfsImageName"

section Readers
variable (host : Host)

/-- `ReadPodContainerRef`. -/
def readPodContainerRef (checkpointPath : String) : Except ReadError PodContainerRef :=
  match extractSpecDump host checkpointPath with
  | .error e => .error (.specDump checkpointPath e)
  | .ok annotations =>
    match podContainerRefFromAnnotations annotations with
    | .error e => .error (.identity checkpointPath e)
    | .ok ref => .ok ref

/-- The namespace recorded in the annotations, from the first source that has one. -/
def podNamespaceFromAnnotations (checkpointPath : String) (annotations : StringMap) :
    Except ReadError String :=
  let raw := annotations.get criOLabelsAnnotation
  -- CRI-O: kubelet labels as a JSON map
  match (if raw ≠ "" then (Json.parse raw.toList).bind Json.decodeStringMap else some ∅) with
  | none => .error (.labels checkpointPath)
  | some labels =>
    if StringMap.get labels kubernetesPodNamespaceLabel ≠ "" then
      .ok (StringMap.get labels kubernetesPodNamespaceLabel)
    -- containerd: sandbox namespace recorded directly
    else if annotations.get containerdSandboxNamespaceAnnotation ≠ "" then
      .ok (annotations.get containerdSandboxNamespaceAnnotation)
    -- checkpointctl-standard annotation (Podman and newer engines)
    else if annotations.get checkpointAnnotationNamespace ≠ "" then
      .ok (annotations.get checkpointAnnotationNamespace)
    else .error (.noNamespace checkpointPath)

/-- `ReadPodNamespace`. -/
def readPodNamespace (checkpointPath : String) : Except ReadError String :=
  match extractSpecDump host checkpointPath with
  | .error e => .error (.specDump checkpointPath e)
  | .ok annotations => podNamespaceFromAnnotations checkpointPath annotations

/-- `ReadBaseImage`. -/
def readBaseImage (checkpointPath : String) : Except ReadError String :=
  match readDump host configDumpFile host.rootfsImageName checkpointPath with
  | .error e => .error (.baseImage e)
  | .ok image => if image = "" then .error (.noRootfsImageName checkpointPath) else .ok image

end Readers

/-! ### What is read -/

variable {ref : PodContainerRef}

/-- Once a candidate is selected, it is what the loop returns. -/
theorem selectCandidate_selected {s : PodContainerRefCandidate}
    {cs : List PodContainerRefCandidate} (h : selectCandidate (some s) cs = .ok ref) :
    s.ref = ref ∧ ∀ c ∈ cs, c.ref = ref ∧ c.ref.complete = true := by
  induction cs with
  | nil =>
    cases h
    exact ⟨rfl, by simp⟩
  | cons c cs ih =>
    unfold selectCandidate at h
    by_cases hc : c.ref.complete = true <;> simp only [hc, Bool.not_true, Bool.not_false,
      Bool.false_eq_true, if_true, if_false, reduceCtorEq] at h
    by_cases he : s.ref = c.ref
    · rw [if_neg (not_not.mpr he)] at h
      obtain ⟨hs, hcs⟩ := ih h
      refine ⟨hs, fun c' hc' => ?_⟩
      rcases List.mem_cons.mp hc' with rfl | hc'
      · exact ⟨he ▸ hs, hc⟩
      · exact hcs c' hc'
    · rw [if_pos he] at h
      exact absurd h (by simp)

/-- The loop returns the identity all candidates agree on. -/
theorem selectCandidate_ok {cs : List PodContainerRefCandidate}
    (h : selectCandidate none cs = .ok ref) :
    cs ≠ [] ∧ ∀ c ∈ cs, c.ref = ref ∧ c.ref.complete = true := by
  cases cs with
  | nil => exact absurd h (by simp [selectCandidate])
  | cons c cs =>
    unfold selectCandidate at h
    by_cases hc : c.ref.complete = true <;> simp only [hc, Bool.not_true, Bool.not_false,
      Bool.false_eq_true, if_true, if_false, reduceCtorEq] at h
    obtain ⟨hs, hcs⟩ := selectCandidate_selected h
    refine ⟨by simp, fun c' hc' => ?_⟩
    rcases List.mem_cons.mp hc' with rfl | hc'
    · exact ⟨hs, hc⟩
    · exact hcs c' hc'

variable {path : String}

/-- A namespace read from an archive is not empty, so it can serve as an authorization
    signal. -/
theorem readPodNamespace_ne_empty {host : Host} {ns : String}
    (h : readPodNamespace host path = .ok ns) : ns ≠ "" := by
  unfold readPodNamespace podNamespaceFromAnnotations at h
  split at h
  · exact absurd h (by simp)
  dsimp only at h
  split at h
  · exact absurd h (by simp)
  split_ifs at h with h1 h2 h3
  · cases h; exact h1
  · cases h; exact h2
  · cases h; exact h3

/-! ### A host without failures -/

/-- The member of a dump that fills the struct field `name`. -/
def dumpField (name : String) (bs : List UInt8) : Except String (Option Json.Value) :=
  match Json.parseBytes bs with
  | some (.obj fields) =>
    .ok ((fields.find? (fun f => Json.fieldMatches name f.1)).map (fun f => f.2))
  | _ => .error "invalid character in dump"

/-- A host whose system calls succeed, with the decoders as they read dumps that name a
    field once. -/
def Host.plain (openArchive : String → Except String TarStream) : Host where
  openArchive
  mkdirTemp := .ok "/tmp/ckpt-dump1"
  mkdirAll _ := none
  create _ := none
  write _ := none
  close _ := none
  missing path := "open " ++ path ++ ": no such file or directory"
  specAnnotations bs := match dumpField "annotations" bs with
    | .error e => .error e
    | .ok none => .ok ∅
    | .ok (some v) => match Json.decodeStringMap v with
      | none => .error "json: cannot unmarshal annotations"
      | some m => .ok m
  rootfsImageName bs := match dumpField "rootfsImageName" bs with
    | .error e => .error e
    | .ok none => .ok ""
    | .ok (some v) => match Json.decodeString "" v with
      | none => .error "json: cannot unmarshal rootfsImageName"
      | some image => .ok image

/-- The archive containerd writes for a container, as far as its identity and base image go. -/
def containerdArchive (ref : PodContainerRef) (image : String) : TarStream where
  entries := [
    ⟨"spec.dump", typeReg, Json.encodeRunes ("\x7b\"annotations\":\x7b".toList
      ++ Json.encodeString containerdSandboxNamespaceAnnotation ++ [':'] ++ Json.encodeString ref.ns
      ++ [','] ++ Json.encodeString containerdSandboxNameAnnotation ++ [':']
      ++ Json.encodeString ref.pod ++ [','] ++ Json.encodeString containerdContainerNameAnnotation
      ++ [':'] ++ Json.encodeString ref.container ++ "\x7d\x7d".toList), none⟩,
    ⟨"config.dump", typeReg, Json.encodeRunes ("\x7b\"rootfsImageName\":".toList
      ++ Json.encodeString image ++ "\x7d".toList), none⟩]
  err := none

/-- The annotations containerd records. -/
def containerdAnnotations (ref : PodContainerRef) : List (String × String) :=
  [( containerdSandboxNamespaceAnnotation, ref.ns), ( containerdSandboxNameAnnotation, ref.pod),
   ( containerdContainerNameAnnotation, ref.container)]

/-- The text of a `spec.dump` with the annotations. -/
def annotatedSpec (annotations : List (String × String)) : List Char :=
  Json.encodeObject [("annotations", Json.encodeObject
    (annotations.map (fun a => (a.1, Json.encodeString a.2))))]

/-- The text of containerd's `spec.dump`. -/
def containerdSpec (ref : PodContainerRef) : List Char := annotatedSpec (containerdAnnotations ref)

/-- The text of `config.dump`. -/
def containerdConfig (image : String) : List Char :=
  Json.encodeObject [("rootfsImageName", Json.encodeString image)]

/-- The archive's entries are marshalled objects. -/
theorem containerdArchive_entries (ref : PodContainerRef) (image : String) :
    (containerdArchive ref image).entries
      = [⟨"spec.dump", typeReg, Json.encodeRunes (containerdSpec ref), none⟩,
         ⟨"config.dump", typeReg, Json.encodeRunes (containerdConfig image), none⟩] := by
  have hspec : "\x7b\"annotations\":\x7b".toList
      = '{' :: (Json.encodeString "annotations" ++ [':', '{']) := by decide
  have hconfig : "\x7b\"rootfsImageName\":".toList
      = '{' :: (Json.encodeString "rootfsImageName" ++ [':']) := by decide
  have hstop : "\x7d\x7d".toList = ['}', '}'] := by decide
  have hstop' : "\x7d".toList = ['}'] := by decide
  unfold containerdArchive containerdSpec annotatedSpec containerdConfig containerdAnnotations
  rw [hspec, hconfig, hstop, hstop']
  simp [Json.encodeObject, Json.fieldsText]

/-- The map with the annotations. -/
def annotationMap (annotations : List (String × String)) : StringMap :=
  annotations.foldl (fun m a => m.insert a.1 a.2) ∅

variable {openArchive : String → Except String TarStream}

/-- The annotations are read back. -/
theorem specAnnotations_annotatedSpec {annotations : List (String × String)}
    (hne : annotations ≠ []) :
    (Host.plain openArchive).specAnnotations (Json.encodeRunes (annotatedSpec annotations))
      = .ok (annotationMap annotations) := by
  set values := annotations.map (fun a => (a.1, Json.Value.str a.2)) with hvalues
  have hinner : Json.Encodes 1 (Json.encodeObject
      (annotations.map (fun a => (a.1, Json.encodeString a.2)))) (.obj values) := by
    refine Json.encodes_object ?_ (by simpa using hne)
    rw [hvalues, List.forall₂_map_left_iff, List.forall₂_map_right_iff]
    exact List.forall₂_same.mpr (fun a _ => ⟨rfl, Json.encodes_string a.2⟩)
  have houter : Json.Encodes 2 (annotatedSpec annotations) (.obj [("annotations", .obj values)]) :=
    Json.encodes_object (.cons ⟨rfl, hinner⟩ .nil) (List.cons_ne_nil _ _)
  have hparse : Json.parseBytes (Json.encodeRunes (annotatedSpec annotations))
      = some (.obj [("annotations", .obj values)]) := by
    have h : Json.parse (annotatedSpec annotations ++ []) = _ :=
      Json.parse_of_encodes houter (by omega) rfl
    rw [List.append_nil] at h
    unfold Json.parseBytes
    rw [Json.decodeRunes_encodeRunes]
    exact h
  have hname : Json.fieldMatches "annotations" "annotations" = true := by decide
  have hfield : dumpField "annotations" (Json.encodeRunes (annotatedSpec annotations))
      = .ok (some (.obj values)) := by
    unfold dumpField
    rw [hparse]
    simp [hname]
  unfold Host.plain
  dsimp only
  rw [hfield]
  dsimp only
  rw [Json.decodeStringMap_strings]
  rfl

/-- Of an archive that begins with its `spec.dump`, only that entry is wanted. -/
theorem untarFiles_specDump
    {data config : List UInt8}
    (hopen : openArchive path = .ok
      ⟨[⟨"spec.dump", typeReg, data, none⟩, ⟨"config.dump", typeReg, config, none⟩], none⟩)
    (hsize : data.length ≤ maxExtractedFileSize) :
    untarFiles (Host.plain openArchive) path "/tmp/ckpt-dump1" [specDumpFile]
      = (AList.insert "/tmp/ckpt-dump1/spec.dump" data ∅, .ok ()) := by
  have hclean : clean "/tmp/ckpt-dump1" = "/tmp/ckpt-dump1" := by decide
  have hwant : [specDumpFile].map clean = ["spec.dump"] := by decide
  have hjoin : join "/tmp/ckpt-dump1" "spec.dump" = "/tmp/ckpt-dump1/spec.dump" := by decide
  have hspec : untarEntry (Host.plain openArchive) "/tmp/ckpt-dump1" ["spec.dump"] ∅
      ⟨"spec.dump", typeReg, data, none⟩
        = (AList.insert "/tmp/ckpt-dump1/spec.dump" data ∅, .ok ()) := by
    have hname : clean "spec.dump" = "spec.dump" := by decide
    have hinside : Strings.hasPrefix "/tmp/ckpt-dump1/spec.dump" "/tmp/ckpt-dump1/" = true := by
      decide
    have htake : data.take (maxExtractedFileSize + 1) = data := List.take_of_length_le (by omega)
    have hsmall : ¬ data.length > maxExtractedFileSize := by omega
    unfold untarEntry copyEntry
    simp [hname, hjoin, hinside, htake, hsmall, Host.plain]
  have hconfig : ∀ files, untarEntry (Host.plain openArchive) "/tmp/ckpt-dump1"
      ["spec.dump"] files ⟨"config.dump", typeReg, config, none⟩ = (files, .ok ()) := by
    intro files
    have hskip : (!(["spec.dump"].contains (clean "config.dump"))) = true := by decide
    unfold untarEntry
    rw [if_pos hskip]
  unfold untarFiles
  rw [show (Host.plain openArchive).openArchive path = openArchive path from rfl, hopen, hclean,
    hwant]
  dsimp only
  rw [iterateEntries, hspec]
  dsimp only
  rw [iterateEntries, hconfig]
  rfl

/-- The annotations of an archive are extracted. -/
theorem extractSpecDump_annotated
    {annotations : List (String × String)} {config : List UInt8} (hne : annotations ≠ [])
    (hopen : openArchive path = .ok
      ⟨[⟨"spec.dump", typeReg, Json.encodeRunes (annotatedSpec annotations), none⟩,
        ⟨"config.dump", typeReg, config, none⟩], none⟩)
    (hsize : (Json.encodeRunes (annotatedSpec annotations)).length ≤ maxExtractedFileSize) :
    extractSpecDump (Host.plain openArchive) path = .ok (annotationMap annotations) := by
  have hjoin : join "/tmp/ckpt-dump1" specDumpFile = "/tmp/ckpt-dump1/spec.dump" := by decide
  unfold extractSpecDump readDump
  rw [show (Host.plain openArchive).mkdirTemp = .ok "/tmp/ckpt-dump1" from rfl]
  dsimp only
  rw [untarFiles_specDump hopen hsize, hjoin]
  dsimp only
  rw [AList.lookup_insert]
  dsimp only
  rw [specAnnotations_annotatedSpec hne]

theorem extractSpecDump_containerdArchive {image : String}
    (hopen : openArchive path = .ok (containerdArchive ref image))
    (hsize : (Json.encodeRunes (containerdSpec ref)).length ≤ maxExtractedFileSize) :
    extractSpecDump (Host.plain openArchive) path
      = .ok (annotationMap (containerdAnnotations ref)) := by
  have hstream : containerdArchive ref image
      = ⟨[⟨"spec.dump", typeReg, Json.encodeRunes (containerdSpec ref), none⟩,
          ⟨"config.dump", typeReg, Json.encodeRunes (containerdConfig image), none⟩], none⟩ := by
    rw [← containerdArchive_entries]
    rfl
  exact extractSpecDump_annotated (List.cons_ne_nil _ _) (hstream ▸ hopen) hsize

/-- **Round trip.**  The identity containerd records is read back. -/
theorem readPodContainerRef_containerdArchive {image : String}
    (hopen : openArchive path = .ok (containerdArchive ref image))
    (hcomplete : ref.complete = true)
    (hsize : (Json.encodeRunes (containerdSpec ref)).length ≤ maxExtractedFileSize) :
    readPodContainerRef (Host.plain openArchive) path = .ok ref := by
  have hextract := extractSpecDump_containerdArchive hopen hsize
  have hidentity : podContainerRefFromAnnotations (annotationMap (containerdAnnotations ref))
      = .ok ref := by
    set annotations := annotationMap (containerdAnnotations ref)
    have hcriO : annotations.get criOLabelsAnnotation = "" := rfl
    have hcheckpointctl : checkpointctlCandidate annotations = [] := rfl
    have hpresent : ¬ (ref.ns = "" ∧ ref.pod = "" ∧ ref.container = "") := by
      rintro ⟨hns, -, -⟩
      simp [PodContainerRef.complete, hns] at hcomplete
    have hcontainerd : containerdCandidate annotations = [⟨"containerd CRI annotations", ref⟩] :=
      if_neg hpresent
    unfold podContainerRefFromAnnotations criOCandidate
    rw [hcriO, hcontainerd, hcheckpointctl]
    simp [selectCandidate, hcomplete]
  unfold readPodContainerRef
  rw [hextract]
  dsimp only
  rw [hidentity]

end CheckpointRestore
