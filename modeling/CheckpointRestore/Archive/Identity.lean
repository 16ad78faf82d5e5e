import CheckpointRestore.Archive.Namespace

namespace CheckpointRestore

open Go

/-!
# The identity of an archive — unanimous sources

`podContainerRefFromAnnotations` reads the identity of a checkpoint for the garbage collector, and
`ReadPodNamespace` the namespace alone for the node's authorization, each in its own way.

* `Source` — a source that is present in the annotations, and the identity it records;
* `podContainerRefFromAnnotations_ok_iff` — an identity is accepted exactly when it is unanimous;
* `identity_unanimous` — and the two readers agree on it.
-/

/-! ### The sources -/

/-- The labels in CRI-O's annotation. -/
def criOLabels (annotations : StringMap) : Option StringMap :=
  (Json.parse (annotations.get criOLabelsAnnotation).toList).bind Json.decodeStringMap

/-- Some part of an identity is recorded. -/
def PodContainerRef.Recorded (ref : PodContainerRef) : Prop :=
  ref.ns ≠ "" ∨ ref.pod ≠ "" ∨ ref.container ≠ ""

/-- What containerd's annotations record. -/
def containerdRef (annotations : StringMap) : PodContainerRef where
  ns := annotations.get containerdSandboxNamespaceAnnotation
  pod := annotations.get containerdSandboxNameAnnotation
  container := annotations.get containerdContainerNameAnnotation

/-- What checkpointctl's annotations record. -/
def checkpointctlRef (annotations : StringMap) : PodContainerRef where
  ns := annotations.get checkpointAnnotationNamespace
  pod := annotations.get checkpointAnnotationPod
  container := annotations.get checkpointAnnotationName

/-- What CRI-O's labels record. -/
def labelsRef (labels : StringMap) : PodContainerRef where
  ns := labels.get kubernetesPodNamespaceLabel
  pod := labels.get kubernetesPodNameLabel
  container := labels.get kubernetesContainerNameLabel

/-- A source that is present, and the identity it records. -/
inductive Source (annotations : StringMap) : PodContainerRef → Prop
  | criO {labels : StringMap} (hpresent : annotations.get criOLabelsAnnotation ≠ "")
      (hparse : criOLabels annotations = some labels) : Source annotations (labelsRef labels)
  | containerd (hpresent : (containerdRef annotations).Recorded) :
      Source annotations (containerdRef annotations)
  | checkpointctl (hpresent : (checkpointctlRef annotations).Recorded) :
      Source annotations (checkpointctlRef annotations)

/-- CRI-O's labels are absent or can be parsed. -/
def LabelsReadable (annotations : StringMap) : Prop :=
  annotations.get criOLabelsAnnotation = "" ∨ criOLabels annotations ≠ none

/-! ### The candidates are the sources -/

variable {cs : List PodContainerRefCandidate}

section Candidates
variable {annotations : StringMap} {ref : PodContainerRef}

theorem mem_candidateIfPresent {source : String} {recorded : PodContainerRef} :
    ref ∈ (candidateIfPresent source recorded).map PodContainerRefCandidate.ref ↔
      ref = recorded ∧ recorded.Recorded := by
  unfold candidateIfPresent PodContainerRef.Recorded
  split_ifs with hnone
  · obtain ⟨hns, hpod, hcontainer⟩ := hnone
    simp [hns, hpod, hcontainer]
  · rw [not_and_or, not_and_or] at hnone
    simp [hnone]

/-- Labels that cannot be read are an error. -/
theorem criOCandidate_error_iff :
    (∃ e, criOCandidate annotations = .error e) ↔ ¬ LabelsReadable annotations := by
  unfold criOCandidate LabelsReadable criOLabels
  dsimp only
  by_cases hraw : annotations.get criOLabelsAnnotation = ""
  · simp [hraw]
  · rw [if_pos hraw]
    cases (Json.parse (annotations.get criOLabelsAnnotation).toList).bind Json.decodeStringMap with
    | none => simp [hraw]
    | some labels => simp [hraw]

/-- The candidates that the loop runs over. -/
theorem source_iff_mem (h : criOCandidate annotations = .ok cs) :
    Source annotations ref ↔ ref ∈ (cs ++ containerdCandidate annotations ++
      checkpointctlCandidate annotations).map PodContainerRefCandidate.ref := by
  have hcriO : ref ∈ cs.map PodContainerRefCandidate.ref ↔
      annotations.get criOLabelsAnnotation ≠ "" ∧
        ∃ labels, criOLabels annotations = some labels ∧ ref = labelsRef labels := by
    unfold criOCandidate at h
    unfold criOLabels
    dsimp only at h
    split_ifs at h with hraw
    · cases hparse : (Json.parse (annotations.get criOLabelsAnnotation).toList).bind
          Json.decodeStringMap with
      | none => rw [hparse] at h; exact absurd h (by simp)
      | some labels =>
        rw [hparse] at h
        obtain rfl := Except.ok.inj h
        simp [hraw, labelsRef]
    · obtain rfl := Except.ok.inj h
      simp [hraw]
  rw [List.map_append, List.map_append, List.mem_append, List.mem_append, hcriO,
    containerdCandidate, checkpointctlCandidate, mem_candidateIfPresent, mem_candidateIfPresent]
  constructor
  · intro hsource
    cases hsource with
    | criO hpresent hparse => exact Or.inl (Or.inl ⟨hpresent, _, hparse, rfl⟩)
    | containerd hpresent => exact Or.inl (Or.inr ⟨rfl, hpresent⟩)
    | checkpointctl hpresent => exact Or.inr ⟨rfl, hpresent⟩
  · rintro ((⟨hpresent, labels, hparse, rfl⟩ | ⟨rfl, hpresent⟩) | ⟨rfl, hpresent⟩)
    · exact .criO hpresent hparse
    · exact .containerd hpresent
    · exact .checkpointctl hpresent

end Candidates

/-! ### Unanimity -/

/-- The loop accepts candidates that agree with the one it has selected. -/
theorem selectCandidate_of_selected {s : PodContainerRefCandidate}
    (h : ∀ c ∈ cs, c.ref = s.ref ∧ c.ref.complete = true) :
    selectCandidate (some s) cs = .ok s.ref := by
  induction cs with
  | nil => rfl
  | cons c cs ih =>
    obtain ⟨heq, hcomplete⟩ := h c List.mem_cons_self
    have hrest := ih (fun c' hc' => h c' (List.mem_cons_of_mem c hc'))
    rw [heq] at hcomplete
    simp [selectCandidate, hcomplete, heq, hrest]

/-- The loop returns an identity exactly when there are candidates, all complete and all equal
    to it. -/
theorem selectCandidate_ok_iff {ref : PodContainerRef} :
    selectCandidate none cs = .ok ref ↔
      cs ≠ [] ∧ ∀ c ∈ cs, c.ref = ref ∧ c.ref.complete = true := by
  refine ⟨selectCandidate_ok, fun ⟨hne, hall⟩ => ?_⟩
  cases cs with
  | nil => exact absurd rfl hne
  | cons c cs =>
    obtain ⟨rfl, hcomplete⟩ := hall c List.mem_cons_self
    have hrest := selectCandidate_of_selected
      (fun c' hc' => hall c' (List.mem_cons_of_mem c hc'))
    simp [selectCandidate, hcomplete, hrest]

section Unanimous
variable {annotations : StringMap} {ref : PodContainerRef}

/-- An identity is accepted exactly when the sources are unanimous. -/
theorem podContainerRefFromAnnotations_ok_iff :
    podContainerRefFromAnnotations annotations = .ok ref ↔
      LabelsReadable annotations ∧ (∃ source, Source annotations source) ∧
        ∀ source, Source annotations source → source.complete = true ∧ source = ref := by
  unfold podContainerRefFromAnnotations
  cases hcriO : criOCandidate annotations with
  | error e =>
    have hunreadable := criOCandidate_error_iff.mp ⟨e, hcriO⟩
    simp [hunreadable]
  | ok cs =>
    have hreadable : LabelsReadable annotations := by
      by_contra hnot
      obtain ⟨e, he⟩ := criOCandidate_error_iff.mpr hnot
      exact absurd (hcriO.symm.trans he) (by simp)
    dsimp only
    rw [selectCandidate_ok_iff, and_iff_right hreadable]
    simp only [source_iff_mem hcriO, List.mem_map, forall_exists_index, and_imp,
      forall_apply_eq_imp_iff₂]
    refine and_congr ⟨fun hne => ?_, fun ⟨_, c, hc, _⟩ => List.ne_nil_of_mem hc⟩
      (forall₂_congr (fun c _ => and_comm))
    obtain ⟨c, rest, hcons⟩ := List.exists_cons_of_ne_nil hne
    exact ⟨c.ref, c, by rw [hcons]; exact List.mem_cons_self, rfl⟩

/-- A source records its namespace. -/
theorem Source.mem_recordedNamespaces (h : Source annotations ref) :
    ref.ns ∈ recordedNamespaces annotations := by
  cases h with
  | @criO labels hpresent hparse =>
    have hns : criONamespace annotations = some (labelsRef labels).ns := by
      unfold criONamespace
      unfold criOLabels at hparse
      rw [if_pos hpresent, hparse]
      rfl
    simp [recordedNamespaces, hns]
  | containerd hpresent => simp [recordedNamespaces, containerdRef]
  | checkpointctl hpresent => simp [recordedNamespaces, checkpointctlRef]

/-- Labels that are readable record a namespace, possibly the empty one. -/
theorem LabelsReadable.criONamespace (h : LabelsReadable annotations) :
    ∃ ns, criONamespace annotations = some ns := by
  unfold CheckpointRestore.criONamespace
  split_ifs with hraw
  · obtain ⟨labels, hparse⟩ := Option.ne_none_iff_exists'.mp (h.resolve_left hraw)
    unfold criOLabels at hparse
    rw [hparse]
    exact ⟨_, rfl⟩
  · exact ⟨"", rfl⟩

/-- The other reader finds the namespace of an accepted identity. -/
theorem podNamespaceFromAnnotations_of_identity
    (h : podContainerRefFromAnnotations annotations = .ok ref) (path : String) :
    podNamespaceFromAnnotations path annotations = .ok ref.ns := by
  obtain ⟨hreadable, ⟨source, hsource⟩, hall⟩ := podContainerRefFromAnnotations_ok_iff.mp h
  obtain ⟨hcomplete, rfl⟩ := hall source hsource
  have hne : source.ns ≠ "" := by
    have hparts := hcomplete
    simp only [PodContainerRef.complete, Bool.and_eq_true, bne_iff_ne] at hparts
    exact hparts.1.1
  obtain ⟨criO, hcriO⟩ := hreadable.criONamespace
  rw [podNamespaceFromAnnotations_readable hcriO]
  -- the first namespace that is recorded is that of the source
  cases hfind : (recordedNamespaces annotations).find? (· ≠ "") with
  | none =>
    have hempty : ∀ ns ∈ recordedNamespaces annotations, ns = "" := by simpa using hfind
    exact absurd (hempty _ hsource.mem_recordedNamespaces) hne
  | some ns =>
    have hmem := List.mem_of_find?_eq_some hfind
    have hns : ns ≠ "" := by simpa using List.find?_some hfind
    rcases podContainerRefFromAnnotations_agrees h ns hmem with hempty | rfl
    · exact absurd hempty hns
    · rfl

end Unanimous

/-- **Unanimous identity.**  An identity is accepted exactly when CRI-O's labels are absent or can
    be parsed, some source is present, and every source that is present is complete and records
    this identity; and then the reader of the namespace alone returns its namespace. -/
theorem identity_unanimous (annotations : StringMap) (ref : PodContainerRef) :
    (podContainerRefFromAnnotations annotations = .ok ref ↔
      LabelsReadable annotations ∧ (∃ source, Source annotations source) ∧
        ∀ source, Source annotations source → source.complete = true ∧ source = ref) ∧
    (podContainerRefFromAnnotations annotations = .ok ref → ∀ path,
      podNamespaceFromAnnotations path annotations = .ok ref.ns) :=
  ⟨podContainerRefFromAnnotations_ok_iff, podNamespaceFromAnnotations_of_identity⟩

/-- The rule at work: an archive of containerd. -/
theorem identity_unanimous_teamA :
    podNamespaceFromAnnotations "/ckpt/a.tar" (annotationMap (containerdAnnotations teamA)) =
      .ok "team-a" :=
  (identity_unanimous (annotationMap (containerdAnnotations teamA)) teamA).2 (by decide) _

end CheckpointRestore
