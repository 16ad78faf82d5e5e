import CheckpointRestore.Archive

namespace CheckpointRestore

open Go

/-!
# The namespace of an archive

An archive can record the namespace of its pod in three places: in CRI-O's kubelet labels, in
containerd's sandbox annotation and in that of checkpointctl.  `ReadPodNamespace`, which decides
who may restore from the archive, takes the first that is not empty; `ReadPodContainerRef`, which
reads the same annotations for the garbage collector, rejects places that disagree.

* `recordedNamespaces` — what the three places say;
* `readPodNamespace_eq` — the namespace that is read, from these;
* `podContainerRefFromAnnotations_agrees` — the sibling: all places agree with what is read;
* `readPodNamespace_unambiguous_iff` — when the namespace that is read is the only one;
* `conflict_accepted` — an archive that belongs to two namespaces.
-/

/-! ### The three places -/

/-- The namespace in CRI-O's kubelet labels, empty where there is none; `none` if the labels
    cannot be parsed. -/
def criONamespace (annotations : StringMap) : Option String :=
  if annotations.get criOLabelsAnnotation ≠ "" then
    ((Json.parse (annotations.get criOLabelsAnnotation).toList).bind Json.decodeStringMap).map
      (fun labels => StringMap.get labels kubernetesPodNamespaceLabel)
  else some ""

/-- What the three places record, empty where they record nothing. -/
def recordedNamespaces (annotations : StringMap) : List String :=
  [(criONamespace annotations).getD "", annotations.get containerdSandboxNamespaceAnnotation,
   annotations.get checkpointAnnotationNamespace]

/-- Two places record different namespaces. -/
def Conflicting (annotations : StringMap) : Prop :=
  ∃ a ∈ recordedNamespaces annotations, ∃ b ∈ recordedNamespaces annotations,
    a ≠ "" ∧ b ≠ "" ∧ a ≠ b

/-- Labels that cannot be parsed are refused. -/
theorem podNamespaceFromAnnotations_unreadable {annotations : StringMap}
    (h : criONamespace annotations = none) (path : String) :
    podNamespaceFromAnnotations path annotations = .error (.labels path) := by
  unfold criONamespace at h
  split_ifs at h with hraw
  rw [Option.map_eq_none_iff] at h
  unfold podNamespaceFromAnnotations
  dsimp only
  rw [if_pos hraw, h]

/-- Otherwise the first namespace that is recorded is read. -/
theorem podNamespaceFromAnnotations_readable {annotations : StringMap} {criO : String}
    (h : criONamespace annotations = some criO) (path : String) :
    podNamespaceFromAnnotations path annotations =
      ((recordedNamespaces annotations).find? (· ≠ "")).elim (.error (.noNamespace path)) .ok := by
  have hlabels : ∃ labels, (if annotations.get criOLabelsAnnotation ≠ "" then
      (Json.parse (annotations.get criOLabelsAnnotation).toList).bind Json.decodeStringMap
      else some ∅) = some labels ∧ StringMap.get labels kubernetesPodNamespaceLabel = criO := by
    unfold criONamespace at h
    split_ifs at h ⊢ with hraw
    · exact Option.map_eq_some_iff.mp h
    · exact ⟨∅, rfl, Option.some.inj h⟩
  obtain ⟨labels, hparse, rfl⟩ := hlabels
  unfold podNamespaceFromAnnotations recordedNamespaces
  dsimp only
  rw [hparse, h, Option.getD_some]
  dsimp only
  split_ifs with hcriO hcontainerd hcheckpointctl
  · simp [hcriO]
  · rw [not_not] at hcriO
    simp [hcriO, hcontainerd]
  · rw [not_not] at hcriO hcontainerd
    simp [hcriO, hcontainerd, hcheckpointctl]
  · rw [not_not] at hcriO hcontainerd hcheckpointctl
    simp [hcriO, hcontainerd, hcheckpointctl]

/-! ### The sibling that rejects conflicts -/

/-- A candidate that agrees with the identity records its namespace, if any. -/
theorem ns_of_candidateIfPresent {source : String} {ref selected : PodContainerRef}
    (h : ∀ c ∈ candidateIfPresent source ref, c.ref = selected) :
    ref.ns = "" ∨ ref.ns = selected.ns := by
  unfold candidateIfPresent at h
  split_ifs at h with hempty
  · exact Or.inl hempty.1
  · rw [← h ⟨source, ref⟩ List.mem_cons_self]
    exact Or.inr rfl

/-- Every place agrees with the identity that the annotations give. -/
theorem podContainerRefFromAnnotations_agrees {annotations : StringMap} {ref : PodContainerRef}
    (hidentity : podContainerRefFromAnnotations annotations = .ok ref) :
    ∀ ns ∈ recordedNamespaces annotations, ns = "" ∨ ns = ref.ns := by
  unfold podContainerRefFromAnnotations at hidentity
  cases hcriO : criOCandidate annotations with
  | error e =>
    rw [hcriO] at hidentity
    exact absurd hidentity (by simp)
  | ok candidates =>
    rw [hcriO] at hidentity
    have hall := (selectCandidate_ok hidentity).2
    -- CRI-O's labels are one of the candidates, or are not there
    have hlabels : criONamespace annotations = some "" ∨
        criONamespace annotations = some ref.ns := by
      unfold criOCandidate at hcriO
      unfold criONamespace
      dsimp only at hcriO
      split_ifs at hcriO ⊢ with hraw
      · cases hparse : (Json.parse (annotations.get criOLabelsAnnotation).toList).bind
            Json.decodeStringMap with
        | none => rw [hparse] at hcriO; exact absurd hcriO (by simp)
        | some labels =>
          rw [hparse] at hcriO
          cases hcriO
          have hfirst := (hall _ List.mem_cons_self).1
          exact Or.inr (by rw [← hfirst]; rfl)
      · exact Or.inl rfl
    intro ns hns
    simp only [recordedNamespaces, List.mem_cons, List.not_mem_nil, or_false] at hns
    rcases hns with rfl | rfl | rfl
    · rcases hlabels with hlabels | hlabels
      · exact Or.inl (by rw [hlabels]; rfl)
      · exact Or.inr (by rw [hlabels]; rfl)
    · exact ns_of_candidateIfPresent (fun c hc => (hall c (by
        rw [containerdCandidate, List.append_assoc]
        exact List.mem_append_right _ (List.mem_append_left _ hc))).1)
    · exact ns_of_candidateIfPresent (fun c hc => (hall c (List.mem_append_right _ hc)).1)

/-! ### When the namespace is unambiguous -/

/-- **The namespace is unambiguous**, that is, all places agree with the one that is read and an
    archive in two namespaces is rejected, exactly if the labels cannot be parsed or no two
    places record different namespaces. -/
theorem readPodNamespace_unambiguous_iff {host : Host} {path : String} {annotations : StringMap}
    (h : extractSpecDump host path = .ok annotations) :
    ((∀ ns, readPodNamespace host path = .ok ns →
        ∀ other ∈ recordedNamespaces annotations, other = "" ∨ other = ns) ∧
      (Conflicting annotations → ∃ e, readPodNamespace host path = .error e)) ↔
    criONamespace annotations = none ∨ ¬ Conflicting annotations := by
  have hread : readPodNamespace host path = podNamespaceFromAnnotations path annotations := by
    rw [readPodNamespace, h]
  rw [hread]
  cases hcriO : criONamespace annotations with
  | none =>
    rw [podNamespaceFromAnnotations_unreadable hcriO]
    exact ⟨fun _ => Or.inl rfl, fun _ => ⟨fun ns hns => absurd hns (by simp), fun _ => ⟨_, rfl⟩⟩⟩
  | some criO =>
    rw [podNamespaceFromAnnotations_readable hcriO]
    cases hfind : (recordedNamespaces annotations).find? (· ≠ "") with
    | none =>
      have hempty : ∀ ns ∈ recordedNamespaces annotations, ns = "" := by simpa using hfind
      have hno : ¬ Conflicting annotations := by
        rintro ⟨a, ha, -, -, hne, -⟩
        exact hne (hempty a ha)
      exact ⟨fun _ => Or.inr hno,
        fun _ => ⟨fun ns hns => absurd hns (by simp), fun hconflict => absurd hconflict hno⟩⟩
    | some ns =>
      have hmem : ns ∈ recordedNamespaces annotations := List.mem_of_find?_eq_some hfind
      have hne : ns ≠ "" := by simpa using List.find?_some hfind
      constructor
      -- a first namespace is read, so an archive with a second one is not rejected
      · rintro ⟨-, hreject⟩
        refine Or.inr (fun hconflict => ?_)
        obtain ⟨e, he⟩ := hreject hconflict
        exact absurd he (by simp)
      · rintro (hnone | hno)
        · exact absurd hnone (by simp)
        · refine ⟨?_, fun hconflict => absurd hconflict hno⟩
          rintro ns' hns' other hother
          obtain rfl : ns = ns' := Except.ok.inj hns'
          by_contra hdiffers
          rw [not_or] at hdiffers
          exact hno ⟨other, hother, ns, hmem, hdiffers.1, hne, hdiffers.2⟩

/-! ### An archive that belongs to two namespaces -/

/-- CRI-O's labels of a container. -/
def kubeletLabels (ref : PodContainerRef) : String :=
  String.ofList (Json.encodeObject [(kubernetesPodNamespaceLabel, Json.encodeString ref.ns),
    (kubernetesPodNameLabel, Json.encodeString ref.pod),
    (kubernetesContainerNameLabel, Json.encodeString ref.container)])

/-- Labels of one container and containerd annotations of another. -/
def mixedAnnotations (labels sandbox : PodContainerRef) : List (String × String) :=
  ( criOLabelsAnnotation, kubeletLabels labels) :: containerdAnnotations sandbox

/-- A node with such an archive. -/
def mixedHost (labels sandbox : PodContainerRef) : Host :=
  Host.plain (fun _ => .ok ⟨[⟨"spec.dump", typeReg,
    Json.encodeRunes (annotatedSpec (mixedAnnotations labels sandbox)), none⟩,
    ⟨"config.dump", typeReg, [], none⟩], none⟩)

/-- A container of the namespace `team-a`. -/
def teamA : PodContainerRef := ⟨"team-a", "web", "app"⟩

/-- A container of the namespace `team-b`. -/
def teamB : PodContainerRef := ⟨"team-b", "web", "app"⟩

/-- The namespace that containerd records is unambiguous. -/
theorem readPodNamespace_unambiguous_teamA :
    extractSpecDump (Host.plain (fun _ => .ok (containerdArchive teamA ""))) "/ckpt/a.tar"
      = .ok (annotationMap (containerdAnnotations teamA)) ∧
    ∀ ns, readPodNamespace (Host.plain (fun _ => .ok (containerdArchive teamA ""))) "/ckpt/a.tar"
        = .ok ns →
      ∀ other ∈ recordedNamespaces (annotationMap (containerdAnnotations teamA)),
        other = "" ∨ other = ns := by
  have hextract : extractSpecDump (Host.plain (fun _ => .ok (containerdArchive teamA "")))
      "/ckpt/a.tar" = .ok (annotationMap (containerdAnnotations teamA)) :=
    extractSpecDump_containerdArchive rfl ((Json.length_encodeRunes_le _).trans (by decide +kernel))
  have hnamespaces : recordedNamespaces (annotationMap (containerdAnnotations teamA))
      = ["", "team-a", ""] := rfl
  have hagree : ¬ Conflicting (annotationMap (containerdAnnotations teamA)) := by
    rw [Conflicting, hnamespaces]
    decide
  exact ⟨hextract, ((readPodNamespace_unambiguous_iff hextract).mpr (Or.inr hagree)).1⟩

/-- The archive is taken for one of `team-a`, although it also records `team-b`; the sibling
    rejects it. -/
theorem conflict_accepted :
    extractSpecDump (mixedHost teamA teamB) "/ckpt/a.tar"
      = .ok (annotationMap (mixedAnnotations teamA teamB)) ∧
    readPodNamespace (mixedHost teamA teamB) "/ckpt/a.tar" = .ok "team-a" ∧
    "team-b" ∈ recordedNamespaces (annotationMap (mixedAnnotations teamA teamB)) ∧
    readPodContainerRef (mixedHost teamA teamB) "/ckpt/a.tar" = .error (.identity "/ckpt/a.tar"
      (.conflicting criOLabelsAnnotation "containerd CRI annotations")) := by
  have hsize : (Json.encodeRunes (annotatedSpec (mixedAnnotations teamA teamB))).length
      ≤ maxExtractedFileSize := (Json.length_encodeRunes_le _).trans (by decide +kernel)
  refine ⟨extractSpecDump_annotated (List.cons_ne_nil _ _) rfl hsize, ?_⟩
  decide +kernel

end CheckpointRestore
