import CheckpointRestore.PodRestore.Render
import CheckpointRestore.Retention.Names

namespace CheckpointRestore

open Go

/-!
# Admission — the limits on the metadata of a rendered Pod

The API server refuses a Pod with a label value or the name part of an annotation key of more
than 63 characters.  The controller writes one label, whose value is the name of the
`PodRestore`, and one annotation for each checkpoint, whose key holds the name of a container:
names that may themselves be longer, or as long.

* `WithinLimits` — what the API server requires of labels and annotations;
* `mem_renderCheckpoints` — the keys the rendering loop writes;
* `renderPod_withinLimits_iff` — when a rendered Pod is within the limits.
-/

variable {ρ : Type} {r : PodRestoreReconciler} {host : Host}

/-! ### The limits -/

/-- The name part of a qualified key: what follows the `/`. -/
def namePart (key : String) : String :=
  match Strings.cut key '/' with
  | some (_, name) => name
  | none => key

/-- The limits on the metadata of an object. -/
structure WithinLimits (labels annotations : StringMap) : Prop where
  /-- No label value is longer than 63 characters. -/
  value : ∀ key value, labels.lookup key = some value → value.length ≤ 63
  /-- No name part of an annotation's key is longer than 63 characters. -/
  name : ∀ key ∈ annotations, (namePart key).length ≤ 63

/-- The key of a container's annotation has 16 characters before the container's name. -/
theorem length_namePart_path (container : String) :
    (namePart ( restoreCheckpointPathAnnotationPrefix ++ container)).length
      = 16 + container.length := by
  have hsplit : restoreCheckpointPathAnnotationPrefix ++ container
      = "restore.criu.org" ++ String.ofList ['/'] ++ ("checkpoint-path." ++ container) := by
    rw [← String.append_assoc]
    rfl
  have hcut : Strings.cut ("restore.criu.org" ++ String.ofList ['/'] ++
      ("checkpoint-path." ++ container)) '/'
        = some ("restore.criu.org", "checkpoint-path." ++ container) :=
    Strings.cut_append (by decide)
  unfold namePart
  rw [hsplit, hcut]
  show ("checkpoint-path." ++ container).length = _
  rw [String.length_append]
  rfl

/-! ### What the controller writes -/

/-- The annotations after the rendering loop: those before it and one for each entry. -/
theorem mem_renderCheckpoints {cps : List ContainerCheckpoint}
    {annotations annotations' : StringMap} {containers containers' : List (Container ρ)}
    (h : renderCheckpoints host annotations containers cps = .ok (annotations', containers'))
    (key : String) :
    key ∈ annotations' ↔ key ∈ annotations ∨
      ∃ cp ∈ cps, key = restoreCheckpointPathAnnotationPrefix ++ cp.container := by
  induction cps generalizing annotations containers with
  | nil => unfold renderCheckpoints at h; cases h; simp
  | cons cp cps ih =>
    obtain ⟨ann, cs, hcp, hrest⟩ := renderCheckpoints_cons_ok h
    obtain ⟨rfl, -⟩ := renderCheckpoint_ok hcp
    rw [ih hrest, AList.mem_insert, List.exists_mem_cons_iff]
    tauto

theorem renderPod_labels {pr : PodRestore ρ} {pod : Pod ρ} (h : renderPod r host pr = .ok pod) :
    pod.labels = (pr.template.labels.getD ∅).insert podRestoreLabel pr.name := by
  unfold renderPod at h
  split at h
  · exact absurd h (by simp)
  · split at h
    · exact absurd h (by simp)
    · obtain rfl := Except.ok.inj h
      rfl

/-- **Which rendered Pods can be admitted.** Where the template is within the limits, the Pod is
    exactly if the name of the `PodRestore` fits a label and the name of every restored
    container leaves room for the 16 characters before it. -/
theorem renderPod_withinLimits_iff {pr : PodRestore ρ} {pod : Pod ρ}
    (htemplate : WithinLimits (pr.template.labels.getD ∅) (pr.template.annotations.getD ∅))
    (h : renderPod r host pr = .ok pod) :
    WithinLimits pod.labels pod.annotations ↔
      pr.name.length ≤ 63 ∧ ∀ cp ∈ pr.checkpoints, cp.container.length ≤ 47 := by
  have hlabels := renderPod_labels h
  have hkeys := mem_renderCheckpoints (renderPod_ok r h).2
  constructor
  · intro hpod
    refine ⟨hpod.value podRestoreLabel pr.name ?_, fun cp hcp => ?_⟩
    · rw [hlabels, AList.lookup_insert]
    · have hkey := hpod.name _ ((hkeys _).mpr (Or.inr ⟨cp, hcp, rfl⟩))
      rw [length_namePart_path] at hkey
      omega
  · rintro ⟨hname, hcontainers⟩
    refine ⟨fun key value hvalue => ?_, fun key hkey => ?_⟩
    · rw [hlabels] at hvalue
      by_cases hown : key = podRestoreLabel
      · rw [hown, AList.lookup_insert] at hvalue
        exact Option.some.inj hvalue ▸ hname
      · rw [AList.lookup_insert_ne hown] at hvalue
        exact htemplate.value key value hvalue
    · rcases (hkeys key).mp hkey with hown | ⟨cp, hcp, rfl⟩
      · exact htemplate.name key hown
      · have hcontainer := hcontainers cp hcp
        rw [length_namePart_path]
        omega

/-- A `PodRestore` of one container, with names of the given lengths. -/
def namedRestore (name container : ℕ) : PodRestore Unit where
  name := String.ofList (List.replicate name 'a')
  ns := "team"
  targetNode := "node-1"
  checkpoints := [⟨String.ofList (List.replicate container 'c'),
    "/ckpt/checkpoint-app_team-c-1.tar"⟩]
  template := {
    annotations := none
    labels := none
    spec := {
      nodeName := ""
      containers := [⟨String.ofList (List.replicate container 'c'), "nginx", ()⟩]
      other := () } }

/-- What it is rendered to. -/
def namedPod (name container : ℕ) : Pod Unit where
  name := String.ofList (List.replicate name 'a')
  ns := "team"
  annotations := AList.insert
    ( restoreCheckpointPathAnnotationPrefix ++ String.ofList (List.replicate container 'c'))
    "/ckpt/checkpoint-app_team-c-1.tar" ∅
  labels := AList.insert podRestoreLabel (String.ofList (List.replicate name 'a')) ∅
  spec := {
    nodeName := "node-1"
    containers := [⟨String.ofList (List.replicate container 'c'), "nginx", ()⟩]
    other := () }
  controller := some ⟨"PodRestore", String.ofList (List.replicate name 'a')⟩

theorem renderPod_named (host : Host) (name container : ℕ) :
    renderPod ⟨"/ckpt", false, .ok "PodRestore"⟩ host (namedRestore name container)
      = .ok (namedPod name container) := by
  have hidx : containerIndex (namedRestore name container).template.spec.containers
      (String.ofList (List.replicate container 'c')) = some 0 := by
    simp [containerIndex, namedRestore]
  have hfill : fillImage host (namedRestore name container).template.spec.containers 0
      ⟨String.ofList (List.replicate container 'c'), "/ckpt/checkpoint-app_team-c-1.tar"⟩
        = .ok (namedRestore name container).template.spec.containers := rfl
  have hcheckpoints : (namedRestore name container).checkpoints
      = [⟨String.ofList (List.replicate container 'c'), "/ckpt/checkpoint-app_team-c-1.tar"⟩] := rfl
  simp only [renderPod, renderCheckpoints, renderCheckpoint, hcheckpoints, hidx, hfill]
  rfl

/-- The longest names that fit. -/
theorem renderPod_withinLimits_longest :
    WithinLimits (namedPod 63 47).labels (namedPod 63 47).annotations :=
  (renderPod_withinLimits_iff ⟨by simp [namedRestore], by simp [namedRestore]⟩
    (renderPod_named teamHost 63 47)).mpr ⟨by decide, by decide⟩

/-- Valid names one character longer are accepted and rendered, to a Pod that breaks both
    limits. -/
theorem accepted_not_admissible :
    Retention.validSubdomain (namedRestore 64 48).name = true ∧
    (∀ cp ∈ (namedRestore 64 48).checkpoints, Retention.validLabel cp.container = true) ∧
    validateSpec ⟨"/ckpt", false, .ok "PodRestore"⟩ (namedRestore 64 48) = .ok () ∧
    renderPod ⟨"/ckpt", false, .ok "PodRestore"⟩ teamHost (namedRestore 64 48)
      = .ok (namedPod 64 48) ∧
    (∃ value, (namedPod 64 48).labels.lookup podRestoreLabel = some value ∧ 63 < value.length) ∧
    ∃ key ∈ (namedPod 64 48).annotations, 63 < (namePart key).length := by
  refine ⟨by decide, by decide, by decide, renderPod_named teamHost 64 48, ?_, ?_⟩
  · exact ⟨_, AList.lookup_insert _, by decide⟩
  · exact ⟨_, (AList.mem_insert _).mpr (Or.inl rfl), by rw [length_namePart_path]; decide⟩

end CheckpointRestore
