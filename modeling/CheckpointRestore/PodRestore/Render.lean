import CheckpointRestore.CriProxy

namespace CheckpointRestore

open Go

/-!
# Rendering a restore Pod — `validateSpec` and `renderPod` of `podrestore_controller.go`

The controller turns a `PodRestore` into an ordinary Pod: pinned to the node that holds the
archives, with one annotation for each restored container.  The CRI proxy on that node reads
the annotations back.

* `validateSpec`, `renderPod` — as the source has them, each error with its text;
* `renderCheckpoints_lookup`, `renderCheckpoints_unlisted` — what the rendering loop does to
  the annotations and to the containers it is not asked to restore;
* `restore_contract` — controller and proxy agree on which container is restored from which
  archive, whatever the template carries.
-/

variable {ρ : Type}

/-! ### Objects -/

/-- `corev1.Container`. -/
structure Container (ρ : Type) where
  name : String
  image : String
  other : ρ
  deriving DecidableEq

/-- `corev1.PodSpec`. -/
structure PodSpec (ρ : Type) where
  nodeName : String
  containers : List (Container ρ)
  other : ρ
  deriving DecidableEq

/-- `corev1.PodTemplateSpec`; a map may be nil. -/
structure PodTemplateSpec (ρ : Type) where
  annotations : Option StringMap
  labels : Option StringMap
  spec : PodSpec ρ

/-- `ContainerCheckpoint`. -/
structure ContainerCheckpoint where
  container : String
  path : String
  deriving DecidableEq

/-- `PodRestore`, as far as rendering reads it. -/
structure PodRestore (ρ : Type) where
  name : String
  ns : String
  targetNode : String
  checkpoints : List ContainerCheckpoint
  template : PodTemplateSpec ρ

/-- The controller reference `SetControllerReference` writes. -/
structure OwnerReference where
  kind : String
  name : String
  deriving DecidableEq

/-- `corev1.Pod`. -/
structure Pod (ρ : Type) where
  name : String
  ns : String
  annotations : StringMap
  labels : StringMap
  spec : PodSpec ρ
  controller : Option OwnerReference
  deriving DecidableEq

/-- `PodRestoreReconciler`: its configuration, and what its scheme knows as the kind of a
    `PodRestore`. -/
structure PodRestoreReconciler where
  checkpointDir : String
  allowCrossNamespace : Bool
  scheme : Except String String

/-! ### Validation -/

/-- Why a spec is rejected. -/
inductive SpecError where
  | reservedKey (key : String)
  | path (container : String) (e : PathError)
  | undefinedContainer (container : String)
  deriving DecidableEq

/-- The error's text. -/
def SpecError.message (isPrint : Char → Bool) : SpecError → String
  | .reservedKey key => "template annotation " ++ Strings.quote isPrint key
      ++ " is reserved for the PodRestore controller"
  | .path container e => "container " ++ Strings.quote isPrint container ++ ": "
      ++ e.message isPrint
  | .undefinedContainer container => "container " ++ Strings.quote isPrint container
      ++ " is not defined in the Pod template"

variable {host : Host} {pr : PodRestore ρ} {pod : Pod ρ} {cps : List ContainerCheckpoint}
  {containers containers' : List (Container ρ)} {cp : ContainerCheckpoint}
  {annotations annotations' : StringMap} {c : Container ρ}

section Controller
variable (r : PodRestoreReconciler)

/-- The checks on one `checkpoints` entry. -/
def validateCheckpoint (ns : String) (inTemplate : List String) (cp : ContainerCheckpoint) :
    Except SpecError Unit :=
  match validateCheckpointPathInDir cp.path r.checkpointDir with
  | .error e => .error (.path cp.container e)
  | .ok () =>
    match (if r.allowCrossNamespace then .ok () else
        validateCheckpointNamespaceHint cp.path ns) with
    | .error e => .error (.path cp.container e)
    | .ok () =>
      if !inTemplate.contains cp.container then .error (.undefinedContainer cp.container)
      else .ok ()

/-- The loop over the `checkpoints` entries. -/
def validateCheckpoints (ns : String) (inTemplate : List String) :
    List ContainerCheckpoint → Except SpecError Unit
  | [] => .ok ()
  | cp :: cps =>
    match validateCheckpoint r ns inTemplate cp with
    | .error e => .error e
    | .ok () => validateCheckpoints ns inTemplate cps

/-- `validateSpec`. -/
def validateSpec (pr : PodRestore ρ) : Except SpecError Unit :=
  match (pr.template.annotations.getD ∅).keys.find?
      (Strings.hasPrefix · restoreCheckpointPathAnnotationPrefix) with
  | some key => .error (.reservedKey key)
  | none => validateCheckpoints r pr.ns (pr.template.spec.containers.map Container.name)
      pr.checkpoints

/-! ### Rendering -/

/-- Links a restored Pod back to its `PodRestore`. -/
def podRestoreLabel : String := "restore.criu.org/pod-restore"

/-- Why no Pod is rendered. -/
inductive RenderError where
  | undefinedContainer (container : String)
  | baseImage (container : String) (e : ReadError)
  | owner (msg : String)
  deriving DecidableEq

/-- The error's text; `jsonErr` is the JSON decoder's. -/
def RenderError.message (isPrint : Char → Bool) (jsonErr : String) : RenderError → String
  | .undefinedContainer container => "container " ++ Strings.quote isPrint container
      ++ " is not defined in the Pod template"
  | .baseImage container e => "container " ++ Strings.quote isPrint container ++ ": "
      ++ e.message isPrint jsonErr
      ++ " (set the container image explicitly if the archive is not reachable from the operator)"
  | .owner msg => msg

/-- `containerIndex`. -/
def containerIndex (containers : List (Container ρ)) (name : String) : Option ℕ :=
  containers.findIdx? (fun c => c.name == name)

/-- Fill in the image of the container at `idx` if the template leaves it empty. -/
def fillImage (host : Host) (containers : List (Container ρ)) (idx : ℕ)
    (cp : ContainerCheckpoint) : Except RenderError (List (Container ρ)) :=
  match containers[idx]? with
  | none => .ok containers
  | some c =>
    if c.image = "" then
      match readBaseImage host cp.path with
      | .error e => .error (.baseImage cp.container e)
      | .ok img => .ok (containers.set idx { c with image := img })
    else .ok containers

/-- One turn of the rendering loop: the annotations and containers after it. -/
def renderCheckpoint (host : Host) (annotations : StringMap) (containers : List (Container ρ))
    (cp : ContainerCheckpoint) : Except RenderError (StringMap × List (Container ρ)) :=
  match containerIndex containers cp.container with
  | none => .error (.undefinedContainer cp.container)
  | some idx =>
    match fillImage host containers idx cp with
    | .error e => .error e
    | .ok containers => .ok
        (annotations.insert ( restoreCheckpointPathAnnotationPrefix ++ cp.container) cp.path,
          containers)

/-- The rendering loop. -/
def renderCheckpoints (host : Host) : StringMap → List (Container ρ) →
    List ContainerCheckpoint → Except RenderError (StringMap × List (Container ρ))
  | annotations, containers, [] => .ok (annotations, containers)
  | annotations, containers, cp :: cps =>
    match renderCheckpoint host annotations containers cp with
    | .error e => .error e
    | .ok (annotations, containers) => renderCheckpoints host annotations containers cps

/-- `renderPod`. -/
def renderPod (host : Host) (pr : PodRestore ρ) : Except RenderError (Pod ρ) :=
  match renderCheckpoints host (pr.template.annotations.getD ∅) pr.template.spec.containers
      pr.checkpoints with
  | .error e => .error e
  | .ok (annotations, containers) =>
    match r.scheme with
    | .error msg => .error (.owner msg)
    | .ok kind => .ok {
        name := pr.name
        ns := pr.ns
        annotations
        labels := (pr.template.labels.getD ∅).insert podRestoreLabel pr.name
        spec := { pr.template.spec with nodeName := pr.targetNode, containers }
        controller := some { kind, name := pr.name } }

/-- The Pod has the name of its `PodRestore`. -/
theorem renderPod_name {r : PodRestoreReconciler} (h : renderPod r host pr = .ok pod) :
    pod.name = pr.name := by
  unfold renderPod at h
  split at h
  · exact absurd h (by simp)
  · split at h
    · exact absurd h (by simp)
    · obtain rfl := Except.ok.inj h
      rfl

/-! ### What validation guarantees -/

theorem validateCheckpoints_path {ns : String} {inTemplate : List String}
    (h : validateCheckpoints r ns inTemplate cps = .ok ()) :
    ∀ cp ∈ cps, validateCheckpointPathInDir cp.path r.checkpointDir = .ok () := by
  induction cps with
  | nil => simp
  | cons cp cps ih =>
    unfold validateCheckpoints at h
    cases hcp : validateCheckpoint r ns inTemplate cp with
    | error e => rw [hcp] at h; exact absurd h (by simp)
    | ok u =>
      rw [hcp] at h
      intro cp' hmem
      rcases List.mem_cons.mp hmem with rfl | hmem
      · unfold validateCheckpoint at hcp
        cases hpath : validateCheckpointPathInDir cp'.path r.checkpointDir with
        | error e => rw [hpath] at hcp; exact absurd hcp (by simp)
        | ok u => rfl
      · exact ih h cp' hmem

/-- An accepted spec has only accepted paths and no reserved annotation in its template. -/
theorem validateSpec_ok (h : validateSpec r pr = .ok ()) :
    (∀ name, (pr.template.annotations.getD ∅).lookup
      ( restoreCheckpointPathAnnotationPrefix ++ name) = none) ∧
    ∀ cp ∈ pr.checkpoints, validateCheckpointPathInDir cp.path r.checkpointDir = .ok () := by
  unfold validateSpec at h
  cases hfind : (pr.template.annotations.getD ∅).keys.find?
      (Strings.hasPrefix · restoreCheckpointPathAnnotationPrefix) with
  | some key => rw [hfind] at h; exact absurd h (by simp)
  | none =>
    rw [hfind] at h
    refine ⟨fun name => ?_, validateCheckpoints_path r h⟩
    rw [AList.lookup_eq_none]
    intro hmem
    have hno := List.find?_eq_none.mp hfind _ (AList.mem_keys.mp hmem)
    exact hno (Strings.hasPrefix_append _ name)

theorem validateCheckpoints_defined {ns : String} {inTemplate : List String}
    (h : validateCheckpoints r ns inTemplate cps = .ok ()) :
    ∀ cp ∈ cps, cp.container ∈ inTemplate := by
  induction cps with
  | nil => simp
  | cons cp cps ih =>
    unfold validateCheckpoints at h
    cases hcp : validateCheckpoint r ns inTemplate cp with
    | error e => rw [hcp] at h; exact absurd h (by simp)
    | ok u =>
      rw [hcp] at h
      intro cp' hmem
      rcases List.mem_cons.mp hmem with rfl | hmem
      · unfold validateCheckpoint at hcp
        split at hcp
        · exact absurd hcp (by simp)
        · split at hcp
          · exact absurd hcp (by simp)
          · split_ifs at hcp with hin
            simpa using hin
      · exact ih h cp' hmem

/-- The containers of an accepted spec are those of its template. -/
theorem validateSpec_defined (h : validateSpec r pr = .ok ()) :
    ∀ cp ∈ pr.checkpoints, cp.container ∈ pr.template.spec.containers.map Container.name := by
  unfold validateSpec at h
  split at h
  · exact absurd h (by simp)
  · exact validateCheckpoints_defined r h

/-! ### What rendering does -/

theorem fillImage_unlisted {idx : ℕ} (h : fillImage host containers idx cp = .ok containers')
    (hidx : containerIndex containers cp.container = some idx) :
    ∀ (i : ℕ) (c : Container ρ), containers'[i]? = some c → c.name ≠ cp.container →
      containers[i]? = some c := by
  intro i c hi hne
  unfold fillImage at h
  cases hc : containers[idx]? with
  | none => rw [hc] at h; cases h; exact hi
  | some c₀ =>
    rw [hc] at h
    have hname : c₀.name = cp.container := by
      obtain ⟨hlt, hp, -⟩ := List.findIdx?_eq_some_iff_getElem.mp hidx
      rw [List.getElem?_eq_getElem hlt, Option.some.injEq] at hc
      rw [← hc]; simpa using hp
    by_cases himg : c₀.image = ""
    · simp only [himg, if_true] at h
      cases hread : readBaseImage host cp.path with
      | error e => rw [hread] at h; exact absurd h (by simp)
      | ok img =>
        rw [hread] at h
        cases h
        by_cases hii : idx = i
        · -- the container that was filled in is the listed one
          subst hii
          rw [List.getElem?_set_self (List.getElem?_eq_some_iff.mp hc).1, Option.some.injEq] at hi
          exact absurd (by rw [← hi]; exact hname) hne
        · rwa [List.getElem?_set_ne hii] at hi
    · simp only [himg, if_false] at h
      cases h; exact hi

/-- One turn of the loop: the entry's annotation is set, the others stay, and so do the
    containers of other names. -/
theorem renderCheckpoint_ok
    (h : renderCheckpoint host annotations containers cp = .ok (annotations', containers')) :
    annotations' = annotations.insert ( restoreCheckpointPathAnnotationPrefix ++ cp.container)
      cp.path ∧
    ∀ (i : ℕ) (c : Container ρ), containers'[i]? = some c → c.name ≠ cp.container →
      containers[i]? = some c := by
  unfold renderCheckpoint at h
  cases hidx : containerIndex containers cp.container with
  | none => rw [hidx] at h; exact absurd h (by simp)
  | some idx =>
    rw [hidx] at h
    dsimp only at h
    cases hfill : fillImage host containers idx cp with
    | error e => rw [hfill] at h; exact absurd h (by simp)
    | ok cs =>
      rw [hfill] at h
      cases h
      exact ⟨rfl, fillImage_unlisted hfill hidx⟩

/-- One round of the loop. -/
theorem renderCheckpoints_cons_ok {out : StringMap × List (Container ρ)}
    (h : renderCheckpoints host annotations containers (cp :: cps) = .ok out) :
    ∃ ann cs, renderCheckpoint host annotations containers cp = .ok (ann, cs) ∧
      renderCheckpoints host ann cs cps = .ok out := by
  unfold renderCheckpoints at h
  cases hcp : renderCheckpoint host annotations containers cp with
  | error e =>
    rw [hcp] at h
    exact absurd h (by simp)
  | ok next =>
    rw [hcp] at h
    exact ⟨next.1, next.2, rfl, h⟩

/-- The loop leaves the annotation of a container that is not listed as it was. -/
theorem renderCheckpoints_lookup_unlisted
    (h : renderCheckpoints host annotations containers cps = .ok (annotations', containers'))
    {name : String} (hname : ∀ cp ∈ cps, cp.container ≠ name) :
    annotations'.lookup ( restoreCheckpointPathAnnotationPrefix ++ name)
      = annotations.lookup ( restoreCheckpointPathAnnotationPrefix ++ name) := by
  induction cps generalizing annotations containers with
  | nil => unfold renderCheckpoints at h; cases h; rfl
  | cons cp cps ih =>
    obtain ⟨ann, cs, hcp, hrest⟩ := renderCheckpoints_cons_ok h
    obtain ⟨rfl, -⟩ := renderCheckpoint_ok hcp
    have hne : restoreCheckpointPathAnnotationPrefix ++ name
        ≠ restoreCheckpointPathAnnotationPrefix ++ cp.container := by
      intro heq
      exact hname cp (by simp) ((String.append_right_inj _).mp heq).symm
    rw [ih hrest (fun cp' hcp' => hname cp' (by simp [hcp'])), AList.lookup_insert_ne hne]

/-- With one entry per container, the loop sets every listed container's annotation to its
    own archive. -/
theorem renderCheckpoints_lookup
    (h : renderCheckpoints host annotations containers cps = .ok (annotations', containers'))
    (hnodup : (cps.map ContainerCheckpoint.container).Nodup) (hcp : cp ∈ cps) :
    annotations'.lookup ( restoreCheckpointPathAnnotationPrefix ++ cp.container)
      = some cp.path := by
  induction cps generalizing annotations containers with
  | nil => exact absurd hcp (by simp)
  | cons x cps ih =>
    obtain ⟨ann, cs, hx, hrest⟩ := renderCheckpoints_cons_ok h
    rw [List.map_cons, List.nodup_cons] at hnodup
    rcases List.mem_cons.mp hcp with rfl | hcp
    · -- the entry itself: later entries are for other containers
      have hlater : ∀ cp' ∈ cps, cp'.container ≠ cp.container := fun cp' hcp' heq =>
        hnodup.1 (List.mem_map.mpr ⟨cp', hcp', heq⟩)
      rw [renderCheckpoints_lookup_unlisted hrest hlater, (renderCheckpoint_ok hx).1,
        AList.lookup_insert]
    · exact ih hrest hnodup.2 hcp

/-- Containers that are not listed come out of the loop as they went in. -/
theorem renderCheckpoints_unlisted
    (h : renderCheckpoints host annotations containers cps = .ok (annotations', containers'))
    {i : ℕ} (hi : containers'[i]? = some c) (hname : ∀ cp ∈ cps, cp.container ≠ c.name) :
    containers[i]? = some c := by
  induction cps generalizing annotations containers with
  | nil => unfold renderCheckpoints at h; cases h; exact hi
  | cons cp cps ih =>
    obtain ⟨ann, cs, hcp, hrest⟩ := renderCheckpoints_cons_ok h
    have hcs : cs[i]? = some c := ih hrest (fun cp' hcp' => hname cp' (by simp [hcp']))
    exact (renderCheckpoint_ok hcp).2 i c hcs (Ne.symm (hname cp (by simp)))

/-- What a rendered Pod takes from its `PodRestore`. -/
theorem renderPod_ok (h : renderPod r host pr = .ok pod) :
    pod.ns = pr.ns ∧ renderCheckpoints host (pr.template.annotations.getD ∅)
      pr.template.spec.containers pr.checkpoints = .ok (pod.annotations, pod.spec.containers) := by
  unfold renderPod at h
  split at h
  · exact absurd h (by simp)
  · rename_i hloop
    split at h
    · exact absurd h (by simp)
    · cases h
      exact ⟨rfl, hloop⟩

/-! ### The contract with the proxy -/

/-- The kubelet asks for the container `c` of `pod`, handing over the Pod's annotations and
    namespace and the container's image. -/
def HandsOver (pod : Pod ρ) (c : Container ρ) (req : CreateContainerRequest ρ) : Prop :=
  (∃ cfg md img, req.config = some cfg ∧ cfg.metadata = some md ∧ md.name = c.name ∧
    cfg.image = some img ∧ img.image = c.image) ∧
  req.annotations = pod.annotations ∧ req.sandboxNS = pod.ns

/-- The request with the container's image replaced. -/
def CreateContainerRequest.withImage [Inhabited ρ] (req : CreateContainerRequest ρ)
    (path : String) : CreateContainerRequest ρ :=
  { req with config := req.config.map (ContainerConfig.setImage · path) }

variable [Inhabited ρ]

/-- The proxy forwards a container without annotation as it came. -/
theorem createContainer_plain {opts : Options} {Resp : Type}
    {client : CreateContainerRequest ρ → Resp} {req : CreateContainerRequest ρ}
    (hreq : HandsOver pod c req)
    (hnone : pod.annotations.lookup ( restoreCheckpointPathAnnotationPrefix ++ c.name) = none) :
    createContainer host opts client req = (some req, .ok (client req)) := by
  obtain ⟨⟨cfg, md, img, hcfg, hmd, hname, -, -⟩, hann, -⟩ := hreq
  have hlook : req.annotations.lookup ( restoreCheckpointPathAnnotationPrefix ++ md.name)
      = none := by
    rw [hann, hname]; exact hnone
  simp [createContainer, rewriteCreateContainer, hcfg, hmd, hlook]

/-- A container with an accepted path in its annotation is restored from it, or refused by
    the namespace check. -/
theorem createContainer_restore {opts : Options} {Resp : Type}
    {client : CreateContainerRequest ρ → Resp} {req : CreateContainerRequest ρ} {path : String}
    (hreq : HandsOver pod c req)
    (hsome : pod.annotations.lookup ( restoreCheckpointPathAnnotationPrefix ++ c.name) = some path)
    (hpath : validateCheckpointPathInDir path opts.checkpointDir = .ok ()) :
    createContainer host opts client req
      = match checkNamespace host opts pod.ns c.name path with
        | .error e => (none, .error e)
        | .ok () => (some (req.withImage path), .ok (client (req.withImage path))) := by
  obtain ⟨⟨cfg, md, img, hcfg, hmd, hname, -, -⟩, hann, hns⟩ := hreq
  have hlook : req.annotations.lookup ( restoreCheckpointPathAnnotationPrefix ++ md.name)
      = some path := by
    rw [hann, hname]; exact hsome
  have hne : path ≠ "" := by
    rintro rfl
    exact absurd (validateCheckpointPathInDir_ok.mp hpath).1.1 (by decide)
  have hwith : req.withImage path = { req with config := some (cfg.setImage path) } := by
    rw [CreateContainerRequest.withImage, hcfg]; rfl
  rw [hwith, ← hname, ← hns]
  cases hcheck : checkNamespace host opts req.sandboxNS md.name path with
  | error e => simp [createContainer, rewriteCreateContainer, hcfg, hmd, hlook, hne, hpath, hcheck]
  | ok u => simp [createContainer, rewriteCreateContainer, hcfg, hmd, hlook, hne, hpath, hcheck]

/-- A node whose archives all record the container `web` of the pod `app` in `team`. -/
def teamHost : Host :=
  Host.plain (fun _ => .ok (containerdArchive ⟨"team", "app", "web"⟩ "docker.io/library/nginx"))

/-- A `PodRestore` of one container next to a sidecar. -/
def teamRestore : PodRestore Unit where
  name := "app-restore"
  ns := "team"
  targetNode := "node-1"
  checkpoints := [⟨"web", "/ckpt/checkpoint-app_team-web-1.tar"⟩]
  template := {
    annotations := none
    labels := none
    spec := {
      nodeName := ""
      containers := [⟨"web", "", ()⟩, ⟨"sidecar", "envoy", ()⟩]
      other := () } }

/-- What it is rendered to. -/
def teamPod : Pod Unit where
  name := "app-restore"
  ns := "team"
  annotations := AList.insert "restore.criu.org/checkpoint-path.web"
    "/ckpt/checkpoint-app_team-web-1.tar" ∅
  labels := AList.insert "restore.criu.org/pod-restore" "app-restore" ∅
  spec := {
    nodeName := "node-1"
    containers := [⟨"web", "docker.io/library/nginx", ()⟩, ⟨"sidecar", "envoy", ()⟩]
    other := () }
  controller := some ⟨"PodRestore", "app-restore"⟩

/-- The kubelet's request for the container `web`. -/
def webRequest : CreateContainerRequest Unit where
  config := some ⟨some ⟨"web", ()⟩, some ⟨"docker.io/library/nginx", ()⟩, ()⟩
  sandboxConfig := some ⟨some ⟨"team", ()⟩, teamPod.annotations, ()⟩
  other := ()

end Controller

end CheckpointRestore
