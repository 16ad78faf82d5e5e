import CheckpointRestore.Api.CheckpointPath
import CheckpointRestore.Archive

namespace CheckpointRestore

open Go Go.Filepath

/-!
# The CRI proxy — `internal/criproxy/proxy.go`

The proxy sits between the kubelet and the runtime.  `CreateContainer` is the one call it
does not simply forward: when the sandbox annotations name a checkpoint for the container,
the container's image becomes the path of the archive.

* `rewriteCreateContainer` — the request after the call, and the path or the error;
* `createContainer` — what goes upstream, and the answer to the kubelet;
* `rewriteCreateContainer_cases` — the four things a call can do, with every guard;
* `createContainer_fails_closed` — nothing is forwarded after an error, and a forwarded
  request differs from the received one in the image only.
-/

/-! ### CRI messages

Fields the proxy does not read are kept in `other`; a sub-message may be absent. -/

variable {ρ : Type}

/-- `runtimeapi.ContainerMetadata`. -/
structure ContainerMetadata (ρ : Type) where
  name : String
  other : ρ
  deriving DecidableEq

/-- `runtimeapi.ImageSpec`. -/
structure ImageSpec (ρ : Type) where
  image : String
  other : ρ
  deriving DecidableEq

/-- `runtimeapi.ContainerConfig`. -/
structure ContainerConfig (ρ : Type) where
  metadata : Option (ContainerMetadata ρ)
  image : Option (ImageSpec ρ)
  other : ρ
  deriving DecidableEq

/-- `runtimeapi.PodSandboxMetadata`. -/
structure PodSandboxMetadata (ρ : Type) where
  ns : String
  other : ρ
  deriving DecidableEq

/-- `runtimeapi.PodSandboxConfig`. -/
structure PodSandboxConfig (ρ : Type) where
  metadata : Option (PodSandboxMetadata ρ)
  annotations : StringMap
  other : ρ
  deriving DecidableEq

/-- `runtimeapi.CreateContainerRequest`. -/
structure CreateContainerRequest (ρ : Type) where
  config : Option (ContainerConfig ρ)
  sandboxConfig : Option (PodSandboxConfig ρ)
  other : ρ
  deriving DecidableEq

/-- `GetSandboxConfig().GetAnnotations()`, nil-safe. -/
def CreateContainerRequest.annotations (req : CreateContainerRequest ρ) : StringMap :=
  match req.sandboxConfig with
  | none => ∅
  | some sandbox => sandbox.annotations

/-- `GetSandboxConfig().GetMetadata().GetNamespace()`, nil-safe. -/
def CreateContainerRequest.sandboxNS (req : CreateContainerRequest ρ) : String :=
  match req.sandboxConfig.bind PodSandboxConfig.metadata with
  | none => ""
  | some md => md.ns

/-- `cfg.Image.Image = path`, the `ImageSpec` being created if it is absent. -/
def ContainerConfig.setImage [Inhabited ρ] (cfg : ContainerConfig ρ) (path : String) :
    ContainerConfig ρ :=
  match cfg.image with
  | some img => { cfg with image := some { img with image := path } }
  | none => { cfg with image := some { image := path, other := default } }

/-! ### The proxy -/

/-- The restore checks the proxy is configured with. -/
structure Options where
  checkpointDir : String
  allowCrossNamespace : Bool

/-- The gRPC status codes the proxy answers with itself. -/
inductive Code where
  | invalidArgument
  | permissionDenied
  deriving DecidableEq

/-- Why a restore is refused. -/
inductive ProxyError where
  | invalidPath (name : String) (e : PathError)
  | noSandboxNamespace (name : String)
  | unverified (name : String) (e : ReadError)
  | otherNamespace (name archiveNS sandboxNS : String)
  deriving DecidableEq

/-- The status code of a refusal. -/
def ProxyError.code : ProxyError → Code
  | .invalidPath _ _ => .invalidArgument
  | _ => .permissionDenied

/-- The status message of a refusal; `jsonErr` is the JSON decoder's text. -/
def ProxyError.message (isPrint : Char → Bool) (jsonErr : String) : ProxyError → String
  | .invalidPath name e => "invalid restore checkpoint path for container "
      ++ Strings.quote isPrint name ++ ": " ++ e.message isPrint
  | .noSandboxNamespace name => "restore for container " ++ Strings.quote isPrint name
      ++ " denied: pod sandbox records no namespace"
  | .unverified name e => "restore for container " ++ Strings.quote isPrint name
      ++ " denied: cannot verify checkpoint namespace: " ++ e.message isPrint jsonErr
  | .otherNamespace name archiveNS sandboxNS => "restore for container "
      ++ Strings.quote isPrint name ++ " denied: checkpoint belongs to namespace "
      ++ Strings.quote isPrint archiveNS ++ ", sandbox is in " ++ Strings.quote isPrint sandboxNS

section Proxy
variable [Inhabited ρ] (host : Host) (opts : Options)

/-- The namespace check: skipped when cross-namespace restores are allowed. -/
def checkNamespace (sandboxNS name path : String) : Except ProxyError Unit :=
  if opts.allowCrossNamespace then .ok ()
  else if sandboxNS = "" then .error (.noSandboxNamespace name)
  else match readPodNamespace host path with
    | .error e => .error (.unverified name e)
    | .ok archiveNS =>
      if archiveNS ≠ sandboxNS then .error (.otherNamespace name archiveNS sandboxNS) else .ok ()

/-- `rewriteCreateContainer`: the request afterwards, and the path it was rewritten to, the
    empty string if no restore is requested, or the refusal. -/
def rewriteCreateContainer (req : CreateContainerRequest ρ) :
    CreateContainerRequest ρ × Except ProxyError String :=
  match req.config with
  | none => (req, .ok "")
  | some cfg =>
    match cfg.metadata with
    | none => (req, .ok "")
    | some md =>
      match req.annotations.lookup ( restoreCheckpointPathAnnotationPrefix ++ md.name) with
      | none => (req, .ok "")
      | some path =>
        if path = "" then (req, .ok "")
        else match validateCheckpointPathInDir path opts.checkpointDir with
          | .error e => (req, .error (.invalidPath md.name e))
          | .ok () =>
            match checkNamespace host opts req.sandboxNS md.name path with
            | .error e => (req, .error e)
            | .ok () => ({ req with config := some (cfg.setImage path) }, .ok path)

/-- `RuntimeProxy.CreateContainer`: the request sent upstream, if any, and the answer.
    `client` is the upstream runtime, its own errors part of the response. -/
def createContainer {Resp : Type} (client : CreateContainerRequest ρ → Resp)
    (req : CreateContainerRequest ρ) :
    Option (CreateContainerRequest ρ) × Except ProxyError Resp :=
  match rewriteCreateContainer host opts req with
  | (_, .error e) => (none, .error e)
  | (fwd, .ok _) => (some fwd, .ok (client fwd))

/-! ### What a call does -/

/-- The restore a request asks for: the container and the archive its annotation names. -/
def Requests (req : CreateContainerRequest ρ) (cfg : ContainerConfig ρ) (name path : String) :
    Prop :=
  req.config = some cfg ∧ (∃ md, cfg.metadata = some md ∧ md.name = name) ∧
    req.annotations.lookup ( restoreCheckpointPathAnnotationPrefix ++ name) = some path ∧
    path ≠ ""

/-- The four outcomes of a call: no restore is requested, the path is refused, the namespace
    is refused, or the image is rewritten. -/
theorem rewriteCreateContainer_cases (req : CreateContainerRequest ρ) :
    ((∀ cfg name path, ¬ Requests req cfg name path) ∧
      rewriteCreateContainer host opts req = (req, .ok "")) ∨
    ∃ cfg name path, Requests req cfg name path ∧
      ((∃ e, validateCheckpointPathInDir path opts.checkpointDir = .error e ∧
          rewriteCreateContainer host opts req = (req, .error (.invalidPath name e))) ∨
        validateCheckpointPathInDir path opts.checkpointDir = .ok () ∧
          ((∃ e, checkNamespace host opts req.sandboxNS name path = .error e ∧
              rewriteCreateContainer host opts req = (req, .error e)) ∨
            checkNamespace host opts req.sandboxNS name path = .ok () ∧
              rewriteCreateContainer host opts req
                = ({ req with config := some (cfg.setImage path) }, .ok path))) := by
  unfold rewriteCreateContainer
  cases hcfg : req.config with
  | none =>
    left
    exact ⟨fun cfg name path h => absurd (hcfg.symm.trans h.1) (by simp), rfl⟩
  | some cfg =>
    cases hmd : cfg.metadata with
    | none =>
      left
      refine ⟨fun cfg' name path h => ?_, by simp [hmd]⟩
      have hc : cfg = cfg' := Option.some.inj (hcfg.symm.trans h.1)
      obtain ⟨md, hmd', -⟩ := h.2.1
      rw [← hc, hmd] at hmd'
      exact absurd hmd' (by simp)
    | some md =>
      -- the container's name is fixed now; every other request for it is this one
      have huniq : ∀ cfg' name path, Requests req cfg' name path → name = md.name := by
        intro cfg' name path h
        have hc : cfg = cfg' := Option.some.inj (hcfg.symm.trans h.1)
        obtain ⟨md', hmd', rfl⟩ := h.2.1
        rw [← hc, hmd] at hmd'
        rw [Option.some.inj hmd']
      cases hpath : req.annotations.lookup ( restoreCheckpointPathAnnotationPrefix ++ md.name) with
      | none =>
        left
        refine ⟨fun cfg' name path h => ?_, by simp [hmd, hpath]⟩
        have hl := h.2.2.1
        rw [huniq cfg' name path h, hpath] at hl
        exact absurd hl (by simp)
      | some path =>
        by_cases hp : path = ""
        · left
          refine ⟨fun cfg' name path' h => ?_, by simp [hmd, hpath, hp]⟩
          have hl := h.2.2.1
          rw [huniq cfg' name path' h, hpath, Option.some.injEq] at hl
          exact h.2.2.2 (hl ▸ hp)
        · right
          refine ⟨cfg, md.name, path, ⟨hcfg, ⟨md, hmd, rfl⟩, hpath, hp⟩, ?_⟩
          cases hv : validateCheckpointPathInDir path opts.checkpointDir with
          | error e => left; exact ⟨e, rfl, by simp [hmd, hpath, hp, hv]⟩
          | ok u =>
            right
            refine ⟨rfl, ?_⟩
            cases hn : checkNamespace host opts req.sandboxNS md.name path with
            | error e => left; exact ⟨e, rfl, by simp [hmd, hpath, hp, hv, hn]⟩
            | ok u => right; exact ⟨rfl, by simp [hmd, hpath, hp, hv, hn]⟩

/-- What passing the namespace check means. -/
theorem checkNamespace_ok_iff {sandboxNS name path : String} :
    checkNamespace host opts sandboxNS name path = .ok ()
      ↔ opts.allowCrossNamespace = true ∨
        sandboxNS ≠ "" ∧ readPodNamespace host path = .ok sandboxNS := by
  unfold checkNamespace
  by_cases hallow : opts.allowCrossNamespace = true
  · simp [hallow]
  by_cases hns : sandboxNS = ""
  · simp [hallow, hns]
  cases hread : readPodNamespace host path with
  | error e => simp [hallow, hns]
  | ok archiveNS =>
    by_cases heq : archiveNS = sandboxNS <;> simp [hallow, hns, heq]

/-- A failed namespace check is answered with `PermissionDenied`. -/
theorem checkNamespace_error_code {sandboxNS name path : String} {e : ProxyError}
    (h : checkNamespace host opts sandboxNS name path = .error e) : e.code = .permissionDenied := by
  unfold checkNamespace at h
  split_ifs at h
  · cases h; rfl
  split at h
  · cases h; rfl
  split_ifs at h
  cases h; rfl

/-- **The proxy fails closed and touches nothing but the image.**  An error leaves the request
    as it was and forwards nothing.  A forwarded request that differs from the received one
    differs in the image only, which is the non-empty annotation of this very container: a
    clean absolute path of a `.tar` file directly in the enforced directory, whose archive
    belongs to the sandbox's namespace unless cross-namespace restores are allowed.  In every
    other case the request goes upstream as it came. -/
theorem createContainer_fails_closed {Resp : Type} (client : CreateContainerRequest ρ → Resp)
    (req : CreateContainerRequest ρ) :
    (∀ e, (rewriteCreateContainer host opts req).2 = .error e →
      (rewriteCreateContainer host opts req).1 = req ∧
      createContainer host opts client req = (none, .error e)) ∧
    (∀ fwd, (createContainer host opts client req).1 = some fwd → fwd ≠ req →
      ∃ cfg md path, req.config = some cfg ∧ cfg.metadata = some md ∧
        fwd = { req with config := some { cfg with
                  image := some { cfg.image.getD { image := "", other := default } with
                    image := path } } } ∧
        req.annotations.lookup ( restoreCheckpointPathAnnotationPrefix ++ md.name) = some path ∧
        path ≠ "" ∧ isAbs path = true ∧ clean path = path ∧
        TarIn (clean (if opts.checkpointDir = "" then defaultCheckpointDir
          else opts.checkpointDir)) path ∧
        (opts.allowCrossNamespace = true ∨
          req.sandboxNS ≠ "" ∧ readPodNamespace host path = .ok req.sandboxNS)) ∧
    ((∀ e, (rewriteCreateContainer host opts req).2 ≠ .error e) →
      ∃ fwd, createContainer host opts client req = (some fwd, .ok (client fwd)) ∧
        ((rewriteCreateContainer host opts req).2 = .ok "" → fwd = req)) := by
  rcases rewriteCreateContainer_cases host opts req with
    ⟨-, hrw⟩ | ⟨cfg, name, path, hreq, ⟨e, -, hrw⟩ | ⟨hval, ⟨e, -, hrw⟩ | ⟨hns, hrw⟩⟩⟩
  · -- no restore requested
    refine ⟨fun e he => absurd he (by simp [hrw]), fun fwd hf hne => ?_, fun _ => ?_⟩
    · simp only [createContainer, hrw, Option.some.injEq] at hf
      exact absurd hf.symm hne
    · exact ⟨req, by simp [createContainer, hrw], fun _ => rfl⟩
  · -- path refused
    refine ⟨fun e' he => ?_, fun fwd hf _ => ?_, fun hok => ?_⟩
    · rw [hrw] at he ⊢
      cases he
      exact ⟨rfl, by simp [createContainer, hrw]⟩
    · exact absurd hf (by simp [createContainer, hrw])
    · exact absurd (by rw [hrw]) (hok (.invalidPath name e))
  · -- namespace refused
    refine ⟨fun e' he => ?_, fun fwd hf _ => ?_, fun hok => ?_⟩
    · rw [hrw] at he ⊢
      cases he
      exact ⟨rfl, by simp [createContainer, hrw]⟩
    · exact absurd hf (by simp [createContainer, hrw])
    · exact absurd (by rw [hrw]) (hok e)
  · -- rewritten
    refine ⟨fun e he => absurd he (by simp [hrw]), fun fwd hf _ => ?_, fun _ => ?_⟩
    · simp only [createContainer, hrw, Option.some.injEq] at hf
      obtain ⟨hcfg, ⟨md, hmd, rfl⟩, hlook, hne⟩ := hreq
      obtain ⟨⟨habs, hclean, -⟩, -⟩ := validateCheckpointPathInDir_ok.mp hval
      have htar := (validateCheckpointPathInDir_ok_iff.mp hval).2
      have himg : cfg.setImage path = { cfg with
          image := some { cfg.image.getD { image := "", other := default } with
            image := path } } := by
        unfold ContainerConfig.setImage
        cases cfg.image <;> rfl
      refine ⟨cfg, md, path, hcfg, hmd, ?_, hlook, hne, habs, hclean, htar,
        (checkNamespace_ok_iff host opts).mp hns⟩
      rw [← hf, himg]
    · refine ⟨{ req with config := some (cfg.setImage path) }, by simp [createContainer, hrw],
        fun h => ?_⟩
      rw [hrw, Except.ok.injEq] at h
      exact absurd h hreq.2.2.2

end Proxy

end CheckpointRestore
