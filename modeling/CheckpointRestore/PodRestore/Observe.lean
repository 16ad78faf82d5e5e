import CheckpointRestore.PodRestore.BaseImage
import CheckpointRestore.PodRestore.Release

namespace CheckpointRestore.Restore

open Interaction Go Go.Filepath
open Pinning
open Forensic (Condition ConditionStatus setStatusCondition said said_setStatusCondition
  setStatusCondition_eq_self_iff)

/-!
# What a reconcile observes — the exits of a live `PodRestore`

Where nothing fails, what a reconcile of a live object does is a function of what it finds: the
conditions it sets, the Pod it records, the Pod it creates and the archives it pins.

* `Pinned` — a pin of the archive has nothing to do; a pin brings it about and keeps it;
* `Observation` — what one reconcile says and does, and `observe`, which reads it off the cluster;
* `runs_reconcile` — every run without a failure does what `observe` says.
-/

variable {ρ : Type}

/-! ### Pinning again -/

variable {pinned : Bool} {cps : List ContainerCheckpoint}

section Pinning
variable {s s' : FS} {tr : List (Event fsSig)} {path owner q : String}

/-- The path of an archive. -/
def IsTar (path : String) : Prop := ".tar".toList <:+ path.toList

theorem IsTar.getLast? (h : IsTar q) : q.toList.getLast? = some 'r' := by
  obtain ⟨stem, hstem⟩ := h
  rw [← hstem, List.getLast?_append]
  rfl

theorem IsTar.ne_keepPath (h : IsTar q) (path : String) : q ≠ keepPath path := by
  rintro rfl
  have hlast := h.getLast?
  have hkeep : ".keep".toList.getLast? = some 'p' := by decide
  rw [keepPath, String.toList_append, List.getLast?_append, hkeep] at hlast
  exact absurd (Option.some.inj hlast) (by decide)

theorem IsTar.ne_tmpPath (h : IsTar q) (path : String) : q ≠ tmpPath path := by
  rintro rfl
  have hlast := h.getLast?
  have htmp : ".tmp".toList.getLast? = some 'p' := by decide
  rw [tmpPath, String.toList_append, List.getLast?_append, htmp] at hlast
  exact absurd (Option.some.inj hlast) (by decide)

theorem lookup_tar (h : Frame path s s') (hq : IsTar q) : s'.lookup q = s.lookup q :=
  h q (hq.ne_keepPath _) (hq.ne_tmpPath _)

/-- Pinning the archive has nothing to do: it is not there, its marker is not the controller's, or
    the marker lists the owner. -/
def Pinned (fs : FS) (path owner : String) : Prop :=
  path ∈ fs → ∃ content, keepContent fs path = some content ∧
    ∀ marker, parsePodRestorePinMarker content = some marker → owner ∈ marker.owners

theorem pinned_afterPin (h : keepContent s' path = afterPin owner (keepContent s path)) :
    Pinned s' path owner := by
  intro _
  rw [h]
  rcases afterPin_cases owner (keepContent s path) with
    ⟨content, hcontent, heq, hin⟩ | ⟨owners, -, -, heq⟩
  · exact ⟨content, heq.trans hcontent, hin⟩
  · refine ⟨_, heq, fun marker hmarker => ?_⟩
    rw [parse_markerData] at hmarker
    obtain rfl := Option.some.inj hmarker
    exact mem_sortStrings.mpr (by simp)

/-- What a pin without a failure does. -/
theorem runs_pin (h : Runs (FsOp.act FsOp.noFault) (pinCheckpoint path owner) s tr pinned s') :
    Frame path s s' ∧ (pinned = true ↔ path ∈ s) ∧ Pinned s' path owner := by
  obtain ⟨hframe, heffect⟩ := runs_pinCheckpoint h
  rcases heffect with ⟨hout, rfl, rfl⟩ | ⟨hin, ⟨rfl, hafter⟩ | ⟨hfalse, -⟩⟩
  · exact ⟨hframe, by simp [hout], fun hin => absurd hin hout⟩
  · exact ⟨hframe, by simp [hin], pinned_afterPin hafter⟩
  · exact absurd hfalse FsOp.not_noFault

/-- A pin that has nothing to do leaves every file as it is. -/
theorem runs_pin_pinned (hpinned : Pinned s path owner)
    (h : Runs (FsOp.act FsOp.noFault) (pinCheckpoint path owner) s tr pinned s') : s' = s := by
  unfold pinCheckpoint at h
  obtain ⟨x, tr₂, s₁, -, hact, hrest⟩ := h.of_call
  obtain ⟨hx, rfl⟩ := hact
  obtain rfl : x = s₁.stat path := hx.resolve_right (fun h => h.1)
  cases hx : s₁.stat path with
  | none =>
    rw [hx] at hrest
    exact hrest.of_pure.2.2
  | some info =>
    have hin : path ∈ s₁ := FS.stat_isSome.mp (Option.isSome_iff_exists.mpr ⟨info, hx⟩)
    obtain ⟨content, hcontent, hlists⟩ := hpinned hin
    obtain ⟨file, hlookup, rfl⟩ := Option.map_eq_some_iff.mp hcontent
    rw [hx] at hrest
    unfold pinLocked at hrest
    obtain ⟨y, tr₄, s₂, -, ⟨rfl, hread⟩, hlast⟩ := hrest.of_call
    rw [hlookup] at hread
    obtain rfl : y = .ok file.content := hread.resolve_right (fun h => h.1)
    dsimp only at hlast
    cases hparse : parsePodRestorePinMarker file.content with
    | none =>
      rw [hparse] at hlast
      exact hlast.of_pure.2.2
    | some marker =>
      have hlisted : marker.owners.contains owner = true := by simpa using hlists marker hparse
      rw [hparse] at hlast
      dsimp only at hlast
      rw [if_pos hlisted] at hlast
      exact hlast.of_pure.2.2

/-- A pin keeps what is pinned. -/
theorem Pinned.of_pin (hq : Pinned s q owner) (htar : IsTar q)
    (h : Runs (FsOp.act FsOp.noFault) (pinCheckpoint path owner) s tr pinned s') :
    Pinned s' q owner := by
  by_cases hpath : q = path
  · subst hpath
    rw [runs_pin_pinned hq h]
    exact hq
  · obtain ⟨hframe, -⟩ := runs_pin h
    intro hin
    rw [keepContent_of_frame hframe hpath]
    rw [← AList.lookup_isSome, lookup_tar hframe htar, AList.lookup_isSome] at hin
    exact hq hin

variable {r : PodRestoreReconciler} {m : Machine} {c c' : Cluster ρ} {tr : List (Event (sig ρ))}

/-- What pinning leaves: the archives as they were, each of them pinned, and everything as it was
    where all were pinned. -/
structure AfterPins (owner : String) (cps : List ContainerCheckpoint) (s s' : FS) : Prop where
  lookup : ∀ q, IsTar q → s'.lookup q = s.lookup q
  kept : ∀ q, IsTar q → Pinned s q owner → Pinned s' q owner
  pinned : ∀ cp ∈ cps, Pinned s' cp.path owner
  same : (∀ cp ∈ cps, Pinned s cp.path owner) → s' = s

/-- The loop, from any result so far. -/
theorem runs_pinLoop (htar : ∀ cp ∈ cps, IsTar cp.path) {start all : Bool}
    (h : Runs (Cluster.act r m False) (cps.foldlM (fun all cp => do
      let pinned ← pin cp.path owner
      return all && pinned) start) c tr all c') :
    (all = true ↔ start = true ∧ ∀ cp ∈ cps, cp.path ∈ c.fs) ∧
    ∃ fs, c' = { c with fs } ∧ AfterPins owner cps c.fs fs := by
  induction cps generalizing start c tr with
  | nil =>
    obtain ⟨-, rfl, rfl⟩ := h.of_pure
    exact ⟨by simp, c'.fs, rfl, fun _ _ => rfl, fun _ _ => id, by simp, fun _ => rfl⟩
  | cons cp cps ih =>
    rw [List.foldlM_cons] at h
    obtain ⟨tr₁, tr₂, b, c₁, -, hfirst, hrest⟩ := h.of_bind
    obtain ⟨(pinned : Bool), tr₄, c₂, -, ⟨tr₅, fs₁, hrun, rfl⟩, hpure⟩ := hfirst.of_call
    obtain ⟨-, rfl, rfl⟩ := hpure.of_pure
    obtain ⟨hframe, hresult, hdone⟩ := runs_pin hrun
    have hcp : IsTar cp.path := htar cp (by simp)
    have hcps : ∀ cp ∈ cps, IsTar cp.path := fun x hx => htar x (List.mem_cons_of_mem _ hx)
    obtain ⟨hall, fs, rfl, hafter⟩ := ih hcps hrest
    have hmem : ∀ x ∈ cps, (x.path ∈ fs₁ ↔ x.path ∈ c.fs) := by
      intro x hx
      rw [← AList.lookup_isSome, lookup_tar hframe (hcps x hx), AList.lookup_isSome]
    refine ⟨?_, fs, rfl, fun q hq => ?_, fun q hq hp => ?_, fun x hx => ?_, fun hp => ?_⟩
    · rw [hall, Bool.and_eq_true, hresult, List.forall_mem_cons, and_assoc]
      exact and_congr_right (fun _ => and_congr_right (fun _ => forall₂_congr hmem))
    · rw [hafter.lookup q hq, lookup_tar hframe hq]
    · exact hafter.kept q hq (hp.of_pin hq hrun)
    · rcases List.mem_cons.mp hx with rfl | hx
      · exact hafter.kept _ hcp hdone
      · exact hafter.pinned x hx
    · -- the first pin changes nothing, so the others find what they found
      have hfs : fs₁ = c.fs := runs_pin_pinned (hp cp (by simp)) hrun
      have hrest : ∀ x ∈ cps, Pinned fs₁ x.path owner := by
        intro x hx
        rw [hfs]
        exact hp x (List.mem_cons_of_mem _ hx)
      rw [hafter.same hrest]
      exact hfs

/-- **Pinning.**  Whether all archives are there is what is returned. -/
theorem runs_pinAll (htar : ∀ cp ∈ cps, IsTar cp.path) {all : Bool}
    (h : Runs (Cluster.act r m False) (pinAll owner cps) c tr all c') :
    (all = true ↔ ∀ cp ∈ cps, cp.path ∈ c.fs) ∧
    ∃ fs, c' = { c with fs } ∧ AfterPins owner cps c.fs fs := by
  obtain ⟨hall, hafter⟩ := runs_pinLoop htar h
  exact ⟨by rw [hall]; simp, hafter⟩

end Pinning

/-! ### Observations -/

/-- Storing a status cuts its times, not what it says. -/
theorem said_stored (st : PodRestoreStatus) (type : String) :
    said st.stored.conditions type = said st.conditions type := by
  unfold said PodRestoreStatus.stored
  rw [List.find?_map, Option.map_map]
  rfl

/-- What an exit says: the Pod it records, if any, and the `Ready` condition. -/
structure Report where
  podName : Option String
  status : ConditionStatus
  reason : String
  message : String
  deriving DecidableEq

/-- What a reconcile says and does: whether all archives were there when it pinned them, if it did,
    what it reports, whether it rendered the Pod, and the Pod it created. -/
structure Observation (ρ : Type) where
  pinned : Option Bool
  report : Report
  rendered : Bool
  created : Option (Pod ρ)

section Observe
variable (r : PodRestoreReconciler) (m : Machine) (isPrint : Char → Bool) (jsonErr : String)
  (key : ObjectKey) (o : PodRestoreObject ρ)

/-- What is said of a Pod. -/
def reportPod (pod : PodObject ρ) : Report :=
  if pod.controllerUID = some o.uid then
    ⟨some pod.pod.name, (podState pod).1, (podState pod).2.1, (podState pod).2.2.1⟩
  else ⟨none, .false, "PodConflict", conflictMessage isPrint pod⟩

/-- The observation behind the checks. -/
def observePod (pinned : Bool) (s : Cluster ρ) : Observation ρ :=
  match s.pods key with
  | some pod => ⟨pinned, reportPod isPrint o pod, false, none⟩
  | none =>
    if o.status.podName = "" then
      match renderPod r (m.host s.fs s.temps) (o.podRestore key) with
      | .error e =>
        ⟨pinned, ⟨none, .false, "RenderFailed", e.message isPrint jsonErr⟩, true, none⟩
      | .ok pod => ⟨pinned, reportPod isPrint o (newPod o pod), true, some pod⟩
    else ⟨pinned, ⟨none, .false, "PodMissing", "restore Pod disappeared"⟩, false, none⟩

/-- What a reconcile of a live object observes where `range` has the given order. -/
def observe (order : List String) (s : Cluster ρ) : Observation ρ :=
  match validateSpecIn r order (o.podRestore key) with
  | .error e => ⟨none, ⟨none, .false, "InvalidSpec", e.message isPrint⟩, false, none⟩
  | .ok () =>
    if o.targetNode ∈ s.nodes then
      observePod r m isPrint jsonErr key o (decide (∀ cp ∈ o.checkpoints, cp.path ∈ s.fs)) s
    else ⟨none, ⟨none, .false, "NodeNotFound", nodeMessage isPrint o⟩, false, none⟩

variable {r m isPrint jsonErr key o}

/-- The status at an exit that reports `rep`, from the status so far. -/
def Report.statusOf (rep : Report) (o : PodRestoreObject ρ) (st : PodRestoreStatus) (t : ℤ) :
    PodRestoreStatus :=
  { ({ st with podName := rep.podName.getD st.podName }).set
      (condition conditionReady o.generation rep.status rep.reason rep.message t) with
    observedGeneration := o.generation }

/-- The status once the archives were pinned. -/
def Observation.pinnedStatus (ob : Observation ρ) (o : PodRestoreObject ρ) (t : ℤ) :
    PodRestoreStatus :=
  match ob.pinned with
  | none => o.status
  | some all => o.status.set (pinnedCondition o all t)

/-- The status that an observation leads to. -/
def Observation.statusOf (ob : Observation ρ) (o : PodRestoreObject ρ) (t t' : ℤ) :
    PodRestoreStatus :=
  ob.report.statusOf o (ob.pinnedStatus o t) t'

/-- The cluster once the Pod was rendered and created. -/
def Cluster.made (s : Cluster ρ) (key : ObjectKey) (o : PodRestoreObject ρ)
    (ob : Observation ρ) : Cluster ρ :=
  let s₁ := if ob.rendered = true then { s with temps := s.temps + 1 } else s
  match ob.created with
  | none => s₁
  | some pod => s₁.putPod key (newPod o pod)

/-- The cluster once the status was saved. -/
def Cluster.saved (s : Cluster ρ) (key : ObjectKey) (o : PodRestoreObject ρ)
    (st : PodRestoreStatus) : Cluster ρ :=
  if o.status = st then s else s.store key { o with status := st.stored }

end Observe

/-! ### Runs -/

/-- The writes among the calls. -/
def Writes : RestoreOp ρ → Prop
  | .patchFinalizers _ _ | .createPod _ _ | .updateStatus _ _ _ => True
  | _ => False

instance decidableWrites : (op : RestoreOp ρ) → Decidable (Writes op)
  | .patchFinalizers _ _ | .createPod _ _ | .updateStatus _ _ _ => .isTrue trivial
  | .get _ | .rangeKeys _ | .getNode _ | .pin _ _ | .unpin _ _ | .getPod _ | .render _ | .now
  | .other _ => .isFalse id

instance (e : Event (sig ρ)) : Decidable (Writes e.op) := decidableWrites e.op

/-- Nothing was written. -/
def Quiet (tr : List (Event (sig ρ))) : Prop := ∀ e ∈ tr, ¬ Writes e.op

theorem quiet_append {tr tr' : List (Event (sig ρ))} :
    Quiet (tr ++ tr') ↔ Quiet tr ∧ Quiet tr' := List.forall_mem_append

theorem quiet_singleton {e : Event (sig ρ)} : Quiet [e] ↔ ¬ Writes e.op := by
  simp [Quiet]

variable {st : PodRestoreStatus}

section Runs
variable {r : PodRestoreReconciler} {m : Machine} {isPrint : Char → Bool} {jsonErr : String}
  {key : ObjectKey} {o : PodRestoreObject ρ} {s s' : Cluster ρ} {tr : List (Event (sig ρ))}
  {x : Result}

theorem apiCall_false {α : Type} {good : α × Cluster ρ} {bad y : α}
    (h : apiCall False good bad s y s') : y = good.1 ∧ s' = good.2 :=
  h.resolve_right (fun h => h.1)

/-- The exit that reports `rep`: the status is written if it differs from what was read. -/
def Saves (key : ObjectKey) (o : PodRestoreObject ρ) (st : PodRestoreStatus) (rep : Report)
    (s : Cluster ρ) (tr : List (Event (sig ρ))) (s' : Cluster ρ) : Prop :=
  ∃ t, (Quiet tr ↔ o.status = rep.statusOf o st t) ∧ s' = s.saved key o (rep.statusOf o st t)

theorem runs_report (rep : Report) {result : Result} (hobj : s.objects key = some o)
    (h : Runs (Cluster.act r m False) (report key o
      { st with podName := rep.podName.getD st.podName } rep.status rep.reason rep.message result)
      s tr x s') :
    Saves key o st rep s tr s' := by
  unfold report at h
  obtain ⟨t, tr₂, s₁, rfl, rfl, hsave⟩ := h.of_call
  refine ⟨t, ?_⟩
  rw [quiet_append, quiet_singleton]
  unfold saveStatus at hsave
  unfold Cluster.saved Report.statusOf
  split_ifs at hsave ⊢ with hsame
  · obtain ⟨rfl, -, rfl⟩ := hsave.of_pure
    exact ⟨by simp [hsame, Quiet, Writes], rfl⟩
  · obtain ⟨y, tr₄, s₂, rfl, hact, hlast⟩ := hsave.of_call
    obtain ⟨rfl, rfl⟩ := apiCall_false hact
    -- nobody has changed the object since it was read
    have hanswer : ∀ st', s₁.updateAnswer key o.resourceVersion st'
        = (true, s₁.store key { o with status := st'.stored }) := by
      intro st'
      simp [Cluster.updateAnswer, hobj]
    rw [hanswer] at hlast
    obtain ⟨rfl, -, rfl⟩ := hlast.of_pure
    exact ⟨by simp [hsame, Quiet, Writes], rfl⟩

/-- The end of a reconcile that has a Pod. -/
theorem runs_adopt {pod : PodObject ρ} (hobj : s.objects key = some o)
    (h : Runs (Cluster.act r m False) (adopt isPrint key o st pod) s tr x s') :
    Saves key o st (reportPod isPrint o pod) s tr s' := by
  unfold adopt at h
  unfold reportPod
  split_ifs at h ⊢ with howned
  · exact runs_report ⟨some pod.pod.name, (podState pod).1, (podState pod).2.1,
      (podState pod).2.2.1⟩ hobj h
  · exact runs_report ⟨none, .false, "PodConflict", conflictMessage isPrint pod⟩ hobj h

/-- What is done behind the checks: the Pod is rendered and created as observed, and the status is
    saved. -/
def Ensures (key : ObjectKey) (o : PodRestoreObject ρ) (st : PodRestoreStatus)
    (ob : Observation ρ) (s : Cluster ρ) (tr : List (Event (sig ρ))) (s' : Cluster ρ) : Prop :=
  ∃ tr₁ tr₂, tr = tr₁ ++ tr₂ ∧ (Quiet tr₁ ↔ ob.created = none) ∧
    Saves key o st ob.report (s.made key o ob) tr₂ s'

/-- There is no Pod and none was recorded. -/
theorem runs_renderAndCreate (pinned : Bool)
    (hobj : s.objects key = some o) (hpods : s.pods key = none) (hname : o.status.podName = "")
    (h : Runs (Cluster.act r m False) (renderAndCreate isPrint jsonErr key o st) s tr x s') :
    Ensures key o st (observePod r m isPrint jsonErr key o pinned s) s tr s' := by
  unfold renderAndCreate at h
  obtain ⟨rendered, tr₂, s₁, rfl, ⟨rfl, hout⟩, hrest⟩ := h.of_call
  -- nothing fails, so what is rendered is what the files give
  obtain rfl := hout.resolve_right (fun h => h.1)
  have hquiet : ∀ y, Quiet [(⟨.render (o.podRestore key), y⟩ : Event (sig ρ))] := by
    intro y
    simp [Quiet, Writes]
  cases hout : renderPod r (m.host s.fs s.temps) (o.podRestore key) with
  | error e =>
    rw [hout] at hrest
    have hob : observePod r m isPrint jsonErr key o pinned s
        = ⟨pinned, ⟨none, .false, "RenderFailed", e.message isPrint jsonErr⟩, true, none⟩ := by
      simp [observePod, hpods, hname, hout]
    rw [hob]
    exact ⟨_, tr₂, rfl, iff_of_true (hquiet _) rfl,
      runs_report ⟨none, .false, "RenderFailed", e.message isPrint jsonErr⟩ hobj hrest⟩
  | ok pod =>
    rw [hout] at hrest
    have hob : observePod r m isPrint jsonErr key o pinned s
        = ⟨pinned, reportPod isPrint o (newPod o pod), true, some pod⟩ := by
      simp [observePod, hpods, hname, hout]
    rw [hob]
    dsimp only at hrest
    unfold createRendered at hrest
    obtain ⟨reply, tr₄, s₂, rfl, hact, hlast⟩ := hrest.of_call
    obtain ⟨rfl, rfl⟩ := apiCall_false hact
    -- there was no Pod, so the creation has no conflict
    have hanswer : ({ s with temps := s.temps + 1 } : Cluster ρ).createAnswer key (newPod o pod)
        = (.created, ({ s with temps := s.temps + 1 } : Cluster ρ).putPod key (newPod o pod)) := by
      simp [Cluster.createAnswer, hpods]
    rw [hanswer] at hlast
    refine ⟨_ :: [_], tr₄, rfl, ?_, runs_adopt hobj hlast⟩
    simp [Quiet, Writes]

/-- Behind the checks. -/
theorem runs_ensurePod (pinned : Bool) (hobj : s.objects key = some o)
    (hname : st.podName = o.status.podName)
    (h : Runs (Cluster.act r m False) (ensurePod isPrint jsonErr key o st) s tr x s') :
    Ensures key o st (observePod r m isPrint jsonErr key o pinned s) s tr s' := by
  unfold ensurePod at h
  obtain ⟨found, tr₂, s₁, rfl, hact, hrest⟩ := h.of_call
  obtain ⟨rfl, rfl⟩ := apiCall_false hact
  have hquiet : ∀ y, Quiet [(⟨.getPod key, y⟩ : Event (sig ρ))] := by
    intro y
    simp [Quiet, Writes]
  cases hpods : s₁.pods key with
  | some pod =>
    rw [hpods] at hrest
    have hob : observePod r m isPrint jsonErr key o pinned s₁
        = ⟨pinned, reportPod isPrint o pod, false, none⟩ := by
      simp [observePod, hpods]
    rw [hob]
    exact ⟨_, tr₂, rfl, iff_of_true (hquiet _) rfl, runs_adopt hobj hrest⟩
  | none =>
    rw [hpods] at hrest
    dsimp only [Cluster.read] at hrest
    by_cases hempty : o.status.podName = ""
    -- no name is recorded: the Pod is rendered and created
    · rw [hname, hempty] at hrest
      obtain ⟨tr₃, tr₄, rfl, hcreated, hsaves⟩ :=
        runs_renderAndCreate pinned hobj hpods hempty hrest
      refine ⟨_ :: tr₃, tr₄, rfl, ?_, hsaves⟩
      rw [← hcreated, ← List.singleton_append, quiet_append]
      exact and_iff_right (hquiet _)
    -- a name is recorded: the Pod was there once and is not created again
    · rw [hname, decide_eq_false hempty] at hrest
      have hob : observePod r m isPrint jsonErr key o pinned s₁
          = ⟨pinned, ⟨none, .false, "PodMissing", "restore Pod disappeared"⟩, false, none⟩ := by
        simp [observePod, hpods, hempty]
      rw [hob]
      exact ⟨_, tr₂, rfl, iff_of_true (hquiet _) rfl,
        runs_report ⟨none, .false, "PodMissing", "restore Pod disappeared"⟩ hobj hrest⟩

/-- Pinning makes no difference to what is rendered. -/
theorem observePod_fs {fs : FS} (hfs : ∀ p ∈ o.paths, fs.lookup p = s.fs.lookup p) :
    observePod r m isPrint jsonErr key o pinned { s with fs }
      = observePod r m isPrint jsonErr key o pinned s := by
  have hrender : renderPod r (m.host fs s.temps) (o.podRestore key)
      = renderPod r (m.host s.fs s.temps) (o.podRestore key) := by
    rcases renderPod_temp m s.fs r (o.podRestore key) with ⟨y, -, hy⟩ | ⟨c, text, -, htext⟩
    · exact (hy fs _ hfs).trans (hy s.fs _ (fun _ _ => rfl)).symm
    · exact (htext fs _ hfs).trans (htext s.fs _ (fun _ _ => rfl)).symm
  unfold observePod
  rw [hrender]

theorem isTar_of_valid {order : List String}
    (h : validateSpecIn r order (o.podRestore key) = .ok ()) :
    ∀ cp ∈ o.checkpoints, IsTar cp.path := by
  intro cp hcp
  unfold validateSpecIn at h
  split at h
  · exact absurd h (by simp)
  · have hpath := validateCheckpoints_path r h cp hcp
    obtain ⟨-, name, -, htar, heq⟩ := validateCheckpointPathInDir_ok_iff.mp hpath
    have hlist : cp.path.toList = under (clean (enforcedDir r.checkpointDir)).toList name := by
      rw [heq, String.toList_ofList]
    unfold IsTar
    rw [hlist]
    exact htar.trans (suffix_under _ _)

theorem pinAll_issues {owner : String} :
    Issues (S := sig ρ) (fun op => ∃ path, op = .pin path owner) (pinAll owner cps) :=
  Issues.foldlM (fun _ cp => Issues.bind (Issues.perform ⟨cp.path, rfl⟩) (fun _ => Issues.pure _)) _

theorem pin_not_writes {owner : String} {op : RestoreOp ρ} (h : ∃ path, op = .pin path owner) :
    ¬ Writes op := by
  obtain ⟨path, rfl⟩ := h
  exact id

/-- What the archives and markers are after a reconcile that pinned them, or did not. -/
def PinsAs (key : ObjectKey) (o : PodRestoreObject ρ) : Option Bool → FS → FS → Prop
  | none, fs, fs' => fs' = fs
  | some _, fs, fs' => AfterPins (podRestoreOwnerKey key) o.checkpoints fs fs'

/-- What was observed is what was done: the archives are pinned, the Pod is made, the status is
    saved, and nothing is written where there is no Pod to create and the status is as it was. -/
def Follows (key : ObjectKey) (o : PodRestoreObject ρ) (ob : Observation ρ) (s : Cluster ρ)
    (tr : List (Event (sig ρ))) (s' : Cluster ρ) : Prop :=
  ∃ fs t t', PinsAs key o ob.pinned s.fs fs ∧
    (Quiet tr ↔ ob.created = none ∧ o.status = ob.statusOf o t t') ∧
    s' = (({ s with fs } : Cluster ρ).made key o ob).saved key o (ob.statusOf o t t')

theorem Follows.cons {ob : Observation ρ} {e : Event (sig ρ)} (he : ¬ Writes e.op)
    (h : Follows key o ob s tr s') : Follows key o ob s (e :: tr) s' := by
  obtain ⟨fs, t, t', hpins, hquiet, hs⟩ := h
  refine ⟨fs, t, t', hpins, ?_, hs⟩
  rw [← List.singleton_append, quiet_append, quiet_singleton, hquiet]
  exact and_iff_right he

/-- An exit before anything is done. -/
theorem Follows.of_saves {rep : Report} (h : Saves key o o.status rep s tr s') :
    Follows key o ⟨none, rep, false, none⟩ s tr s' := by
  obtain ⟨t, hquiet, hs⟩ := h
  exact ⟨s.fs, 0, t, rfl, by rw [hquiet]; exact (and_iff_right rfl).symm, hs⟩

theorem observePod_pinned (pinned : Bool) (s : Cluster ρ) :
    (observePod r m isPrint jsonErr key o pinned s).pinned = some pinned := by
  unfold observePod
  split
  · rfl
  · split_ifs
    · split <;> rfl
    · rfl

/-- Pinning, and what is behind it. -/
theorem runs_pinAndRestore (hobj : s.objects key = some o)
    (htar : ∀ cp ∈ o.checkpoints, IsTar cp.path)
    (h : Runs (Cluster.act r m False) (pinAndRestore isPrint jsonErr key o) s tr x s') :
    Follows key o (observePod r m isPrint jsonErr key o
      (decide (∀ cp ∈ o.checkpoints, cp.path ∈ s.fs)) s) s tr s' := by
  unfold pinAndRestore at h
  obtain ⟨tr₁, tr₂, all, s₁, rfl, hpin, hrest⟩ := h.of_bind
  have hpins : Quiet tr₁ := fun e he => pin_not_writes (pinAll_issues.of_runs hpin e he)
  obtain ⟨hall, fs, rfl, hafter⟩ := runs_pinAll htar hpin
  obtain rfl : all = decide (∀ cp ∈ o.checkpoints, cp.path ∈ s.fs) := by
    rw [Bool.eq_iff_iff, decide_eq_true_eq]
    exact hall
  obtain ⟨t, tr₄, s₂, rfl, rfl, hensure⟩ := hrest.of_call
  generalize hall : decide (∀ cp ∈ o.checkpoints, cp.path ∈ s.fs) = all at hensure ⊢
  have hname : (o.status.set (pinnedCondition o all t)).podName = o.status.podName := rfl
  obtain ⟨tr₅, tr₆, rfl, hcreated, t', hquiet, hs⟩ :=
    runs_ensurePod (s := { s with fs }) all hobj hname hensure
  -- pinning writes markers only, so the archives are rendered from as they were before
  have hpaths : ∀ p ∈ o.paths, fs.lookup p = s.fs.lookup p := by
    intro p hp
    obtain ⟨cp, hcp, rfl⟩ := List.mem_map.mp hp
    exact hafter.lookup _ (htar cp hcp)
  rw [observePod_fs hpaths] at hcreated hquiet hs
  have hpinned : (observePod r m isPrint jsonErr key o all s).pinnedStatus o t
      = o.status.set (pinnedCondition o all t) := by
    unfold Observation.pinnedStatus
    rw [observePod_pinned]
  refine ⟨fs, t, t', ?_, ?_, ?_⟩
  · rw [observePod_pinned]
    exact hafter
  · unfold Observation.statusOf
    rw [quiet_append, quiet_append, quiet_append, quiet_singleton, hcreated, hquiet, hpinned]
    exact ⟨fun h => h.2.2, fun h => ⟨hpins, id, h⟩⟩
  · unfold Observation.statusOf
    rw [hpinned]
    exact hs

/-- **Runs.**  A reconcile of a live object in which nothing fails does what it observes. -/
theorem runs_reconcile (hobj : s.objects key = some o) (hlive : o.deleting = false)
    (hheld : o.Held)
    (h : Runs (Cluster.act r m False) (reconcile r isPrint jsonErr key) s tr x s') :
    ∃ order : List String,
      (⟨.rangeKeys (o.template.annotations.getD ∅), order⟩ : Event (sig ρ)) ∈ tr ∧
      order.Perm (o.template.annotations.getD ∅).keys ∧
      Follows key o (observe r m isPrint jsonErr key o order s) s tr s' := by
  unfold reconcile at h
  obtain ⟨found, tr₂, s₁, rfl, hact, hrest⟩ := h.of_call
  obtain ⟨rfl, rfl⟩ := apiCall_false hact
  rw [hobj] at hrest
  dsimp only [Cluster.read] at hrest
  unfold reconcileFound at hrest
  -- a live object that is held: no finalizer is changed
  rw [hlive, decide_eq_true hheld] at hrest
  dsimp only at hrest
  unfold reconcileLive at hrest
  obtain ⟨order, tr₄, s₂, rfl, ⟨hperm, rfl⟩, hspec⟩ := hrest.of_call
  refine ⟨order, by simp, hperm, .cons id (.cons id ?_)⟩
  unfold observe
  cases hvalid : validateSpecIn r order (o.podRestore key) with
  | error e =>
    rw [hvalid] at hspec
    exact .of_saves (runs_report ⟨none, .false, "InvalidSpec", e.message isPrint⟩ hobj hspec)
  | ok u =>
    rw [hvalid] at hspec
    obtain ⟨node, tr₆, s₃, rfl, hact, hlast⟩ := hspec.of_call
    obtain ⟨hreply, rfl⟩ := apiCall_false hact
    dsimp only at hreply ⊢
    by_cases hin : o.targetNode ∈ s₃.nodes
    · obtain rfl : node = Read.found () := hreply.trans (if_pos hin)
      rw [if_pos hin]
      exact .cons id (runs_pinAndRestore hobj (isTar_of_valid hvalid) hlast)
    · obtain rfl : node = Read.notFound := hreply.trans (if_neg hin)
      rw [if_neg hin]
      exact .cons id (.of_saves
        (runs_report ⟨none, .false, "NodeNotFound", nodeMessage isPrint o⟩ hobj hlast))

end Runs

end CheckpointRestore.Restore
