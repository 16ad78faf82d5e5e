import CheckpointRestore.PodRestore.Observe

namespace CheckpointRestore.Restore

open Interaction Go
open Pinning
open Forensic (Condition ConditionStatus setStatusCondition said said_setStatusCondition
  setStatusCondition_eq_self_iff)

/-!
# A steady world — what a second reconcile writes

The controller watches what it writes, so a reconcile that writes whenever it runs never comes to
rest.  Where nothing else changes and nothing fails, a second reconcile observes what the first one
observed, and writes nothing — but for two exits whose text is not a function of the world: the
reserved annotation that is named is the first one `range` happens to visit, and the error about a
bad `config.dump` names a temporary directory.

* `saved_object` — what the first reconcile leaves of the object;
* `observe_again` — what the second one observes;
* `reconcile_quiet_iff` — when the second reconcile is sure to write nothing.
-/

variable {ρ : Type}

/-! ### The status that was saved -/

variable {ob : Observation ρ}

section Status
variable {key : ObjectKey} {o : PodRestoreObject ρ} {s : Cluster ρ}

/-- An object in another version: only the status differs. -/
def Revised (o o' : PodRestoreObject ρ) : Prop :=
  ∃ version st, o' = { o with resourceVersion := version, status := st }

/-- What is stored says what was to be saved. -/
theorem saved_object (st : PodRestoreStatus) (hobj : s.objects key = some o)
    (hlive : o.deleting = false) :
    ∃ o', (s.saved key o st).objects key = some o' ∧ Revised o o' ∧
      (∀ type, said o'.status.conditions type = said st.conditions type) ∧
      o'.status.podName = st.podName ∧ o'.status.observedGeneration = st.observedGeneration := by
  unfold Cluster.saved
  split_ifs with hsame
  · exact ⟨o, hobj, ⟨o.resourceVersion, o.status, rfl⟩, fun _ => by rw [hsame], by rw [hsame],
      by rw [hsame]⟩
  · refine ⟨{ o with resourceVersion := s.revision + 1, status := st.stored }, ?_, ⟨_, _, rfl⟩,
      fun type => said_stored st type, rfl, rfl⟩
    simp [Cluster.store, hlive]

/-- What the `Ready` condition says. -/
theorem said_ready (ob : Observation ρ) (o : PodRestoreObject ρ) (t t' : ℤ) :
    said (ob.statusOf o t t').conditions conditionReady
      = some (ob.report.status, ob.report.reason, ob.report.message, o.generation) :=
  (said_setStatusCondition _ _ _).trans (if_pos rfl)

/-- The time does not matter to what `CheckpointsPinned` says. -/
theorem pinnedCondition_says (o : PodRestoreObject ρ) (all : Bool) (t : ℤ) :
    (pinnedCondition o all t).type = conditionCheckpointsPinned ∧
    (pinnedCondition o all t).status = (pinnedCondition o all 0).status ∧
    (pinnedCondition o all t).reason = (pinnedCondition o all 0).reason ∧
    (pinnedCondition o all t).message = (pinnedCondition o all 0).message ∧
    (pinnedCondition o all t).observedGeneration = o.generation := by
  cases all <;> exact ⟨rfl, rfl, rfl, rfl, rfl⟩

/-- What the `CheckpointsPinned` condition says. -/
theorem said_pinned {all : Bool} (h : ob.pinned = some all) (o : PodRestoreObject ρ) (t t' : ℤ) :
    said (ob.statusOf o t t').conditions conditionCheckpointsPinned
      = some ((pinnedCondition o all 0).status, (pinnedCondition o all 0).reason,
          (pinnedCondition o all 0).message, o.generation) := by
  have hready : said (ob.statusOf o t t').conditions conditionCheckpointsPinned
      = said (ob.pinnedStatus o t).conditions conditionCheckpointsPinned :=
    (said_setStatusCondition _ _ _).trans (if_neg (show "Ready" ≠ "CheckpointsPinned" by decide))
  obtain ⟨htype, hstatus, hreason, hmessage, hgeneration⟩ := pinnedCondition_says o all t
  have hset : (ob.pinnedStatus o t).conditions
      = setStatusCondition o.status.conditions (pinnedCondition o all t) := by
    unfold Observation.pinnedStatus
    rw [h]
    rfl
  rw [hready, hset, said_setStatusCondition, if_pos htype, hstatus, hreason, hmessage, hgeneration]

/-- A status that says what is observed stays as it is. -/
theorem statusOf_eq_self
    (hready : said o.status.conditions conditionReady =
      some (ob.report.status, ob.report.reason, ob.report.message, o.generation))
    (hpinned : ∀ all, ob.pinned = some all →
      said o.status.conditions conditionCheckpointsPinned = some ((pinnedCondition o all 0).status, (pinnedCondition o all 0).reason,
        (pinnedCondition o all 0).message, o.generation))
    (hname : ob.report.podName.getD o.status.podName = o.status.podName)
    (hgeneration : o.status.observedGeneration = o.generation) (t t' : ℤ) :
    o.status = ob.statusOf o t t' := by
  have hpins : ob.pinnedStatus o t = o.status := by
    unfold Observation.pinnedStatus
    cases hp : ob.pinned with
    | none => rfl
    | some all =>
      obtain ⟨htype, hstatus, hreason, hmessage, hgen⟩ := pinnedCondition_says o all t
      have hsame := (setStatusCondition_eq_self_iff o.status.conditions
        (pinnedCondition o all t)).mpr
      rw [htype, hstatus, hreason, hmessage, hgen] at hsame
      unfold PodRestoreStatus.set
      dsimp only
      rw [hsame (hpinned all hp)]
  have hset := (setStatusCondition_eq_self_iff o.status.conditions (condition conditionReady
    o.generation ob.report.status ob.report.reason ob.report.message t')).mpr hready
  unfold Observation.statusOf Report.statusOf PodRestoreStatus.set
  rw [hpins]
  dsimp only
  rw [hset, hname, ← hgeneration]

end Status

/-! ### The second observation -/

section Again
variable {r : PodRestoreReconciler} {m : Machine} {isPrint : Char → Bool} {jsonErr : String}
  {key : ObjectKey} {o o' : PodRestoreObject ρ} {s s' : Cluster ρ}

theorem reportPod_revised (hrev : Revised o o') (pod : PodObject ρ) :
    reportPod isPrint o' pod = reportPod isPrint o pod := by
  obtain ⟨version, st, rfl⟩ := hrev
  rfl

/-- The API server sets the phase of a new Pod, and it is reported like no phase. -/
theorem reportPod_pending (pod : Pod ρ) :
    reportPod isPrint o { newPod o pod with phase := .pending }
      = reportPod isPrint o (newPod o pod) := rfl

/-- The Pod that was created is found, and otherwise everything is found as it was. -/
theorem observePod_again {pinned : Bool}
    (hob : ob = observePod r m isPrint jsonErr key o pinned s) (hrev : Revised o o')
    (hsame : ob.created = none → s'.pods key = s.pods key)
    (hcreated : ∀ pod, ob.created = some pod →
      s'.pods key = some { newPod o pod with phase := .pending })
    (hname : o'.status.podName = ob.report.podName.getD o.status.podName)
    (hrender : s.pods key = none → o.status.podName = "" →
      renderPod r (m.host s'.fs s'.temps) (o.podRestore key)
        = renderPod r (m.host s.fs s.temps) (o.podRestore key)) :
    (observePod r m isPrint jsonErr key o' pinned s').report = ob.report ∧
    (observePod r m isPrint jsonErr key o' pinned s').created = none := by
  have hrestore : o'.podRestore key = o.podRestore key := by
    obtain ⟨version, st, rfl⟩ := hrev
    rfl
  cases hpods : s.pods key with
  | some pod =>
    obtain rfl : ob = ⟨pinned, reportPod isPrint o pod, false, none⟩ := by
      simp [hob, observePod, hpods]
    -- the Pod that was there is still there
    have hagain : s'.pods key = some pod := (hsame rfl).trans hpods
    simp [observePod, hagain, reportPod_revised hrev]
  | none =>
    by_cases hempty : o.status.podName = ""
    · cases hout : renderPod r (m.host s.fs s.temps) (o.podRestore key) with
      | error e =>
        obtain rfl : ob = ⟨pinned, ⟨none, .false, "RenderFailed", e.message isPrint jsonErr⟩, true,
            none⟩ := by
          simp [hob, observePod, hpods, hempty, hout]
        have hagain : s'.pods key = none := (hsame rfl).trans hpods
        have hstill : o'.status.podName = "" := hname.trans hempty
        simp [observePod, hagain, hstill, hrestore, hrender hpods hempty, hout]
      | ok pod =>
        obtain rfl : ob = ⟨pinned, reportPod isPrint o (newPod o pod), true, some pod⟩ := by
          simp [hob, observePod, hpods, hempty, hout]
        -- the Pod was created by the first reconcile, and the second one finds it pending
        simp [observePod, hcreated pod rfl, reportPod_revised hrev, reportPod_pending]
    -- its name is recorded, so nothing is rendered, now as before
    · obtain rfl : ob = ⟨pinned, ⟨none, .false, "PodMissing", "restore Pod disappeared"⟩, false,
          none⟩ := by
        simp [hob, observePod, hpods, hempty]
      have hagain : s'.pods key = none := (hsame rfl).trans hpods
      have hstill : ¬ o'.status.podName = "" := fun h => hempty (hname.symm.trans h)
      simp [observePod, hagain, hstill]

/-- **The second observation.**  It is the first one, but that there is no Pod to create. -/
theorem observe_again {order order' : List String}
    (hob : ob = observe r m isPrint jsonErr key o order s) (hrev : Revised o o')
    (horder : validateSpecIn r order' (o.podRestore key)
      = validateSpecIn r order (o.podRestore key))
    (hnodes : s'.nodes = s.nodes) (hlookup : ∀ q, IsTar q → s'.fs.lookup q = s.fs.lookup q)
    (hsame : ob.created = none → s'.pods key = s.pods key)
    (hcreated : ∀ pod, ob.created = some pod →
      s'.pods key = some { newPod o pod with phase := .pending })
    (hname : o'.status.podName = ob.report.podName.getD o.status.podName)
    (hrender : validateSpecIn r order (o.podRestore key) = .ok () → o.targetNode ∈ s.nodes →
      s.pods key = none → o.status.podName = "" →
      renderPod r (m.host s'.fs s'.temps) (o.podRestore key)
        = renderPod r (m.host s.fs s.temps) (o.podRestore key)) :
    (observe r m isPrint jsonErr key o' order' s').pinned = ob.pinned ∧
    (observe r m isPrint jsonErr key o' order' s').report = ob.report ∧
    (observe r m isPrint jsonErr key o' order' s').created = none := by
  obtain ⟨version, st, rfl⟩ := id hrev
  have hvalid : validateSpecIn r order'
      (({ o with resourceVersion := version, status := st } : PodRestoreObject ρ).podRestore key)
      = validateSpecIn r order (o.podRestore key) := horder
  unfold observe at hob ⊢
  rw [hvalid, hnodes]
  cases hspec : validateSpecIn r order (o.podRestore key) with
  | error e =>
    rw [hspec] at hob
    rw [hob]
    exact ⟨rfl, rfl, rfl⟩
  | ok u =>
    rw [hspec] at hob
    dsimp only at hob ⊢
    by_cases hnode : o.targetNode ∈ s.nodes
    · rw [if_pos hnode] at hob ⊢
      -- a valid path ends in `.tar`, so the same archives are there
      have hall : (∀ cp ∈ o.checkpoints, cp.path ∈ s'.fs) ↔
          ∀ cp ∈ o.checkpoints, cp.path ∈ s.fs := by
        refine forall₂_congr (fun cp hcp => ?_)
        rw [← AList.lookup_isSome, hlookup _ (isTar_of_valid hspec cp hcp), AList.lookup_isSome]
      rw [decide_eq_decide.mpr hall]
      refine ⟨?_, observePod_again hob hrev hsame hcreated hname (hrender hspec hnode)⟩
      rw [observePod_pinned, hob, observePod_pinned]
    · rw [if_neg hnode] at hob ⊢
      rw [hob]
      exact ⟨rfl, rfl, rfl⟩

end Again

/-! ### What the first reconcile leaves -/

section Left
variable {key : ObjectKey} {o : PodRestoreObject ρ} {s s' : Cluster ρ} {ob : Observation ρ}
  {tr : List (Event (sig ρ))}

/-- What a reconcile that observed `ob` leaves: the object `o'`, the Pod it created, the archives
    as they were, each of them pinned if they were pinned at all. -/
structure Left (key : ObjectKey) (o : PodRestoreObject ρ) (ob : Observation ρ)
    (s s' : Cluster ρ) (o' : PodRestoreObject ρ) : Prop where
  object : s'.objects key = some o'
  revised : Revised o o'
  ready : said o'.status.conditions conditionReady
    = some (ob.report.status, ob.report.reason, ob.report.message, o.generation)
  pinned : ∀ all, ob.pinned = some all → said o'.status.conditions conditionCheckpointsPinned
    = some ((pinnedCondition o all 0).status, (pinnedCondition o all 0).reason,
        (pinnedCondition o all 0).message, o.generation)
  name : o'.status.podName = ob.report.podName.getD o.status.podName
  generation : o'.status.observedGeneration = o.generation
  nodes : s'.nodes = s.nodes
  lookup : ∀ q, IsTar q → s'.fs.lookup q = s.fs.lookup q
  pins : ∀ all, ob.pinned = some all →
    ∀ cp ∈ o.checkpoints, Pinned s'.fs cp.path (podRestoreOwnerKey key)
  same : ob.created = none → s'.pods key = s.pods key
  created : ∀ pod, ob.created = some pod →
    s'.pods key = some { newPod o pod with phase := .pending }
  temps : s'.temps = s.temps + if ob.rendered = true then 1 else 0

theorem made_frame (s : Cluster ρ) (key : ObjectKey) (o : PodRestoreObject ρ)
    (ob : Observation ρ) :
    (s.made key o ob).objects = s.objects ∧ (s.made key o ob).nodes = s.nodes ∧
    (s.made key o ob).fs = s.fs ∧
    (s.made key o ob).temps = s.temps + if ob.rendered = true then 1 else 0 := by
  unfold Cluster.made
  cases ob.created <;> split_ifs <;> exact ⟨rfl, rfl, rfl, rfl⟩

theorem made_pods_none (s : Cluster ρ) (key : ObjectKey) (o : PodRestoreObject ρ)
    (h : ob.created = none) : (s.made key o ob).pods = s.pods := by
  unfold Cluster.made
  rw [h]
  dsimp only
  split_ifs <;> rfl

theorem made_pods_some (s : Cluster ρ) (key : ObjectKey) (o : PodRestoreObject ρ) {pod : Pod ρ}
    (h : ob.created = some pod) :
    (s.made key o ob).pods key = some { newPod o pod with phase := .pending } := by
  unfold Cluster.made
  rw [h]
  exact Function.update_self ..

theorem saved_frame (s : Cluster ρ) (key : ObjectKey) (o : PodRestoreObject ρ)
    (st : PodRestoreStatus) :
    (s.saved key o st).pods = s.pods ∧ (s.saved key o st).nodes = s.nodes ∧
    (s.saved key o st).fs = s.fs ∧ (s.saved key o st).temps = s.temps := by
  unfold Cluster.saved
  split_ifs <;> exact ⟨rfl, rfl, rfl, rfl⟩

theorem PinsAs.lookup {pinned : Option Bool} {fs fs' : FS} (h : PinsAs key o pinned fs fs') :
    ∀ q, IsTar q → fs'.lookup q = fs.lookup q := by
  cases pinned with
  | none =>
    intro q _
    rw [show fs' = fs from h]
  | some all => exact AfterPins.lookup h

theorem Follows.left (h : Follows key o ob s tr s') (hobj : s.objects key = some o)
    (hlive : o.deleting = false) : ∃ o', Left key o ob s s' o' := by
  obtain ⟨fs, t, t', hpins, -, rfl⟩ := h
  obtain ⟨hobjects, hnodes, hfs, htemps⟩ := made_frame { s with fs } key o ob
  obtain ⟨hpods', hnodes', hfs', htemps'⟩ :=
    saved_frame (({ s with fs } : Cluster ρ).made key o ob) key o (ob.statusOf o t t')
  have hfiles := hfs'.trans hfs
  obtain ⟨o', hobj', hrev, hsaid, hname, hgeneration⟩ :=
    saved_object (ob.statusOf o t t') ((congrFun hobjects key).trans hobj) hlive
  refine ⟨o', hobj', hrev, ?_, fun all hall => ?_, ?_, hgeneration, hnodes'.trans hnodes,
    fun q hq => ?_, fun all hall cp hcp => ?_, fun hnone => ?_, fun pod hpod => ?_,
    htemps'.trans htemps⟩
  · rw [hsaid, said_ready]
  · rw [hsaid, said_pinned hall]
  · rw [hname]
    show ob.report.podName.getD (ob.pinnedStatus o t).podName = _
    have hkept : (ob.pinnedStatus o t).podName = o.status.podName := by
      unfold Observation.pinnedStatus
      cases ob.pinned <;> rfl
    rw [hkept]
  · rw [hfiles]
    exact hpins.lookup q hq
  · rw [hfiles]
    rw [hall] at hpins
    exact AfterPins.pinned hpins cp hcp
  · rw [hpods', made_pods_none _ _ _ hnone]
  · rw [hpods', made_pods_some _ _ _ hpod]

/-- A second reconcile that writes nothing says what the first one said. -/
theorem message_eq_of_quiet {o' : PodRestoreObject ρ} {ob' : Observation ρ} {s'' : Cluster ρ}
    (hleft : Left key o ob s s' o') (h : Follows key o' ob' s' tr s'') (hquiet : Quiet tr) :
    ob'.report.message = ob.report.message := by
  obtain ⟨fs, t, t', -, hiff, -⟩ := h
  have hstatus := (hiff.mp hquiet).2
  have hready := hleft.ready
  rw [hstatus, said_ready, Option.some.injEq] at hready
  simp only [Prod.mk.injEq] at hready
  exact hready.2.2.1

/-- **The second reconcile.**  If it observes what the first one observed it writes nothing and
    leaves every file. -/
theorem quiet_of_observed {o' : PodRestoreObject ρ} {ob' : Observation ρ} {s'' : Cluster ρ}
    (hleft : Left key o ob s s' o') (h : Follows key o' ob' s' tr s'')
    (hpinned : ob'.pinned = ob.pinned) (hreport : ob'.report = ob.report)
    (hcreated : ob'.created = none) : Quiet tr ∧ s''.fs = s'.fs := by
  obtain ⟨version, st, rfl⟩ := id hleft.revised
  obtain ⟨fs, t, t', hpins, hiff, rfl⟩ := h
  refine ⟨hiff.mpr ⟨hcreated,
    statusOf_eq_self ?_ (fun all hall => ?_) ?_ hleft.generation t t'⟩, ?_⟩
  · rw [hreport]
    exact hleft.ready
  · exact hleft.pinned all (hpinned.symm.trans hall)
  · rw [hreport, hleft.name]
    cases ob.report.podName <;> rfl
  · rw [(saved_frame _ _ _ _).2.2.1, (made_frame _ _ _ _).2.2.1]
    cases hall : ob'.pinned with
    | none =>
      rw [hall] at hpins
      exact hpins
    | some all =>
      rw [hall] at hpins
      exact AfterPins.same hpins (hleft.pins all (hpinned.symm.trans hall))

end Left

/-! ### The order of the annotations -/

variable {a : String}

section Order
variable {r : PodRestoreReconciler} {pr : PodRestore ρ} {order : List String}

/-- The annotations the controller keeps for itself. -/
def Reserved (key : String) : Prop :=
  Strings.hasPrefix key restoreCheckpointPathAnnotationPrefix = true

/-- With at most one reserved annotation the order does not matter. -/
theorem validateSpecIn_perm {keys : List String} (hperm : order.Perm keys)
    (hone : ∀ a ∈ keys, ∀ b ∈ keys, Reserved a → Reserved b → a = b) :
    validateSpecIn r order pr = validateSpecIn r keys pr := by
  have hfind : order.find? (Strings.hasPrefix · restoreCheckpointPathAnnotationPrefix)
      = keys.find? (Strings.hasPrefix · restoreCheckpointPathAnnotationPrefix) := by
    cases hkeys : keys.find? (Strings.hasPrefix · restoreCheckpointPathAnnotationPrefix) with
    | none =>
      rw [List.find?_eq_none] at hkeys ⊢
      exact fun a ha => hkeys a (hperm.mem_iff.mp ha)
    | some a =>
      have ha := List.mem_of_find?_eq_some hkeys
      have hres := List.find?_some hkeys
      cases horder : order.find? (Strings.hasPrefix · restoreCheckpointPathAnnotationPrefix) with
      | none =>
        rw [List.find?_eq_none] at horder
        exact absurd hres (horder a (hperm.mem_iff.mpr ha))
      | some b =>
        have hb := hperm.mem_iff.mp (List.mem_of_find?_eq_some horder)
        have hres' := List.find?_some horder
        rw [hone b hb a ha hres' hres]
  unfold validateSpecIn
  rw [hfind]

/-- An order that begins with the given key, if there is such a key. -/
def startingWith (a : String) (map : StringMap) : List String :=
  if a ∈ map.keys then a :: map.keys.erase a else map.keys

theorem startingWith_perm (a : String) (map : StringMap) : (startingWith a map).Perm map.keys := by
  unfold startingWith
  split_ifs with ha
  · exact (List.perm_cons_erase ha).symm
  · exact .refl _

variable (pr) in
/-- The reserved annotation that is visited first is the one that is named. -/
theorem validateSpecIn_startingWith (ha : a ∈ (pr.template.annotations.getD ∅).keys)
    (hres : Reserved a) :
    validateSpecIn r (startingWith a (pr.template.annotations.getD ∅)) pr
      = .error (.reservedKey a) := by
  have hfind : (a :: (pr.template.annotations.getD ∅).keys.erase a).find?
      (Strings.hasPrefix · restoreCheckpointPathAnnotationPrefix) = some a :=
    List.find?_cons_of_pos hres
  unfold validateSpecIn startingWith
  rw [if_pos ha, hfind]

end Order

/-! ### Two reconciles -/

section Two
variable (r : PodRestoreReconciler) (m : Machine) (isPrint : Char → Bool) (jsonErr : String)

/-- What the texts of the exits depend on is settled: the template has at most one reserved
    annotation, and rendering, where it is reached, does not stop at a bad `config.dump`. -/
structure Settled (key : ObjectKey) (o : PodRestoreObject ρ) (s : Cluster ρ) : Prop where
  reserved : ∀ a ∈ (o.template.annotations.getD ∅).keys,
    ∀ b ∈ (o.template.annotations.getD ∅).keys, Reserved a → Reserved b → a = b
  dump : validateSpec r (o.podRestore key) = .ok () → o.targetNode ∈ s.nodes →
    s.pods key = none → o.status.podName = "" →
    ¬ StopsAtDump m s.fs o.template.spec.containers o.checkpoints

variable {r m isPrint jsonErr} {key : ObjectKey} {o o' : PodRestoreObject ρ} {s s' : Cluster ρ}

variable (r m isPrint jsonErr) in
/-- A reconcile in which `range` visits the annotations in the given order. -/
theorem runs_inOrder {order : StringMap → List String} (horder : ∀ map, (order map).Perm map.keys)
    (hobj : s.objects key = some o) (hlive : o.deleting = false) (hheld : o.Held) :
    ∃ tr x s', Runs (Cluster.act r m False) (reconcile r isPrint jsonErr key) s tr x s' ∧
      Follows key o (observe r m isPrint jsonErr key o (order (o.template.annotations.getD ∅)) s) s
        tr s' := by
  have hissues : Issues (S := sig ρ) (OwnOp key) (reconcile r isPrint jsonErr key) :=
    reconcile_issues r isPrint jsonErr
  have hact : ∀ op (s : Cluster ρ), OwnOp key op →
      Cluster.act r m False op s (Cluster.answer r m order 0 op s).1
        (Cluster.answer r m order 0 op s).2 :=
    fun op s hop => Cluster.answer_act r m horder 0 False op s hop
  have hrun := Runs.of_exec_issues hact hissues s
  refine ⟨_, _, _, hrun, ?_⟩
  obtain ⟨order', hmem, -, hfollows⟩ := runs_reconcile hobj hlive hheld hrun
  have hreply : ∀ e ∈ trace (Cluster.answer r m order 0) (reconcile r isPrint jsonErr key) s,
      ∀ map x, e = (⟨.rangeKeys map, x⟩ : Event (sig ρ)) → x = order map := by
    refine forall_mem_trace (P := fun e => ∀ map x,
      e = (⟨.rangeKeys map, x⟩ : Event (sig ρ)) → x = order map) (fun op s map x h => ?_) _ s
    injection h with hop hx
    subst hop
    exact (eq_of_heq hx).symm
  rw [← hreply _ hmem _ _ rfl]
  exact hfollows

/-- Two reconciles of which the second writes nothing say the same. -/
theorem message_eq_of_all_quiet
    (hquiet : ∀ tr₁ x₁ s₁ tr₂ x₂ s₂,
      Runs (Cluster.act r m False) (reconcile r isPrint jsonErr key) s tr₁ x₁ s₁ →
      Runs (Cluster.act r m False) (reconcile r isPrint jsonErr key) s₁ tr₂ x₂ s₂ → Quiet tr₂)
    (hobj : s.objects key = some o) (hlive : o.deleting = false) (hheld : o.Held)
    {order order' : StringMap → List String} (horder : ∀ map, (order map).Perm map.keys)
    (horder' : ∀ map, (order' map).Perm map.keys) :
    ∃ s₁ o₁ ob, ob = observe r m isPrint jsonErr key o (order (o.template.annotations.getD ∅)) s ∧
      Left key o ob s s₁ o₁ ∧
      (observe r m isPrint jsonErr key o₁
        (order' (o.template.annotations.getD ∅)) s₁).report.message
        = ob.report.message := by
  obtain ⟨tr₁, x₁, s₁, hrun₁, hfollows₁⟩ := runs_inOrder r m isPrint jsonErr horder hobj
    hlive hheld
  obtain ⟨o₁, hleft⟩ := hfollows₁.left hobj hlive
  obtain ⟨version, st, rfl⟩ := id hleft.revised
  obtain ⟨tr₂, x₂, s₂, hrun₂, hfollows₂⟩ := runs_inOrder r m isPrint jsonErr horder'
    hleft.object hlive hheld
  exact ⟨s₁, _, _, rfl, hleft,
    message_eq_of_quiet hleft hfollows₂ (hquiet _ _ _ _ _ _ hrun₁ hrun₂)⟩

/-- The text names the reserved annotation. -/
theorem reservedKey_message_inj {b : String}
    (h : (SpecError.reservedKey a).message isPrint = (SpecError.reservedKey b).message isPrint) :
    a = b := by
  unfold SpecError.message at h
  rw [String.append_left_inj, String.append_right_inj] at h
  exact Strings.quote_inj.mp h

/-- The text contains the one about `config.dump`. -/
theorem dump_message_inj {c msg msg' : String}
    (h : (RenderError.baseImage c (.baseImage (.dump msg))).message isPrint jsonErr
      = (RenderError.baseImage c (.baseImage (.dump msg'))).message isPrint jsonErr) :
    msg = msg' := by
  unfold RenderError.message ReadError.message at h
  rw [String.append_left_inj, String.append_right_inj, String.append_right_inj] at h
  exact h

variable (r m isPrint jsonErr key) in
/-- Where there are reserved annotations, the exit's text names the one that is visited first. -/
theorem observe_reserved (ha : a ∈ (o.template.annotations.getD ∅).keys) (hres : Reserved a) :
    observe r m isPrint jsonErr key o (startingWith a (o.template.annotations.getD ∅)) s
      = ⟨none, ⟨none, .false, "InvalidSpec", (SpecError.reservedKey a).message isPrint⟩, false,
          none⟩ := by
  have hvalid : validateSpecIn r (startingWith a (o.template.annotations.getD ∅))
      (o.podRestore key) = .error (.reservedKey a) :=
    validateSpecIn_startingWith (o.podRestore key) ha hres
  simp [observe, hvalid]

variable (isPrint jsonErr) in
/-- Where rendering stops at a bad `config.dump`, the exit's text differs at every call. -/
theorem observe_stops {order : List String} {c : String} {text : String → String}
    (hvalid : validateSpecIn r order (o.podRestore key) = .ok ()) (hnode : o.targetNode ∈ s.nodes)
    (hpods : s.pods key = none) (hname : o.status.podName = "")
    (htext : renderPod r (m.host s.fs s.temps) (o.podRestore key)
      = .error (.baseImage c (.baseImage (.dump (text (m.dumpPath s.temps)))))) :
    observe r m isPrint jsonErr key o order s
      = ⟨some (decide (∀ cp ∈ o.checkpoints, cp.path ∈ s.fs)), ⟨none, .false, "RenderFailed",
          (RenderError.baseImage c (.baseImage (.dump (text (m.dumpPath s.temps))))).message isPrint
            jsonErr⟩, true, none⟩ := by
  simp [observe, observePod, hvalid, hnode, hpods, hname, htext]

/-- Texts that differ are written: a second reconcile that never writes has settled texts. -/
theorem settled_of_quiet
    (hquiet : ∀ tr₁ x₁ s₁ tr₂ x₂ s₂,
      Runs (Cluster.act r m False) (reconcile r isPrint jsonErr key) s tr₁ x₁ s₁ →
      Runs (Cluster.act r m False) (reconcile r isPrint jsonErr key) s₁ tr₂ x₂ s₂ → Quiet tr₂)
    (hobj : s.objects key = some o) (hlive : o.deleting = false) (hheld : o.Held) :
    Settled r m key o s := by
  refine ⟨fun a ha b hb hresa hresb => ?_, fun hvalid hnode hpods hname hstops => ?_⟩
  · obtain ⟨s₁, o₁, ob, rfl, hleft, hmessage⟩ := message_eq_of_all_quiet hquiet hobj hlive hheld
      (startingWith_perm a) (startingWith_perm b)
    obtain ⟨version, st, rfl⟩ := id hleft.revised
    have hsecond := observe_reserved r m isPrint jsonErr key (s := s₁)
      (o := { o with resourceVersion := version, status := st }) hb hresb
    rw [observe_reserved r m isPrint jsonErr key ha hresa] at hmessage
    exact (reservedKey_message_inj ((congrArg (·.report.message) hsecond).symm.trans hmessage)).symm
  · obtain ⟨s₁, o₁, ob, hob, hleft, hmessage⟩ := message_eq_of_all_quiet hquiet hobj hlive hheld
      (fun map => .refl map.keys) (fun map => .refl map.keys)
    have hkeys : validateSpecIn r (o.template.annotations.getD ∅).keys (o.podRestore key)
        = .ok () := hvalid
    -- rendering is the case that names the file, for every call and whatever was pinned
    obtain ⟨c₀, msg₀, hfails⟩ := (renderPod_dump_iff (k := s.temps) hvalid).mpr hstops
    rcases renderPod_temp m s.fs r (o.podRestore key) with ⟨y, hplain, hy⟩ | ⟨c, text, hinj, htext⟩
    · exact hplain c₀ msg₀ ((hy s.fs s.temps (fun _ _ => rfl)).symm.trans hfails)
    · have hpaths : ∀ p ∈ o.paths, s₁.fs.lookup p = s.fs.lookup p := by
        intro p hp
        obtain ⟨cp, hcp, rfl⟩ := List.mem_map.mp hp
        exact hleft.lookup _ (isTar_of_valid hkeys cp hcp)
      rw [observe_stops isPrint jsonErr hkeys hnode hpods hname
        (htext s.fs s.temps (fun _ _ => rfl))] at hob
      subst hob
      have hpods₁ : s₁.pods key = none := (hleft.same rfl).trans hpods
      have hname₁ : o₁.status.podName = "" := hleft.name.trans hname
      have htemps : s₁.temps = s.temps + 1 := hleft.temps
      have hnode₁ : o.targetNode ∈ s₁.nodes := by rw [hleft.nodes]; exact hnode
      obtain ⟨version, st, rfl⟩ := id hleft.revised
      have hsecond := observe_stops isPrint jsonErr (m := m) (s := s₁)
        (o := { o with resourceVersion := version, status := st }) hkeys hnode₁ hpods₁ hname₁
        (htext s₁.fs s₁.temps hpaths)
      have hmsg := dump_message_inj ((congrArg (·.report.message) hsecond).symm.trans hmessage)
      have hk := dumpPath_injective m (hinj hmsg)
      omega

/-- **A steady world.**  Where nothing fails and nobody else acts, a second reconcile of a live
    object writes nothing and leaves every marker, whatever the order of the annotations is, if and
    only if the texts of the exits are settled. -/
theorem reconcile_quiet_iff (r : PodRestoreReconciler) (m : Machine) (isPrint : Char → Bool)
    (jsonErr : String) {key : ObjectKey} {o : PodRestoreObject ρ} {s : Cluster ρ}
    (hobj : s.objects key = some o) (hlive : o.deleting = false) (hheld : o.Held) :
    (∀ tr₁ x₁ s₁ tr₂ x₂ s₂,
      Runs (Cluster.act r m False) (reconcile r isPrint jsonErr key) s tr₁ x₁ s₁ →
      Runs (Cluster.act r m False) (reconcile r isPrint jsonErr key) s₁ tr₂ x₂ s₂ →
      Quiet tr₂ ∧ ∀ path, s₂.fs.lookup (keepPath path) = s₁.fs.lookup (keepPath path)) ↔
    Settled r m key o s := by
  constructor
  · intro h
    exact settled_of_quiet (fun tr₁ x₁ s₁ tr₂ x₂ s₂ h₁ h₂ => (h tr₁ x₁ s₁ tr₂ x₂ s₂ h₁ h₂).1) hobj
      hlive hheld
  · intro hsettled tr₁ x₁ s₁ tr₂ x₂ s₂ hrun₁ hrun₂
    obtain ⟨order₁, -, hperm₁, hfollows₁⟩ := runs_reconcile hobj hlive hheld hrun₁
    obtain ⟨o₁, hleft⟩ := hfollows₁.left hobj hlive
    obtain ⟨version, st, rfl⟩ := id hleft.revised
    obtain ⟨order₂, -, hperm₂, hfollows₂⟩ := runs_reconcile hleft.object hlive hheld hrun₂
    have hspec₁ : validateSpecIn r order₁ (o.podRestore key) = validateSpec r (o.podRestore key) :=
      validateSpecIn_perm hperm₁ hsettled.reserved
    have hspec₂ : validateSpecIn r order₂ (o.podRestore key) = validateSpec r (o.podRestore key) :=
      validateSpecIn_perm hperm₂ hsettled.reserved
    -- rendering, where it is reached, does not depend on the temporary directory
    have hrender : validateSpecIn r order₁ (o.podRestore key) = .ok () → o.targetNode ∈ s.nodes →
        s.pods key = none → o.status.podName = "" →
        renderPod r (m.host s₁.fs s₁.temps) (o.podRestore key)
          = renderPod r (m.host s.fs s.temps) (o.podRestore key) := by
      intro hvalid hnode hpods hname
      have hpaths : ∀ p ∈ o.paths, s₁.fs.lookup p = s.fs.lookup p := by
        intro p hp
        obtain ⟨cp, hcp, rfl⟩ := List.mem_map.mp hp
        exact hleft.lookup _ (isTar_of_valid hvalid cp hcp)
      have hok := hspec₁.symm.trans hvalid
      rcases renderPod_temp m s.fs r (o.podRestore key) with ⟨y, -, hy⟩ | ⟨c, text, -, htext⟩
      · exact (hy s₁.fs s₁.temps hpaths).trans (hy s.fs s.temps (fun _ _ => rfl)).symm
      · have hstops := (renderPod_dump_iff hok).mp ⟨c, _, htext s.fs s.temps (fun _ _ => rfl)⟩
        exact absurd hstops (hsettled.dump hok hnode hpods hname)
    obtain ⟨hpinned, hreport, hcreated⟩ := observe_again rfl hleft.revised
      (hspec₂.trans hspec₁.symm) hleft.nodes hleft.lookup hleft.same hleft.created
      hleft.name hrender
    obtain ⟨hquiet, hfs⟩ := quiet_of_observed hleft hfollows₂ hpinned hreport hcreated
    exact ⟨hquiet, fun path => by rw [hfs]⟩

end Two

/-! ### Runs -/

/-- The reconcile without failures. -/
theorem runs_smoothly (s : Cluster Unit) :
    Runs (Cluster.act teamReconciler plainMachine False) teamReconcile s
      (trace smoothly teamReconcile s) (exec smoothly teamReconcile s).1
      (exec smoothly teamReconcile s).2 := by
  have hact : ∀ (op : (sig Unit).Op) s, OwnOp teamKey op → Cluster.act teamReconciler plainMachine
      False op s (smoothly op s).1 (smoothly op s).2 :=
    fun op s hop => Cluster.answer_act _ _ (fun _ => .refl _) 0 False op s hop
  exact Runs.of_exec_issues hact (reconcile_issues ..) s

/-- The `PodRestore` of the other runs comes to rest. -/
theorem reconcile_quiet_team :
    ∃ tr₁ x₁ s₁ tr₂ x₂ s₂,
      Runs (Cluster.act teamReconciler plainMachine False) teamReconcile
        (teamCluster teamArchive) tr₁ x₁ s₁ ∧
      Runs (Cluster.act teamReconciler plainMachine False) teamReconcile s₁ tr₂ x₂ s₂ ∧
      Quiet tr₂ ∧ ∀ path, s₂.fs.lookup (keepPath path) = s₁.fs.lookup (keepPath path) := by
  have hobj : (teamCluster teamArchive).objects teamKey = some {
      uid := 0
      resourceVersion := 1
      generation := 1
      deleting := false
      finalizers := [podRestoreFinalizer]
      targetNode := "node-1"
      checkpoints := [⟨"web", "/ckpt/checkpoint-app_team-web-1.tar"⟩]
      template := ⟨none, none, "", [⟨"web", "nginx", ()⟩], ()⟩
      status := ⟨[], "", 0⟩ } := rfl
  refine ⟨_, _, _, _, _, _, runs_smoothly _, runs_smoothly _,
    (reconcile_quiet_iff teamReconciler plainMachine (fun _ => true) "" hobj rfl
      (by decide)).mpr ⟨?_, fun _ _ _ _ => ?_⟩ _ _ _ _ _ _ (runs_smoothly _) (runs_smoothly _)⟩
  · intro a ha
    exact absurd ha List.not_mem_nil
  · -- the only container has an image
    rintro ⟨before, cp, after, -, ⟨-, c, hfind, hempty⟩, -⟩
    obtain rfl := List.mem_singleton.mp (List.mem_of_find?_eq_some hfind)
    exact absurd hempty (by decide)

/-- The template leaves the image to the archive, which has no `config.dump`. -/
def imageless : Cluster Unit :=
  (bareCluster teamArchive).putNew teamKey [podRestoreFinalizer] "node-1"
    [⟨"web", "/ckpt/checkpoint-app_team-web-1.tar"⟩] ⟨none, none, "", [⟨"web", "", ()⟩], ()⟩

/-- The second reconcile finds everything as the first one left it, and updates the status: the
    error names another temporary directory. -/
theorem hot_loop : ∃ tr₁ x₁ s₁ tr₂ x₂ s₂,
    Runs (Cluster.act teamReconciler plainMachine False) teamReconcile imageless tr₁ x₁ s₁ ∧
    Runs (Cluster.act teamReconciler plainMachine False) teamReconcile s₁ tr₂ x₂ s₂ ∧
    ∃ e ∈ tr₂, Writes e.op := by
  have hwrites : (trace smoothly teamReconcile (exec smoothly teamReconcile imageless).2).any
      (fun e => decide (Writes e.op)) = true := by decide +kernel
  obtain ⟨e, he, hwrite⟩ := List.any_eq_true.mp hwrites
  exact ⟨_, _, _, _, _, _, runs_smoothly _, runs_smoothly _, e, he, of_decide_eq_true hwrite⟩

end CheckpointRestore.Restore
