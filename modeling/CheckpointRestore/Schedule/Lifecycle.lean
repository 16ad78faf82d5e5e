import CheckpointRestore.Lib.Exclusive
import CheckpointRestore.Schedule.Reconciler

namespace CheckpointRestore.Schedule.Lifecycle

open Interaction
open Forensic (UpdateReply Outcome)

/-!
# `CheckpointSchedule` — triggers and the object they were started for

Triggers keep the schedule they were started with.  Reconciles of different keys run side by side,
one at a time for each key, while anybody creates, edits and deletes the objects.

* `Operator`, `world` — the stored objects, the map of active triggers, and every trigger that was
  ever started, with the number of its stops;
* `Orderly` — which changes of objects the reconciler copes with;
* `triggers_follow` — in a run of orderly changes, a reconcile that returns without an error leaves
  the triggers that the current object configures.
-/

/-! ### Objects, triggers and the map -/

/-- The stored objects and the triggers.  A trigger is known by its place among the started ones,
    and `stops` counts how often it was stopped. -/
structure Operator where
  objects : String → Option Object
  revision : ℕ
  started : List Trigger
  stops : ℕ → ℕ
  activeTriggers : String → Option (List ℕ)

/-- The operator has just started. -/
def Operator.init (objects : String → Option Object) (revision : ℕ) : Operator where
  objects := objects
  revision := revision
  started := []
  stops := fun _ => 0
  activeTriggers := fun _ => none

/-- The object that remains: one that is being deleted is gone with its last finalizer. -/
def remains (o : Object) : Option Object :=
  if o.deletionTimestamp.isSome ∧ o.finalizers = [] then none else some o

/-- An object is stored, with a new version. -/
def Operator.put (s : Operator) (key : String) (o : Option Object) : Operator :=
  { s with
    objects := Function.update s.objects key
      (o.map (fun o => { o with resourceVersion := s.revision + 1 }))
    revision := s.revision + 1 }

/-- An update takes effect: the version that was read is still the stored one. -/
def Updates (s : Operator) (key : String) (o : Object) (s' : Operator) : Prop :=
  ∃ stored, s.objects key = some stored ∧ stored.resourceVersion = o.resourceVersion ∧
    s' = s.put key (remains o)

/-- A status update takes effect: only the status is stored. -/
def UpdatesStatus (s : Operator) (key : String) (o : Object) (s' : Operator) : Prop :=
  ∃ stored, s.objects key = some stored ∧ stored.resourceVersion = o.resourceVersion ∧
    s' = s.put key (some { stored with status := o.status })

/-- A write succeeds and takes effect, or fails, with or without effect. -/
def Written (r : UpdateReply) (effect : Operator → Prop) (s s' : Operator) : Prop :=
  effect s' ∨ r ≠ .ok ∧ s' = s

/-- What the operations do. -/
def operatorAct : (op : sig.Op) → Operator → sig.Reply op → Operator → Prop
  | .get key, s, r, s' => s' = s ∧ match (r : GetReply) with
    | .found o => s.objects key = some o
    | .notFound => s.objects key = none
    | .failed _ => True
  | .update key o, s, r, s' => Written r (Updates s key o) s s'
  | .statusUpdate key o, s, r, s' => Written r (UpdatesStatus s key o) s s'
  | .running key, s, r, s' => s' = s ∧ (r : Bool) = (s.activeTriggers key).isSome
  | .startTrigger t, s, r, s' => (r : ℕ) = s.started.length ∧
      s' = { s with started := s.started ++ [t] }
  | .record key triggers, s, _, s' =>
      s' = { s with activeTriggers := Function.update s.activeTriggers key (some triggers) }
  | .recorded key, s, r, s' => s' = s ∧ (r : List ℕ) = (s.activeTriggers key).getD []
  | .stop i, s, _, s' => s' = { s with stops := Function.update s.stops i (s.stops i + 1) }
  | .forget key, s, _, s' =>
      s' = { s with activeTriggers := Function.update s.activeTriggers key none }
  | .now, s, _, s' => s' = s
  | .listPods _ _, s, _, s' => s' = s
  | .fanOut _, s, _, s' => s' = s
  | .change key o, s, _, s' => s' = s.put key o

/-- Reconciles, one at a time for each key, and others who change the objects. -/
def world : World sig Outcome Operator where
  act := operatorAct
  env _ _ := False
  start b p := (∃ key, p = reconcile key ∧
      ∀ t ∈ b.threads, t.first = some (Op.get key) → t.Done) ∨
    ∃ key o, p = change key o

/-! ### What is wanted, and what is active -/

/-- The jobs that a spec configures. -/
def configured (spec : Spec) : List Job :=
  (if spec.triggers.onAnnotation then [job .annotationTrigger spec] else []) ++
  (if spec.triggers.resourceThreshold.isSome then [job .resourceTrigger spec] else []) ++
  (if spec.triggers.onKubernetesEvents ≠ [] then [job .eventTrigger spec] else [])

/-- The jobs of an object that is there and not being deleted. -/
def wantedOf : Option Object → Option (List Job)
  | none => none
  | some o => if o.deletionTimestamp.isSome then none else some (configured o.spec)

/-- The triggers of a key that were started and not stopped, with their places. -/
def Operator.active (s : Operator) (key : String) : List (Trigger × ℕ) :=
  s.started.zipIdx.filter (fun p => p.1.key == key && s.stops p.2 == 0)

/-- **The property.**  The active triggers do the jobs that the current object configures; none is
    active if the object is absent or being deleted. -/
def Follows (key : String) (s : Operator) : Prop :=
  (s.active key).map (fun p => p.1.job) = (wantedOf (s.objects key)).getD []

/-- A reconcile of the key is between its first read and its return. -/
def UnderWay (b : Pool sig Outcome Operator) (key : String) : Prop :=
  ∃ t ∈ b.threads, t.first = some (Op.get key) ∧ t.trace ≠ [] ∧ ¬ t.Done

/-- The condition on changes of objects: what is wanted changes only while no reconcile of the key
    is under way; and while triggers are recorded, the object stays and what is wanted changes only
    by a deletion. -/
def Orderly (b : Pool sig Outcome Operator) : Label sig Outcome → Prop
  | .act _ ⟨.change key o, _⟩ =>
    (wantedOf o ≠ wantedOf (b.shared.objects key) → ¬ UnderWay b key) ∧
    (b.shared.activeTriggers key ≠ none →
      o ≠ none ∧ (wantedOf o = none ∨ wantedOf o = wantedOf (b.shared.objects key)))
  | _ => True

/-! ### The contract of a reconcile -/

/-- What the reconciles of a key work on. -/
structure View where
  wanted : Option (List Job)
  recorded : Option (List ℕ)
  active : List (Trigger × ℕ)

def Operator.view (key : String) (s : Operator) : View where
  wanted := wantedOf (s.objects key)
  recorded := s.activeTriggers key
  active := s.active key

/-- The contract of the operations over the view of a key.  An update keeps what is wanted, and the
    object goes only after its triggers; triggers are recorded only for an object that wants them;
    and only active triggers are stopped. -/
def contract (key : String) : Contract sig View where
  pre
    | .get k, _ => k = key
    | .update k o, v => k = key ∧ wantedOf (some o) = v.wanted ∧
      (remains o = none → v.recorded = none)
    | .statusUpdate k _, _ => k = key
    | .running k, _ => k = key
    | .startTrigger t, _ => t.key = key
    | .record k _, v => k = key ∧ v.wanted ≠ none
    | .recorded k, _ => k = key
    | .stop i, v => i ∈ v.active.map Prod.snd
    | .forget k, _ => k = key
    | .now, _ => True
    | .listPods _ _, _ => True
    | .fanOut _, _ => True
    | .change _ _, _ => False
  post
    | .get _, v, r, v' => v' = v ∧ match (r : GetReply) with
      | .found o => wantedOf (some o) = v.wanted
      | .notFound => v.wanted = none ∧ v.recorded = none
      | .failed _ => True
    | .running _, v, r, v' => v' = v ∧ (r : Bool) = v.recorded.isSome
    | .startTrigger t, v, r, v' => (r : ℕ) ∉ v.active.map Prod.snd ∧
        v' = { v with active := v.active ++ [((t, r) : Trigger × ℕ)] }
    | .record _ triggers, v, _, v' => v' = { v with recorded := some triggers }
    | .recorded _, v, r, v' => v' = v ∧ (r : List ℕ) = v.recorded.getD []
    | .stop i, v, _, v' => v' = { v with active := v.active.filter (fun p => p.2 ≠ i) }
    | .forget _, v, _, v' => v' = { v with recorded := none }
    | .update _ _, v, _, v' => v' = v
    | .statusUpdate _ _, v, _, v' => v' = v
    | .now, v, _, v' => v' = v
    | .listPods _ _, v, _, v' => v' = v
    | .fanOut _, v, _, v' => v' = v
    | .change _ _, v, _, v' => v' = v

/-- What holds between reconciles: the recorded triggers are the active ones, and they do what is
    wanted if anything is. -/
structure Rest (v : View) : Prop where
  nodup : (v.active.map Prod.snd).Nodup
  recorded : v.active.map Prod.snd = v.recorded.getD []
  wanted : v.recorded ≠ none → ∀ jobs, v.wanted = some jobs → v.active.map (fun p => p.1.job) = jobs

/-- The update that adds the finalizer. -/
def AddsFinalizer : Event sig → Prop
  | ⟨.update _ o, _⟩ => checkpointScheduleFinalizer ∈ o.finalizers
  | _ => False

/-- No error. -/
def Succeeds (x : Outcome) : Prop := ∀ e, x ≠ .error e

/-- What holds when a reconcile returns. -/
def Returned (tr : List (Event sig)) (x : Outcome) (v : View) : Prop :=
  Succeeds x → (∀ e ∈ tr, ¬ AddsFinalizer e) → v.active.map (fun p => p.1.job) = v.wanted.getD []

variable {o : Object} {i : ℕ} {tr : List (Event sig)}

section Program
variable {key : String} {v : View}

theorem wp_update {Q : UpdateReply → View → Prop} (hwanted : wantedOf (some o) = v.wanted)
    (hgone : remains o = none → v.recorded = none) (h : ∀ r, Q r v) :
    wp (contract key) (update key o) Q v := by
  refine ⟨⟨rfl, hwanted, hgone⟩, fun (r : UpdateReply) v' hv => ?_⟩
  obtain rfl : v' = v := hv
  exact h r

theorem wp_running {Q : Bool → View → Prop} (h : Q v.recorded.isSome v) :
    wp (contract key) (running key) Q v := by
  refine ⟨rfl, fun (r : Bool) v' hv => ?_⟩
  obtain ⟨rfl, rfl⟩ := hv
  exact h

theorem wp_startTrigger {Q : ℕ → View → Prop} {t : Trigger} (ht : t.key = key)
    (h : ∀ i ∉ v.active.map Prod.snd, Q i { v with active := v.active ++ [(t, i)] }) :
    wp (contract key) (startTrigger t) Q v := by
  refine ⟨ht, fun (i : ℕ) v' hv => ?_⟩
  obtain ⟨hi, rfl⟩ := hv
  exact h i hi

theorem wp_record {Q : Unit → View → Prop} {triggers : List ℕ} (hwanted : v.wanted ≠ none)
    (h : Q () { v with recorded := some triggers }) :
    wp (contract key) (record key triggers) Q v := by
  refine ⟨⟨rfl, hwanted⟩, fun _ v' hv => ?_⟩
  obtain rfl : v' = _ := hv
  exact h

theorem wp_recorded {Q : List ℕ → View → Prop} (h : Q (v.recorded.getD []) v) :
    wp (contract key) (recorded key) Q v := by
  refine ⟨rfl, fun (r : List ℕ) v' hv => ?_⟩
  obtain ⟨rfl, rfl⟩ := hv
  exact h

theorem wp_stop {Q : PUnit → View → Prop} (hi : i ∈ v.active.map Prod.snd)
    (h : Q () { v with active := v.active.filter (fun p => p.2 ≠ i) }) :
    wp (contract key) (stop i) Q v := by
  refine ⟨hi, fun _ v' hv => ?_⟩
  obtain rfl : v' = _ := hv
  exact h

theorem wp_forget {Q : Unit → View → Prop} (h : Q () { v with recorded := none }) :
    wp (contract key) (forget key) Q v := by
  refine ⟨rfl, fun _ v' hv => ?_⟩
  obtain rfl : v' = _ := hv
  exact h

/-- Triggers that do not repeat are stopped one after the other. -/
theorem stop_all (ids : List ℕ) (v : View) (hids : v.active.map Prod.snd = ids)
    (hnodup : ids.Nodup) :
    wp (contract key) (ids.forM stop) (fun _ v' => v' = { v with active := [] }) v := by
  induction ids generalizing v with
  | nil =>
    show v = _
    rw [← List.map_eq_nil_iff.mp hids]
  | cons i ids ih =>
    obtain ⟨⟨t, j⟩, rest, hactive, rfl, hrest⟩ := List.map_eq_cons_iff.mp hids
    rw [List.nodup_cons] at hnodup
    rw [List.forM_eq_forM, List.forM_cons, wp_bind]
    refine wp_stop (by simp [hactive]) ?_
    -- the others are not stopped
    have hothers : v.active.filter (fun p => p.2 ≠ j) = rest := by
      rw [hactive, List.filter_cons_of_neg (by simp), List.filter_eq_self]
      intro p hp
      have hmem : p.2 ∈ ids := hrest ▸ List.mem_map_of_mem hp
      simpa using fun heq : p.2 = j => hnodup.1 (heq ▸ hmem)
    exact ih { v with active := v.active.filter (fun p => p.2 ≠ j) }
      (by rw [hothers, hrest]) hnodup.2

/-- `stopTriggers` leaves nothing. -/
theorem stopTriggers_spec (hrest : Rest v) :
    wp (contract key) (stopTriggers key)
      (fun _ v' => v' = { v with recorded := none, active := [] }) v := by
  unfold stopTriggers
  rw [wp_bind]
  refine wp_recorded ?_
  rw [wp_bind]
  refine wp_mono ?_ (stop_all _ v hrest.recorded (hrest.recorded ▸ hrest.nodup))
  rintro - v' rfl
  exact wp_forget rfl

/-- Triggers that are being started: the ones so far, and the jobs they do. -/
def Starting (v : View) (triggers : List ℕ) (jobs : List Job) (v' : View) : Prop :=
  v'.wanted = v.wanted ∧ v'.recorded = v.recorded ∧ (v'.active.map Prod.snd).Nodup ∧
    v'.active.map Prod.snd = triggers ∧ v'.active.map (fun p => p.1.job) = jobs

theorem startIf_spec {v' : View} {triggers : List ℕ} {jobs : List Job} {c : Bool} {t : Trigger}
    (ht : t.key = key) (h : Starting v triggers jobs v') :
    wp (contract key) (startIf c t triggers)
      (fun triggers' => Starting v triggers' (jobs ++ if c then [t.job] else [])) v' := by
  obtain ⟨hwanted, hrecorded, hnodup, rfl, rfl⟩ := h
  cases c with
  | false => exact ⟨hwanted, hrecorded, hnodup, rfl, by simp⟩
  | true =>
    show wp _ (startTrigger t >>= _) _ _
    rw [wp_bind]
    refine wp_startTrigger ht (fun i hi => ⟨hwanted, hrecorded, ?_, by simp, by simp⟩)
    rw [List.map_append, List.nodup_append]
    refine ⟨hnodup, by simp, fun a ha b hb => ?_⟩
    obtain rfl : b = i := by simpa using hb
    exact fun heq => hi (heq ▸ ha)

/-- `startTriggers` starts what the spec configures. -/
theorem startTriggers_spec (spec : Spec) (hnone : v.active = []) :
    wp (contract key) (startTriggers key spec)
      (fun triggers => Starting v triggers (configured spec)) v := by
  have hstart : Starting v [] [] v := ⟨rfl, rfl, by simp [hnone], by simp [hnone], by simp [hnone]⟩
  unfold startTriggers
  rw [wp_bind]
  refine wp_mono (fun triggers₁ v₁ h₁ => ?_) (startIf_spec rfl hstart)
  rw [wp_bind]
  refine wp_mono (fun triggers₂ v₂ h₂ => ?_) (startIf_spec rfl h₁)
  refine wp_mono (fun triggers₃ v₃ h₃ => ?_) (startIf_spec rfl h₂)
  simpa [configured, Trigger.job] using h₃

/-- `ensureTriggers` leaves what is wanted. -/
theorem ensureTriggers_spec {spec : Spec} (hrest : Rest v)
    (hwanted : v.wanted = some (configured spec)) :
    wp (contract key) (ensureTriggers key spec)
      (fun _ v' => Rest v' ∧ v'.active.map (fun p => p.1.job) = v'.wanted.getD []) v := by
  unfold ensureTriggers
  rw [wp_bind]
  refine wp_running ?_
  cases hrecorded : v.recorded with
  | some ids =>
    refine ⟨hrest, ?_⟩
    rw [hrest.wanted (by simp [hrecorded]) _ hwanted, hwanted]
    rfl
  | none =>
    have hnone : v.active = [] := by
      have := hrest.recorded
      rw [hrecorded] at this
      exact List.map_eq_nil_iff.mp this
    show wp _ (startTriggers key spec >>= _) _ _
    rw [wp_bind]
    refine wp_mono ?_ (startTriggers_spec spec hnone)
    rintro triggers v' ⟨hwanted', -, hnodup, rfl, hjobs⟩
    have hsome : v'.wanted = some (configured spec) := hwanted'.trans hwanted
    refine wp_record (by simp [hsome]) ⟨⟨hnodup, rfl, fun _ jobs hw => ?_⟩, ?_⟩
    · exact hjobs.trans (Option.some.inj (hsome.symm.trans hw))
    · simpa [hsome] using hjobs

/-- The operations of the periodic checkpoints. -/
def Periodic (key : String) : sig.Op → Prop
  | .get k => k = key
  | .statusUpdate k _ => k = key
  | .now => True
  | .listPods _ _ => True
  | .fanOut _ => True
  | _ => False

theorem issues_reconcileInterval (schedule : Object) :
    Issues (Periodic key) (reconcileInterval key schedule) := by
  unfold reconcileInterval
  split
  · exact Issues.pure _
  · refine Issues.bind (Issues.perform trivial) (fun t => ?_)
    split
    · exact Issues.pure _
    · refine Issues.bind (issues_runScheduledCheckpoints (fun _ _ => trivial)
        (fun _ => trivial) _) (fun created => ?_)
      refine Issues.bind (issues_recordRun (P := Periodic key) rfl (fun _ => rfl) _ _ _) ?_
      rintro (- | e) <;> exact Issues.pure _

/-- The periodic checkpoints leave the view alone. -/
theorem reconcileInterval_spec {schedule : Object} :
    wp (contract key) (reconcileInterval key schedule) (fun _ v' => v' = v) v := by
  refine wp_of_issues (fun op v₁ hop hv => ?_) (issues_reconcileInterval schedule) rfl
  subst hv
  cases op with
  | get k => exact ⟨hop, fun r v' h => h.1⟩
  | statusUpdate k o => exact ⟨hop, fun r v' h => h⟩
  | now => exact ⟨trivial, fun r v' h => h⟩
  | listPods ns selector => exact ⟨trivial, fun r v' h => h⟩
  | fanOut goroutines => exact ⟨trivial, fun r v' h => h⟩
  | _ => exact hop.elim

/-- A write leaves the view alone. -/
theorem write_spec (hwanted : wantedOf (some o) = v.wanted)
    (hgone : remains o = none → v.recorded = none) :
    wp (contract key) (write key o) (fun _ v' => v' = v) v := by
  unfold write
  rw [wp_bind]
  refine wp_update hwanted hgone ?_
  rintro (- | e | e) <;> rfl

/-- What is left to show at a return, if the trace does not matter. -/
abbrev Settled (x : Outcome) (v : View) : Prop := ∀ tr, Returned tr x v ∧ Rest v

theorem reconcileDeleted_spec (hrest : Rest v) (hwanted : wantedOf (some o) = v.wanted)
    (hdeleting : o.deletionTimestamp.isSome = true) :
    wp (contract key) (reconcileDeleted key o) Settled v := by
  have hnone : v.wanted = none := by rw [← hwanted, wantedOf, if_pos hdeleting]
  have hsettled : ∀ x, Settled x { v with recorded := none, active := [] } := by
    refine fun x tr => ⟨fun _ _ => ?_, ⟨List.nodup_nil, rfl, fun h => absurd rfl h⟩⟩
    simp [hnone]
  unfold reconcileDeleted
  rw [wp_bind]
  refine wp_mono ?_ (stopTriggers_spec hrest)
  rintro - v' rfl
  split
  · refine wp_mono ?_ (write_spec (hwanted.trans rfl) (fun _ => rfl))
    rintro x v' rfl
    exact hsettled x
  · exact hsettled _

theorem reconcileLive_spec (hrest : Rest v) (hwanted : v.wanted = some (configured o.spec)) :
    wp (contract key) (reconcileLive key o) Settled v := by
  unfold reconcileLive
  rw [wp_bind]
  refine wp_mono ?_ (ensureTriggers_spec hrest hwanted)
  rintro - v₁ ⟨hrest₁, hfollows⟩
  refine wp_mono ?_ reconcileInterval_spec
  rintro x v₂ rfl
  exact fun tr => ⟨fun _ _ => hfollows, hrest₁⟩

/-- The finalizer is added: the trace says so. -/
theorem addFinalizer_spec (hrest : Rest v) (hwanted : wantedOf (some o) = v.wanted)
    (hlive : o.deletionTimestamp.isSome = false)
    (hadds : checkpointScheduleFinalizer ∈ o.finalizers) :
    wp (traced (contract key)) (write key o) (fun x y => Returned y.1 x y.2 ∧ Rest y.2)
      (tr, v) := by
  have hstays : remains o ≠ none := by simp [remains, hlive]
  refine ⟨⟨rfl, hwanted, fun h => absurd h hstays⟩, ?_⟩
  rintro r ⟨tr', v'⟩ ⟨hv', rfl⟩
  obtain rfl : v' = v := hv'
  have hreturned : ∀ x, Returned (tr ++ [⟨Op.update key o, r⟩]) x v' ∧ Rest v' := by
    refine fun x => ⟨fun _ hno => ?_, hrest⟩
    exact absurd hadds (hno ⟨Op.update key o, r⟩ (by simp))
  cases (r : UpdateReply) <;> exact hreturned _

/-- **What a reconcile does.** -/
theorem reconcile_spec (hrest : Rest v) :
    wp (traced (contract key)) (reconcile key) (fun x y => Returned y.1 x y.2 ∧ Rest y.2)
      ([], v) := by
  refine ⟨rfl, ?_⟩
  rintro (o | - | e) ⟨tr, v'⟩ ⟨⟨hv', hreply⟩, rfl⟩ <;> obtain rfl : v' = v := hv'
  · show wp _ (if o.deletionTimestamp.isSome then reconcileDeleted key o else _) _ _
    split_ifs with hdeleting hfinalizer
    · exact wp_traced _ (reconcileDeleted_spec hrest hreply hdeleting)
    · refine wp_traced _ (reconcileLive_spec hrest ?_)
      rw [← hreply, wantedOf, if_neg hdeleting]
    · exact addFinalizer_spec hrest hreply (by simpa using hdeleting) (by simp)
  · refine ⟨fun _ _ => ?_, hrest⟩
    obtain ⟨hwanted, hrecorded⟩ := hreply
    have hids := hrest.recorded
    rw [hrecorded] at hids
    rw [List.map_eq_nil_iff.mp hids, hwanted]
    rfl
  · exact ⟨fun hok => absurd rfl (hok e), hrest⟩

end Program

/-! ### The contract and the world -/

/-- What always holds: an absent object has no recorded triggers, nothing is stopped twice, and what
    was not started was not stopped. -/
structure Sane (s : Operator) : Prop where
  absent : ∀ key, s.objects key = none → s.activeTriggers key = none
  once : ∀ i, s.stops i ≤ 1
  unstarted : ∀ i, s.started.length ≤ i → s.stops i = 0

section Effects
variable {s s' : Operator} {key key' : String}

theorem mem_active {p : Trigger × ℕ} (h : p ∈ s.active key) :
    s.started[p.2]? = some p.1 ∧ p.1.key = key ∧ s.stops p.2 = 0 := by
  obtain ⟨hmem, hkey⟩ := List.mem_filter.mp h
  rw [List.mem_zipIdx_iff_getElem?] at hmem
  simpa [hmem] using hkey

theorem view_put_of_ne (o : Option Object) (hne : key' ≠ key) :
    (s.put key o).view key' = s.view key' := by
  simp only [Operator.view, Operator.put, Function.update_of_ne hne]
  rfl

theorem view_put (o : Option Object) :
    (s.put key o).view key = { s.view key with wanted := wantedOf o } := by
  have hwanted : wantedOf ((s.put key o).objects key) = wantedOf o := by
    cases o with
    | none => simp [Operator.put]
    | some o => simp [Operator.put, wantedOf]
  simp only [Operator.view, hwanted]
  rfl

theorem Sane.put (h : Sane s) {o : Option Object} (ho : o = none → s.activeTriggers key = none) :
    Sane (s.put key o) := by
  refine ⟨fun k hk => ?_, h.once, h.unstarted⟩
  by_cases hkk : k = key
  · subst hkk
    exact ho (by simpa [Operator.put] using hk)
  · refine h.absent k ?_
    simpa [Operator.put, Function.update_of_ne hkk] using hk

/-- What remains of an object wants what the object wants. -/
theorem wantedOf_remains (o : Object) : wantedOf (remains o) = wantedOf (some o) := by
  unfold remains
  split_ifs with h
  · rw [wantedOf, wantedOf, if_pos h.1]
  · rfl

/-- A trigger is started. -/
theorem active_start (h : Sane s) (t : Trigger) (k : String) :
    ({ s with started := s.started ++ [t] } : Operator).active k =
      s.active k ++ if t.key = k then [(t, s.started.length)] else [] := by
  have hfresh := h.unstarted s.started.length le_rfl
  simp only [Operator.active, List.zipIdx_append, List.filter_append]
  congr 1
  by_cases hk : t.key = k <;> simp [hk, hfresh]

/-- A trigger is stopped. -/
theorem active_stop (i : ℕ) (k : String) :
    ({ s with stops := Function.update s.stops i (s.stops i + 1) } : Operator).active k =
      (s.active k).filter (fun p => p.2 ≠ i) := by
  simp only [Operator.active, List.filter_filter]
  refine List.filter_congr (fun p _ => ?_)
  by_cases hp : p.2 = i <;> simp [hp]

/-- Stopping a trigger of one key leaves the others' alone. -/
theorem active_stop_of_ne (hi : i ∈ (s.active key).map Prod.snd) (hne : key' ≠ key) :
    (s.active key').filter (fun p => p.2 ≠ i) = s.active key' := by
  obtain ⟨p, hp, rfl⟩ := List.mem_map.mp hi
  rw [List.filter_eq_self]
  intro q hq
  have hsame : q.2 ≠ p.2 := by
    intro heq
    have h₁ := (mem_active hp).1
    have h₂ := (mem_active hq).1
    rw [heq, h₁] at h₂
    exact hne ((mem_active hq).2.1.symm.trans (Option.some.inj h₂ ▸ (mem_active hp).2.1))
  simpa using hsame

/-- A write that keeps what is wanted. -/
theorem put_sound (h : Sane s) {o : Option Object} (hwanted : wantedOf o = wantedOf (s.objects key))
    (hgone : o = none → s.activeTriggers key = none) :
    Sane (s.put key o) ∧ (s.put key o).view key = s.view key ∧
      ∀ k, k ≠ key → (s.put key o).view k = s.view k := by
  refine ⟨h.put hgone, ?_, fun k hk => view_put_of_ne o hk⟩
  rw [view_put, hwanted]
  rfl

/-- An update keeps the view. -/
theorem updates_sound (h : Sane s) {r : UpdateReply}
    (hwanted : wantedOf (some o) = wantedOf (s.objects key))
    (hgone : remains o = none → s.activeTriggers key = none)
    (hact : Written r (Updates s key o) s s') :
    Sane s' ∧ s'.view key = s.view key ∧ ∀ k, k ≠ key → s'.view k = s.view k := by
  rcases hact with ⟨-, -, -, rfl⟩ | ⟨-, rfl⟩
  · exact put_sound h ((wantedOf_remains o).trans hwanted) hgone
  · exact ⟨h, rfl, fun _ _ => rfl⟩

/-- So does a status update. -/
theorem updatesStatus_sound (h : Sane s) {r : UpdateReply}
    (hact : Written r (UpdatesStatus s key o) s s') :
    Sane s' ∧ s'.view key = s.view key ∧ ∀ k, k ≠ key → s'.view k = s.view k := by
  rcases hact with ⟨stored, hstored, -, rfl⟩ | ⟨-, rfl⟩
  · refine put_sound h ?_ (fun hnone => absurd hnone (by simp))
    rw [hstored]
    rfl
  · exact ⟨h, rfl, fun _ _ => rfl⟩

/-- A started trigger has a place of its own, and is active for its key. -/
theorem start_sound (h : Sane s) (t : Trigger) :
    Sane { s with started := s.started ++ [t] } ∧
      s.started.length ∉ (s.view t.key).active.map Prod.snd ∧
      ({ s with started := s.started ++ [t] } : Operator).view t.key = { s.view t.key with
        active := (s.view t.key).active ++ [(t, s.started.length)] } ∧
      ∀ k, k ≠ t.key → ({ s with started := s.started ++ [t] } : Operator).view k = s.view k := by
  have hactive := active_start h t
  refine ⟨⟨h.absent, h.once, fun i hi => h.unstarted i ?_⟩, ?_, ?_, fun k hk => ?_⟩
  · simp only [List.length_append] at hi
    omega
  · -- the new place is beyond all active ones
    intro hmem
    obtain ⟨p, hp, heq⟩ := List.mem_map.mp hmem
    have hget := (mem_active hp).1
    rw [heq, List.getElem?_eq_none le_rfl] at hget
    exact absurd hget (by simp)
  · simp only [Operator.view, hactive, if_pos]
  · simp only [Operator.view, hactive, if_neg hk.symm, List.append_nil]

/-- What is recorded for a key may change, to nothing if the object is gone. -/
theorem record_sound (h : Sane s) {triggers : Option (List ℕ)}
    (habsent : s.objects key = none → triggers = none) :
    Sane { s with activeTriggers := Function.update s.activeTriggers key triggers } ∧
      ({ s with activeTriggers := Function.update s.activeTriggers key triggers } : Operator).view
        key = { s.view key with recorded := triggers } ∧
      ∀ k, k ≠ key → ({ s with activeTriggers := Function.update s.activeTriggers key triggers }
        : Operator).view k = s.view k := by
  refine ⟨⟨fun k hk => ?_, h.once, h.unstarted⟩, ?_, fun k hk => ?_⟩
  · by_cases hkk : k = key
    · subst hkk
      simpa using habsent hk
    · simpa [Function.update_of_ne hkk] using h.absent k hk
  · simp only [Operator.view, Function.update_self]
    rfl
  · simp only [Operator.view, Function.update_of_ne hk]
    rfl

/-- An active trigger is stopped once, and is active no more. -/
theorem stop_sound (h : Sane s) (hi : i ∈ (s.active key).map Prod.snd) :
    Sane { s with stops := Function.update s.stops i (s.stops i + 1) } ∧
      ({ s with stops := Function.update s.stops i (s.stops i + 1) } : Operator).view key
        = { s.view key with active := (s.view key).active.filter (fun p => p.2 ≠ i) } ∧
      ∀ k, k ≠ key → ({ s with stops := Function.update s.stops i (s.stops i + 1) }
        : Operator).view k = s.view k := by
  obtain ⟨p, hp, rfl⟩ := List.mem_map.mp hi
  obtain ⟨hget, -, hzero⟩ := mem_active hp
  have hlt : p.2 < s.started.length := (List.getElem?_eq_some_iff.mp hget).1
  refine ⟨⟨h.absent, fun j => ?_, fun j hj => ?_⟩, ?_, fun k hk => ?_⟩
  · by_cases hj : j = p.2
    · simp [hj, hzero]
    · simpa [Function.update_of_ne hj] using h.once j
  · have hne : j ≠ p.2 := by
      rintro rfl
      exact absurd hlt (not_lt.mpr hj)
    simpa [Function.update_of_ne hne] using h.unstarted j hj
  · simp only [Operator.view, active_stop]
  · simp only [Operator.view, active_stop, active_stop_of_ne hi hk]

/-- **The world meets the contract.**  An operation that the contract of a key permits has the
    effect the contract says, and no other key sees it. -/
theorem operatorAct_sound (h : Sane s) {op : sig.Op} {r : sig.Reply op}
    (hpre : (contract key).pre op (s.view key)) (hact : operatorAct op s r s') :
    Sane s' ∧ (contract key).post op (s.view key) r (s'.view key) ∧
      ∀ k, k ≠ key → s'.view k = s.view k := by
  cases op with
  | get k =>
    obtain rfl : k = key := hpre
    obtain ⟨rfl, hreply⟩ := hact
    refine ⟨h, ⟨rfl, ?_⟩, fun _ _ => rfl⟩
    cases r with
    | found o => exact congrArg wantedOf hreply.symm
    | notFound => exact ⟨congrArg wantedOf hreply, h.absent k hreply⟩
    | failed e => trivial
  | update k o =>
    -- the contract of an update: what is wanted stays, and an object goes only without triggers
    obtain ⟨rfl, hwanted, hgone⟩ := hpre
    exact updates_sound h hwanted hgone hact
  | statusUpdate k o =>
    obtain rfl : k = key := hpre
    exact updatesStatus_sound h hact
  | running k =>
    obtain rfl : k = key := hpre
    obtain ⟨rfl, hr⟩ := hact
    exact ⟨h, ⟨rfl, hr⟩, fun _ _ => rfl⟩
  | startTrigger t =>
    obtain rfl : t.key = key := hpre
    obtain ⟨hr, rfl⟩ := hact
    obtain rfl : r = s.started.length := hr
    obtain ⟨hsane, hfresh, hview, hothers⟩ := start_sound h t
    exact ⟨hsane, ⟨hfresh, hview⟩, hothers⟩
  | record k triggers =>
    obtain ⟨rfl, hwanted⟩ := hpre
    obtain rfl : s' = _ := hact
    -- nothing is recorded for an object that is gone
    exact record_sound h (fun hnone => absurd (congrArg wantedOf hnone) hwanted)
  | recorded k =>
    obtain rfl : k = key := hpre
    obtain ⟨rfl, hr⟩ := hact
    exact ⟨h, ⟨rfl, hr⟩, fun _ _ => rfl⟩
  | stop i =>
    obtain rfl : s' = _ := hact
    exact stop_sound h hpre
  | forget k =>
    obtain rfl : k = key := hpre
    obtain rfl : s' = _ := hact
    exact record_sound h (fun _ => rfl)
  | now =>
    obtain rfl : s' = s := hact
    exact ⟨h, rfl, fun _ _ => rfl⟩
  | listPods ns selector =>
    obtain rfl : s' = s := hact
    exact ⟨h, rfl, fun _ _ => rfl⟩
  | fanOut goroutines =>
    obtain rfl : s' = s := hact
    exact ⟨h, rfl, fun _ _ => rfl⟩
  | change k o => exact hpre.elim

end Effects

/-! ### The result -/

/-- Reconciles by keys. -/
def keyed : Keyed sig Outcome Operator String View where
  first := Op.get
  prog := reconcile
  view := Operator.view
  contract := contract
  rest _ := Rest
  post _ := Returned

variable {b : Pool sig Outcome Operator} {key : String}

/-- An orderly change leaves a view alone, or finds it at rest and leaves it so. -/
theorem change_sound {o : Option Object} {r : sig.Reply (Op.change key o)} (h : Sane b.shared)
    (hok : Orderly b (.act i ⟨Op.change key o, r⟩)) :
    Sane (b.shared.put key o) ∧ ∀ k, (b.shared.put key o).view k = b.shared.view k ∨
      ¬ UnderWay b k ∧ (Rest (b.shared.view k) → Rest ((b.shared.put key o).view k)) := by
  obtain ⟨hidle, hkept⟩ := hok
  refine ⟨h.put (fun hnone => ?_), fun k => ?_⟩
  · by_contra hrecorded
    exact (hkept hrecorded).1 hnone
  by_cases hkk : k = key
  · subst hkk
    rw [view_put]
    by_cases hsame : wantedOf o = wantedOf (b.shared.objects k)
    · left
      rw [hsame]
      rfl
    · refine .inr ⟨hidle hsame,
        fun hrest => ⟨hrest.nodup, hrest.recorded, fun hrecorded jobs hjobs => ?_⟩⟩
      -- triggers are recorded, so the object is being deleted
      rcases (hkept hrecorded).2 with hnone | heq
      · exact absurd (hnone.symm.trans hjobs) (by simp)
      · exact absurd heq hsame
  · exact .inl (view_put_of_ne o hkk)

variable {p : Prog sig Outcome}

/-- Others issue one operation. -/
theorem unfolds_change {o : Option Object} (h : Unfolds (change key o) tr p) :
    p = change key o ∨ p = .pure .done := by
  induction h with
  | nil => exact .inl rfl
  | snoc _ r ih =>
    rcases ih with heq | heq
    · obtain ⟨rfl, heq⟩ := Prog.call.inj heq
      obtain rfl := eq_of_heq heq
      exact .inr rfl
    · exact absurd heq (by simp)

/-- Everything that the rule for keyed programs asks for. -/
theorem keyed_sound : keyed.Sound world Orderly Sane where
  first_inj key key' h := Op.get.inj h
  first_prog key := rfl
  spec key v hrest := reconcile_spec hrest
  start b p hstart := by
    rcases hstart with h | ⟨key, o, rfl⟩
    · exact .inl h
    · exact .inr (fun key' h => Op.noConfusion (Option.some.inj h))
  act key op s r s' h hpre hact := operatorAct_sound h hpre hact
  other b b₀ p i tr op k r s' hstart hu hother h hok hact := by
    rcases hstart with ⟨key, rfl, -⟩ | ⟨key, o, rfl⟩
    · exact absurd hu.first (hother key)
    · rcases unfolds_change hu with heq | heq
      · obtain ⟨rfl, -⟩ := Prog.call.inj heq
        obtain rfl : s' = _ := hact
        exact change_sound h hok
      · exact absurd heq (by simp)
  env s s' _ h := h.elim

/-- The triggers of a key are at rest when the operator starts. -/
theorem rest_init (objects : String → Option Object) (revision : ℕ) (key : String) :
    Rest ((Operator.init objects revision).view key) :=
  ⟨List.nodup_nil, rfl, fun h => absurd rfl h⟩

theorem sane_init (objects : String → Option Object) (revision : ℕ) :
    Sane (Operator.init objects revision) :=
  ⟨fun _ _ => rfl, fun _ => Nat.zero_le 1, fun _ _ => rfl⟩

/-- **Triggers follow the schedule.**  However reconciles of any keys and orderly changes of the
    objects interleave, no trigger is stopped twice, and a reconcile that returns without an error
    and did not only add the finalizer leaves the active triggers that the current object
    configures. -/
theorem triggers_follow (objects : String → Option Object) (revision : ℕ)
    {b : Pool sig Outcome Operator}
    (h : Reaches world Orderly ⟨Operator.init objects revision, []⟩ b) :
    (∀ i, b.shared.stops i ≤ 1) ∧
    ∀ i e c key tr x, Step world b (.act i e) c → c.threads[i]? = some ⟨tr, .pure x⟩ →
      Unfolds (reconcile key) tr (.pure x) → Succeeds x → (∀ e ∈ tr, ¬ AddsFinalizer e) →
      Follows key c.shared := by
  have hI := keyed_sound.inv h rfl (sane_init objects revision) (rest_init objects revision)
  refine ⟨hI.shared.once, fun i e c key tr x hs hi hu hx hadds => ?_⟩
  exact keyed_sound.returned hI hs hi hu.first hx hadds

/-! ### Runs -/

/-- A schedule with an annotation trigger for the containers. -/
def webSchedule (containerNames : List String) (resourceVersion : ℕ) : Object where
  spec := {
    ns := "apps"
    selector := "app=web"
    containerNames := containerNames
    triggers := {
      interval := none
      resourceThreshold := none
      onKubernetesEvents := []
      onAnnotation := true } }
  deletionTimestamp := none
  finalizers := [checkpointScheduleFinalizer]
  creationTimestamp := 0
  status := { conditions := [], lastCheckpointTime := none, checkpointsCreated := 0 }
  resourceVersion := resourceVersion

/-- The trigger for all containers. -/
def webTrigger : Trigger where
  key := "apps/web"
  kind := .annotationTrigger
  spec := (webSchedule [] 0).spec

/-- Only this schedule is stored. -/
def webObjects (key : String) : Option Object :=
  if key = "apps/web" then some (webSchedule [] 0) else none

/-- The operations of its first reconcile. -/
def webGet : Event sig := ⟨Op.get "apps/web", GetReply.found (webSchedule [] 0)⟩

def webRunning : Event sig := ⟨Op.running "apps/web", false⟩

def webStart : Event sig := ⟨Op.startTrigger webTrigger, (0 : ℕ)⟩

def webRecord : Event sig := ⟨Op.record "apps/web" [0], ()⟩

/-- The trigger is started. -/
def webStarted : Operator := { Operator.init webObjects 0 with started := [webTrigger] }

/-- The trigger is recorded. -/
def webRecorded : Operator :=
  { webStarted with
    activeTriggers := Function.update webStarted.activeTriggers "apps/web" (some [0]) }

/-- The first reconcile has returned. -/
def webReturned : Pool sig Outcome Operator :=
  ⟨webRecorded, [⟨[webGet, webRunning, webStart, webRecord], .pure .done⟩]⟩

/-- The label changes no object. -/
def Unchanging : Label sig Outcome → Prop
  | .act _ ⟨.change _ _, _⟩ => False
  | _ => True

/-- The object is changed, and another reconcile is started. -/
def webChanged (o : Option Object) : Pool sig Outcome Operator :=
  ⟨webRecorded.put "apps/web" o, webReturned.threads ++
    [⟨[⟨Op.change "apps/web" o, ()⟩], .pure .done⟩, ⟨[], reconcile "apps/web"⟩]⟩

theorem reaches_webChanged {ok : Pool sig Outcome Operator → Label sig Outcome → Prop}
    (hok : ∀ b l, Unchanging l → ok b l) (o : Option Object)
    (hchange : ok ⟨webRecorded, webReturned.threads ++ [⟨[], change "apps/web" o⟩]⟩
      (.act 1 ⟨Op.change "apps/web" o, ()⟩)) :
    Reaches world ok ⟨Operator.init webObjects 0, []⟩ (webChanged o) := by
  have hempty : Reaches world ok ⟨Operator.init webObjects 0, []⟩
      ⟨Operator.init webObjects 0, []⟩ :=
    .refl
  have hspawned := hempty.step (hok _ (.spawn (reconcile "apps/web")) trivial)
    (.spawn (Or.inl ⟨_, rfl, by simp⟩))
  have h₁ := hspawned.act 0 webGet rfl rfl (hok _ _ trivial) ⟨rfl, rfl⟩
  have h₂ := h₁.act 0 webRunning rfl rfl (hok _ _ trivial) ⟨rfl, rfl⟩
  have h₃ := h₂.act 0 webStart rfl rfl (hok _ _ trivial) ⟨rfl, rfl⟩
  have hreturned := h₃.act 0 webRecord rfl rfl (hok _ _ trivial) rfl
  have huser := hreturned.step (hok _ (.spawn (change "apps/web" o)) trivial)
    (.spawn (Or.inr ⟨"apps/web", o, rfl⟩))
  have hchanged := huser.act 1 ⟨Op.change "apps/web" o, ()⟩ rfl rfl hchange rfl
  refine hchanged.step (hok _ (.spawn (reconcile "apps/web")) trivial)
    (.spawn (Or.inl ⟨"apps/web", rfl, fun t ht _ => ?_⟩))
  -- the other reconcile and the user are done
  have hthreads : t ∈ webReturned.threads ++ [⟨[⟨Op.change "apps/web" o, ()⟩], .pure .done⟩] := ht
  rw [webReturned, List.mem_append, List.mem_singleton, List.mem_singleton] at hthreads
  rcases hthreads with rfl | rfl <;> exact ⟨_, rfl⟩

/-- The last operation of a reconcile. -/
theorem exists_last {ok : Pool sig Outcome Operator → Label sig Outcome → Prop}
    {a : Pool sig Outcome Operator} (_ : Reaches world ok a b) (i : ℕ) (e : Event sig)
    {k : sig.Reply e.op → Prog sig Outcome} {x : Outcome} {s' : Operator}
    (hi : b.threads[i]? = some ⟨tr, p⟩) (hp : p = .call e.op k)
    (hact : world.act e.op b.shared e.reply s') (hx : k e.reply = .pure x) :
    ∃ c, Step world b (.act i e) c ∧ c.threads[i]? = some ⟨tr ++ [e], .pure x⟩ ∧ c.shared = s' := by
  subst hp
  have hlt : i < b.threads.length := (List.getElem?_eq_some_iff.mp hi).1
  refine ⟨_, .event i e hi rfl hact, ?_, rfl⟩
  rw [List.getElem?_set_self hlt, hx]

/-- The schedule is being deleted. -/
def webDeleted (resourceVersion : ℕ) : Object :=
  { webSchedule [] resourceVersion with deletionTimestamp := some 1 }

/-- The rule at work: the schedule is deleted after its first reconcile, and the second one stops
    the trigger. -/
theorem triggers_follow_deleted :
    (webRecorded.active "apps/web").map Prod.snd = [0] ∧
    ∃ b c e, Reaches world Orderly ⟨Operator.init webObjects 0, []⟩ b ∧
      Step world b (.act 2 e) c ∧ b.shared.stops 0 = 1 ∧ Follows "apps/web" c.shared ∧
      c.shared.active "apps/web" = [] := by
  have horderly : ∀ b l, Unchanging l → Orderly b l := by
    intro b l hl
    unfold Orderly
    split
    · exact hl.elim
    · trivial
  have hchanged := reaches_webChanged horderly (some (webDeleted 0))
    ⟨?_, fun _ => ⟨nofun, .inl rfl⟩⟩
  · have h₁ := hchanged.act 2 ⟨Op.get "apps/web", GetReply.found (webDeleted 1)⟩ rfl rfl trivial
      ⟨rfl, rfl⟩
    have h₂ := h₁.act 2 ⟨Op.recorded "apps/web", [0]⟩ rfl rfl trivial ⟨rfl, rfl⟩
    have h₃ := h₂.act 2 ⟨Op.stop 0, ()⟩ rfl rfl trivial rfl
    have h₄ := h₃.act 2 ⟨Op.forget "apps/web", ()⟩ rfl rfl trivial rfl
    obtain ⟨c, hstep, hc, hshared⟩ := exists_last h₄ 2
      ⟨Op.update "apps/web" { webDeleted 1 with finalizers := [] }, UpdateReply.ok⟩
      (x := .done) rfl rfl (.inl ⟨webDeleted 1, rfl, rfl, rfl⟩) rfl
    refine ⟨by decide, _, c, _, h₄, hstep, rfl, ?_, by rw [hshared]; decide⟩
    refine (triggers_follow webObjects 0 h₄).2 2 _ c "apps/web" _ .done hstep hc
      (.cons (.cons (.cons (.cons (.cons (.nil _)))))) (by simp [Succeeds]) ?_
    intro e he
    simp only [List.cons_append, List.nil_append, List.mem_cons, List.not_mem_nil, or_false] at he
    rcases he with rfl | rfl | rfl | rfl | rfl
    · exact not_false
    · exact not_false
    · exact not_false
    · exact not_false
    · exact List.not_mem_nil
  · -- the first reconcile has returned, and the user has not begun
    rintro - ⟨t, ht, -, hbegun, hdone⟩
    rw [webReturned, List.mem_append, List.mem_singleton, List.mem_singleton] at ht
    rcases ht with rfl | rfl
    · exact hdone ⟨_, rfl⟩
    · exact hbegun rfl

/-- A reconcile returns without an error and leaves triggers that do not follow the object; `P` is
    about the object. -/
def Strays (P : Option Object → Prop) : Prop :=
  ∃ b c i e key tr x, Reaches world (fun _ _ => True) ⟨Operator.init webObjects 0, []⟩ b ∧
    Step world b (.act i e) c ∧ c.threads[i]? = some ⟨tr, .pure x⟩ ∧
    Unfolds (reconcile key) tr (.pure x) ∧ Succeeds x ∧ (∀ e ∈ tr, ¬ AddsFinalizer e) ∧
    P (c.shared.objects key) ∧ ¬ Follows key c.shared

/-- A last operation of a reconcile after which the triggers stray. -/
theorem strays_of {P : Option Object → Prop}
    (h : Reaches world (fun _ _ => True) ⟨Operator.init webObjects 0, []⟩ b) (i : ℕ)
    (e : Event sig) {k : sig.Reply e.op → Prog sig Outcome} {x : Outcome} {s' : Operator}
    (hi : b.threads[i]? = some ⟨tr, p⟩) (hp : p = .call e.op k)
    (hact : world.act e.op b.shared e.reply s') (hx : k e.reply = .pure x)
    (hu : Unfolds (reconcile key) tr p) (hok : Succeeds x)
    (hadds : ∀ e' ∈ tr ++ [e], ¬ AddsFinalizer e') (hP : P (s'.objects key))
    (hstrays : ¬ Follows key s') : Strays P := by
  obtain ⟨c, hstep, hc, rfl⟩ := exists_last h i e hi hp hact hx
  subst hp
  exact ⟨b, c, i, e, key, tr ++ [e], x, h, hstep, hc, hx ▸ .snoc hu e.reply, hok, hadds, hP,
    hstrays⟩

/-- Triggers do not follow the schedule: after an edit of the container names the next reconcile
    leaves the trigger as it is, and after the object is gone it leaves it running. -/
theorem triggers_stray : Strays (fun o => o.isSome) ∧ Strays (fun o => o.isNone) := by
  constructor
  · have hget := (reaches_webChanged (fun _ _ _ => trivial) (some (webSchedule ["app"] 0))
      trivial).act 2
      ⟨Op.get "apps/web", GetReply.found (webSchedule ["app"] 1)⟩ rfl rfl trivial ⟨rfl, rfl⟩
    refine strays_of hget 2 ⟨Op.running "apps/web", true⟩ rfl rfl ⟨rfl, rfl⟩ rfl (.cons (.nil _))
      (x := .done) (by simp [Succeeds]) ?_ rfl (by unfold Follows; decide)
    intro e he
    rcases List.mem_append.mp he with he | he <;> obtain rfl := List.mem_singleton.mp he <;>
      exact not_false
  · refine strays_of (reaches_webChanged (fun _ _ _ => trivial) none trivial) 2
      ⟨Op.get "apps/web", GetReply.notFound⟩ rfl rfl
      ⟨rfl, rfl⟩ rfl (.nil _) (x := .done) (by simp [Succeeds]) ?_ rfl (by unfold Follows; decide)
    intro e he
    obtain rfl := List.mem_singleton.mp he
    exact not_false

end CheckpointRestore.Schedule.Lifecycle
