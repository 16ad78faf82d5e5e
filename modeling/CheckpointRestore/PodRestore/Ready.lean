import CheckpointRestore.PodRestore.Observe

namespace CheckpointRestore.Restore

open Interaction Go
open Forensic (Condition ConditionStatus setStatusCondition said said_setStatusCondition)

/-!
# `Ready` — what the stored condition says about the world

A reconcile derives the `Ready` condition anew at every exit.  Others act between any two of its
calls, every call of the API may fail, and pins and rendering may fail without an error.

* `among` — the calls of a reconcile, with others before each;
* `Known` — what stays as it was read, whatever others do: the status of the object;
* `Concludes` — an exit: what it reports, and what that says about the Pod;
* `ready_reflects` — the stored `Ready` condition is true exactly if the spec is valid, the node
  exists and the Pod is ours and has started; the recorded name of the Pod is never cleared.
-/

variable {ρ : Type}

/-! ### Others -/

/-- Others act any number of times. -/
def Others : Cluster ρ → Cluster ρ → Prop :=
  Relation.ReflTransGen (fun s s' => ∃ a : Action ρ, a.act s s')

/-- A call, with others before it. -/
def among (r : PodRestoreReconciler) (m : Machine) (others : Cluster ρ → Cluster ρ → Prop)
    (op : (sig ρ).Op) (s : Cluster ρ) (x : (sig ρ).Reply op) (s' : Cluster ρ) : Prop :=
  ∃ s₀, others s s₀ ∧ Cluster.act r m True op s₀ x s'

/-- What others keep: Pods have the names they are stored under, and the UIDs of the stored objects
    have been given out. -/
structure Sound (s : Cluster ρ) : Prop where
  named : ∀ key pod, s.pods key = some pod → pod.pod.name = key.name
  used : ∀ key o, s.objects key = some o → o.uid < s.nextUid

/-- The object as it was read: its UID is its own, and its status has not changed. -/
structure Known (key : ObjectKey) (o : PodRestoreObject ρ) (s : Cluster ρ) : Prop where
  sound : Sound s
  given : o.uid < s.nextUid
  status : ∀ o', s.objects key = some o' → o'.uid = o.uid → o'.status = o.status

section Known
variable {key : ObjectKey} {o : PodRestoreObject ρ} {s s' : Cluster ρ}

/-- What others do to objects and Pods.  An object keeps its UID and its status, or it is new and
    has taken a UID that was free; a Pod keeps its name, or it has that of its key. -/
structure Leads (s s' : Cluster ρ) : Prop where
  nextUid : s.nextUid ≤ s'.nextUid
  objects : ∀ key x, s'.objects key = some x → (s.nextUid ≤ x.uid ∧ x.uid < s'.nextUid) ∨
    ∃ y, s.objects key = some y ∧ x.uid = y.uid ∧ x.status = y.status
  pods : ∀ key pod, s'.pods key = some pod → pod.pod.name = key.name ∨
    ∃ before, s.pods key = some before ∧ pod.pod.name = before.pod.name

/-- Only the Pod under one key is replaced. -/
theorem Leads.pod {k : ObjectKey} {pod : Option (PodObject ρ)}
    (hobjects : s'.objects = s.objects) (huid : s'.nextUid = s.nextUid)
    (hpods : s'.pods = Function.update s.pods k pod)
    (hpod : ∀ p, pod = some p → p.pod.name = k.name ∨
      ∃ before, s.pods k = some before ∧ p.pod.name = before.pod.name) : Leads s s' := by
  refine ⟨huid.ge, fun _ x hx => .inr ⟨x, hobjects ▸ hx, rfl, rfl⟩, fun key p hp => ?_⟩
  rw [hpods] at hp
  by_cases hk : key = k
  · subst hk
    exact hpod p ((Function.update_self (f := s.pods) key pod).symm.trans hp)
  · exact .inr ⟨p, (Function.update_of_ne hk pod s.pods).symm.trans hp, rfl⟩

/-- Neither objects nor Pods are touched. -/
theorem Leads.same (hobjects : s'.objects = s.objects) (huid : s'.nextUid = s.nextUid)
    (hpods : s'.pods = s.pods) : Leads s s' :=
  ⟨huid.ge, fun _ x hx => .inr ⟨x, hobjects ▸ hx, rfl, rfl⟩,
    fun _ p hp => .inr ⟨p, hpods ▸ hp, rfl⟩⟩

/-- An object is stored again, with its UID and its status. -/
theorem Leads.store {k : ObjectKey} {x y : PodRestoreObject ρ} (hx : s.objects k = some x)
    (huid : y.uid = x.uid) (hstatus : y.status = x.status) : Leads s (s.store k y) := by
  refine ⟨le_rfl, fun key z hz => .inr ?_, fun key p hp => .inr ⟨p, hp, rfl⟩⟩
  rcases store_objects hz with ⟨-, hz⟩ | ⟨rfl, rfl, -⟩
  · exact ⟨z, hz, rfl, rfl⟩
  · exact ⟨x, hx, huid, hstatus⟩

/-- What others do leads from a state to the next. -/
theorem Action.leads {a : Action ρ} (hact : a.act s s') : Leads s s' := by
  cases a with
  | create k finalizers targetNode checkpoints template =>
    obtain ⟨-, rfl⟩ := hact
    refine ⟨Nat.le_succ _, fun key x hx => ?_, fun key p hp => .inr ⟨p, hp, rfl⟩⟩
    -- the new object takes the next UID
    by_cases hk : key = k
    · subst hk
      have hstored := (Function.update_self (f := s.objects) key _).symm.trans hx
      obtain rfl := Option.some.inj hstored
      exact .inl ⟨le_rfl, Nat.lt_succ_self _⟩
    · exact .inr ⟨x, (Function.update_of_ne hk _ s.objects).symm.trans hx, rfl, rfl⟩
  | delete k =>
    obtain ⟨x, hx, rfl⟩ := hact
    exact .store hx rfl rfl
  | editFinalizers k finalizers =>
    obtain ⟨x, hx, -, -, rfl⟩ := hact
    exact .store hx rfl rfl
  | createPod k pod =>
    obtain ⟨-, hname, rfl⟩ := hact
    exact .pod rfl rfl rfl (fun p hp => .inl (Option.some.inj hp ▸ hname))
  | setPodStatus k phase reason =>
    obtain ⟨pod, hpod, rfl⟩ := hact
    exact .pod rfl rfl rfl (fun p hp => .inr ⟨pod, hpod, Option.some.inj hp ▸ rfl⟩)
  | deletePod k =>
    obtain rfl := hact
    exact .pod rfl rfl rfl (fun p hp => absurd hp (by simp))
  | addNode name =>
    obtain rfl := hact
    exact .same rfl rfl rfl
  | removeNode name =>
    obtain rfl := hact
    exact .same rfl rfl rfl
  | files fs =>
    obtain ⟨-, rfl⟩ := hact
    exact .same rfl rfl rfl

/-- Pods keep their names, and every UID in use was given out. -/
theorem Sound.leads (h : Sound s) (hleads : Leads s s') : Sound s' := by
  refine ⟨fun key pod hpod => ?_, fun key x hx => ?_⟩
  · rcases hleads.pods key pod hpod with hname | ⟨before, hbefore, hname⟩
    · exact hname
    · exact hname.trans (h.named key before hbefore)
  · rcases hleads.objects key x hx with ⟨-, hnew⟩ | ⟨y, hy, huid, -⟩
    · exact hnew
    · rw [huid]
      exact (h.used key y hy).trans_le hleads.nextUid

/-- Others do not touch the status. -/
theorem Known.leads (h : Known key o s) (hleads : Leads s s') : Known key o s' := by
  refine ⟨h.sound.leads hleads, h.given.trans_le hleads.nextUid, fun x hx huid => ?_⟩
  rcases hleads.objects key x hx with ⟨hnew, -⟩ | ⟨y, hy, hsame, hstatus⟩
  · -- a new object has a UID that was never given out
    exact absurd h.given (by omega)
  · exact hstatus.trans (h.status y hy (hsame.symm.trans huid))

/-- The same after any number of actions. -/
theorem Sound.others (h : Sound s) (hothers : Others s s') : Sound s' := by
  induction hothers with
  | refl => exact h
  | tail _ hact ih =>
    obtain ⟨a, hact⟩ := hact
    exact ih.leads (Action.leads hact)

/-- An object that was read is known whatever happens in between. -/
theorem Known.others (h : Known key o s) (hothers : Others s s') : Known key o s' := by
  induction hothers with
  | refl => exact h
  | tail _ hact ih =>
    obtain ⟨a, hact⟩ := hact
    exact ih.leads (Action.leads hact)

end Known

/-! ### What an exit stores -/

/-- The `Ready` condition is true. -/
def Ready (st : PodRestoreStatus) : Prop :=
  (said st.conditions conditionReady).map Prod.fst = some .true

/-- The stored status is what the exit reports. -/
def Told (key : ObjectKey) (o : PodRestoreObject ρ) (rep : Report) (s : Cluster ρ) : Prop :=
  ∀ o', s.objects key = some o' → o'.uid = o.uid →
    (Ready o'.status ↔ rep.status = .true) ∧
      o'.status.podName = rep.podName.getD o.status.podName

/-- Nodes and Pods are as they were. -/
def Same (s s' : Cluster ρ) : Prop := s'.nodes = s.nodes ∧ s'.pods = s.pods

/-- Nobody else acts. -/
def Alone (others : Cluster ρ → Cluster ρ → Prop) : Prop := ∀ s s', others s s' → s' = s

/-- The calls that read neither a node nor a Pod. -/
def Blind : RestoreOp ρ → Prop
  | .getNode _ | .getPod _ => False
  | _ => True

/-- A stored status says the same. -/
theorem ready_stored (st : PodRestoreStatus) : Ready st.stored ↔ Ready st := by
  unfold Ready
  rw [said_stored]

section Report
variable {o : PodRestoreObject ρ} {st : PodRestoreStatus}

/-- The status that is written is ready if and only if the report says so. -/
theorem ready_statusOf (rep : Report) (t : ℤ) :
    Ready (rep.statusOf o st t) ↔ rep.status = .true := by
  have hsaid : said (rep.statusOf o st t).conditions conditionReady
      = some (rep.status, rep.reason, rep.message, o.generation) := by
    unfold Report.statusOf PodRestoreStatus.set
    rw [said_setStatusCondition]
    rfl
  unfold Ready
  rw [hsaid]
  exact Option.some_inj

/-- A report reads no Pod. -/
theorem report_blind (key : ObjectKey) (status : ConditionStatus) (reason message : String)
    (result : Result) :
    Issues (S := sig ρ) Blind (report key o st status reason message result) := by
  refine Issues.bind (Issues.perform trivial) (fun t => ?_)
  unfold saveStatus
  split_ifs
  · exact Issues.pure _
  · refine Issues.bind (Issues.perform trivial) (fun (x : Bool) => ?_)
    cases x <;> exact Issues.pure _

end Report

section Runs
variable {r : PodRestoreReconciler} {m : Machine} {isPrint : Char → Bool} {jsonErr : String}
  {others : Cluster ρ → Cluster ρ → Prop} {key : ObjectKey} {o : PodRestoreObject ρ}
  {s s' : Cluster ρ} {tr : List (Event (sig ρ))} {x : Result}

/-- A status update that succeeds. -/
theorem updateAnswer_true {s₀ : Cluster ρ} {version : ℕ} {st : PodRestoreStatus}
    (h : apiCall True (s₀.updateAnswer key version st) false s₀ true s') :
    ∃ x, s₀.objects key = some x ∧ s' = s₀.store key { x with status := st.stored } := by
  rcases h with ⟨hreply, rfl⟩ | ⟨-, hreply, -⟩
  · unfold Cluster.updateAnswer at hreply ⊢
    cases hx : s₀.objects key with
    | none =>
      rw [hx] at hreply
      exact absurd hreply (by simp)
    | some x =>
      rw [hx] at hreply
      dsimp only at hreply ⊢
      split_ifs at hreply ⊢
      exact ⟨x, rfl, rfl⟩
  · exact absurd hreply (by simp)

/-! ### The Pod -/

/-- The Pod is controlled by the object and has started. -/
def Restored (o : PodRestoreObject ρ) (pod : PodObject ρ) : Prop :=
  pod.controllerUID = some o.uid ∧ (pod.phase = .running ∨ pod.phase = .succeeded)

/-- Such a Pod was read. -/
def PodSeen (key : ObjectKey) (o : PodRestoreObject ρ) (tr : List (Event (sig ρ))) : Prop :=
  ∃ pod, (⟨.getPod key, .found pod⟩ : Event (sig ρ)) ∈ tr ∧ Restored o pod

/-- Such a Pod is there. -/
def PodThere (key : ObjectKey) (o : PodRestoreObject ρ) (s : Cluster ρ) : Prop :=
  ∃ pod, s.pods key = some pod ∧ Restored o pod

/-- Only a Pod that is restored is reported as ready. -/
theorem reportPod_status (pod : PodObject ρ) :
    (reportPod isPrint o pod).status = .true ↔ Restored o pod := by
  unfold reportPod Restored
  split_ifs with howned
  · rw [and_iff_right howned]
    show (podState pod).1 = .true ↔ _
    unfold podState
    cases pod.phase <;> simp
  · simp [howned]

/-- A report names the Pod or leaves the name alone. -/
theorem reportPod_podName (pod : PodObject ρ) :
    (reportPod isPrint o pod).podName = none ∨
      (reportPod isPrint o pod).podName = some pod.pod.name := by
  unfold reportPod
  split_ifs
  · exact .inr rfl
  · exact .inl rfl

/-- An exit whose report is true exactly if `seen`, which is `there` if nobody else acts. -/
def Concludes (others : Cluster ρ → Cluster ρ → Prop) (key : ObjectKey) (o : PodRestoreObject ρ)
    (seen there : Prop) (s' : Cluster ρ) : Prop :=
  ∃ rep : Report, Told key o rep s' ∧ (rep.status = .true ↔ seen) ∧
    (Alone others → (seen ↔ there)) ∧ (rep.podName = none ∨ rep.podName = some key.name)

/-- An exit that reports a failure. -/
theorem Concludes.of_false {rep : Report} {seen there : Prop} (htold : Told key o rep s')
    (hstatus : rep.status = .false) (hname : rep.podName = none) (hseen : ¬ seen)
    (hthere : Alone others → ¬ there) : Concludes others key o seen there s' :=
  ⟨rep, htold, iff_of_false (by simp [hstatus]) hseen,
    fun halone => iff_of_false hseen (hthere halone), .inl hname⟩

/-- Adopting a Pod reads none. -/
theorem adopt_blind (st : PodRestoreStatus) (pod : PodObject ρ) :
    Issues (S := sig ρ) Blind (adopt isPrint key o st pod) := by
  unfold adopt
  split_ifs <;> exact report_blind ..

/-- Only the reads count. -/
theorem podSeen_append {before after : List (Event (sig ρ))} (hblind : ∀ e ∈ after, Blind e.op) :
    PodSeen key o (before ++ after) ↔ PodSeen key o before := by
  refine ⟨?_, fun ⟨pod, he, hpod⟩ => ⟨pod, List.mem_append_left _ he, hpod⟩⟩
  rintro ⟨pod, he, hpod⟩
  rcases List.mem_append.mp he with he | he
  · exact ⟨pod, he, hpod⟩
  · exact (hblind _ he).elim

/-- A read that finds something is fresh. -/
theorem read_call_found {α : Type} {stored : Option α} {y : α}
    (h : apiCall True (Cluster.read stored, s) .failed s (.found y) s') :
    stored = some y ∧ s' = s := by
  rcases h with ⟨hreply, rfl⟩ | ⟨-, hreply, -⟩
  · exact ⟨Cluster.read_found hreply, rfl⟩
  · exact absurd hreply (by simp)

/-- So is one that finds nothing. -/
theorem read_call_notFound {α : Type} {stored : Option α}
    (h : apiCall True (Cluster.read stored, s) .failed s .notFound s') :
    stored = none ∧ s' = s := by
  rcases h with ⟨hreply, rfl⟩ | ⟨-, hreply, -⟩
  · exact ⟨Cluster.read_notFound hreply, rfl⟩
  · exact absurd hreply (by simp)

/-- A creation that does not fail finds no Pod, or finds one in its place. -/
theorem create_call {pod : PodObject ρ} {reply : CreateReply} (hreply : reply ≠ .failed)
    (h : apiCall True (s.createAnswer key pod) .failed s reply s') :
    reply = .created ∧ s.pods key = none ∧ s' = s.putPod key pod ∨
    reply = .alreadyExists ∧ s.pods key ≠ none ∧ s' = s := by
  rcases h with ⟨hanswer, rfl⟩ | ⟨-, hfailed, -⟩
  · unfold Cluster.createAnswer at hanswer ⊢
    cases hpods : s.pods key with
    | none =>
      rw [hpods] at hanswer
      exact .inl ⟨hanswer, rfl, rfl⟩
    | some other =>
      rw [hpods] at hanswer
      exact .inr ⟨hanswer, by simp, rfl⟩
  · exact absurd hfailed hreply

/-- Operations that look at no Pod do not show one. -/
theorem not_podSeen_append {before after : List (Event (sig ρ))} (hbefore : ¬ PodSeen key o before)
    (hblind : ∀ e ∈ after, Blind e.op) : ¬ PodSeen key o (before ++ after) :=
  (podSeen_append hblind).not.mpr hbefore

/-- The Pod was read just now. -/
theorem podSeen_concat {before : List (Event (sig ρ))} (hbefore : ¬ PodSeen key o before)
    (pod : PodObject ρ) :
    PodSeen key o (before ++ [⟨.getPod key, .found pod⟩]) ↔ Restored o pod := by
  refine ⟨?_, fun hrestored => ⟨pod, by simp, hrestored⟩⟩
  rintro ⟨pod', he, hrestored⟩
  rcases List.mem_append.mp he with he | he
  · exact absurd ⟨pod', he, hrestored⟩ hbefore
  · cases List.mem_singleton.mp he
    exact hrestored

/-! ### The exits -/

section Exits
variable (hothers : ∀ s s', others s s' → Others s s') (hknown : Known key o s)
include hothers hknown

/-- Pinning changes files only. -/
theorem known_pinAll {owner : String} {cps : List ContainerCheckpoint} {all : Bool}
    (h : Runs (among r m others) (pinAll owner cps) s tr all s') : Known key o s' := by
  refine Runs.keeps (I := Known key o) (fun op s₁ x s₂ hop hknown hact => ?_) pinAll_issues h hknown
  obtain ⟨path, rfl⟩ := hop
  obtain ⟨s₀, hfirst, tr, fs, -, rfl⟩ := hact
  exact (hknown.others (hothers _ _ hfirst)).leads (.same rfl rfl rfl)

variable (hx : x ≠ .error)
include hx

section Status
variable {st : PodRestoreStatus} (hname : st.podName = o.status.podName)
include hname

/-- **An exit.**  If it returns no error, what is stored is what it reports. -/
theorem told_report (rep : Report) {result : Result}
    (h : Runs (among r m others) (report key o { st with podName := rep.podName.getD st.podName }
      rep.status rep.reason rep.message result) s tr x s') :
    Told key o rep s' ∧ (Alone others → Same s s') := by
  unfold report at h
  obtain ⟨t, tr₂, s₁, rfl, ⟨s₀, hfirst, rfl⟩, hsave⟩ := h.of_call
  have hknown₁ := hknown.others (hothers _ _ hfirst)
  have hpodName : (rep.statusOf o st t).podName = rep.podName.getD o.status.podName := by
    rw [← hname]
    rfl
  change Runs _ (if o.status = rep.statusOf o st t then _ else _) _ _ _ _ at hsave
  split_ifs at hsave with hsame
  -- nothing to write: the status that was read, and is still stored, is the reported one
  · obtain ⟨-, -, rfl⟩ := hsave.of_pure
    refine ⟨fun o' ho' huid => ?_, fun halone => ?_⟩
    · have hstatus := (hknown₁.status o' ho' huid).trans hsame
      rw [hstatus]
      exact ⟨ready_statusOf rep t, hpodName⟩
    · rw [halone _ _ hfirst]
      exact ⟨rfl, rfl⟩
  · obtain ⟨reply, tr₄, s₂, rfl, ⟨s₃, hsecond, hact⟩, hreturn⟩ := hsave.of_call
    cases reply with
    | false =>
      obtain ⟨-, rfl, -⟩ := hreturn.of_pure
      exact absurd rfl hx
    | true =>
      obtain ⟨-, -, rfl⟩ := hreturn.of_pure
      -- the write succeeded, so it replaced the status of the version that was read
      obtain ⟨y, -, rfl⟩ := updateAnswer_true hact
      refine ⟨fun o' ho' huid => ?_, fun halone => ?_⟩
      · rcases store_objects ho' with ⟨hne, -⟩ | ⟨-, rfl, -⟩
        · exact absurd rfl hne
        · exact ⟨(ready_stored _).trans (ready_statusOf rep t), hpodName⟩
      · rw [← halone _ _ hfirst, ← halone _ _ hsecond]
        exact ⟨rfl, rfl⟩

/-- The end of a reconcile that has a Pod. -/
theorem told_adopt {pod : PodObject ρ}
    (h : Runs (among r m others) (adopt isPrint key o st pod) s tr x s') :
    Told key o (reportPod isPrint o pod) s' ∧ (Alone others → Same s s') := by
  unfold adopt at h
  unfold reportPod
  split_ifs at h ⊢ with howned
  · exact told_report hothers hknown hx hname ⟨some pod.pod.name, (podState pod).1,
      (podState pod).2.1, (podState pod).2.2.1⟩ h
  · exact told_report hothers hknown hx hname
      ⟨none, .false, "PodConflict", conflictMessage isPrint pod⟩ h

variable {before : List (Event (sig ρ))}

/-- A Pod that was read is adopted, or reported as somebody else's. -/
theorem concludes_adopt {pod : PodObject ρ} (hpod : pod.pod.name = key.name)
    (hthere : Alone others → s.pods key = some pod)
    (hbefore : PodSeen key o before ↔ Restored o pod)
    (h : Runs (among r m others) (adopt isPrint key o st pod) s tr x s') :
    Concludes others key o (PodSeen key o (before ++ tr)) (PodThere key o s') s' := by
  obtain ⟨htold, hsame⟩ := told_adopt hothers hknown hx hname h
  have hseen : PodSeen key o (before ++ tr) ↔ Restored o pod :=
    (podSeen_append ((adopt_blind st pod).of_runs h)).trans hbefore
  have hreported : (reportPod isPrint o pod).podName = none ∨
      (reportPod isPrint o pod).podName = some pod.pod.name := reportPod_podName pod
  rw [hpod] at hreported
  refine ⟨_, htold, (reportPod_status pod).trans hseen.symm, fun halone => ?_, hreported⟩
  rw [hseen]
  unfold PodThere
  rw [(hsame halone).2, hthere halone]
  exact ⟨fun hrestored => ⟨pod, rfl, hrestored⟩, fun ⟨_, heq, hrestored⟩ =>
    Option.some.inj heq ▸ hrestored⟩

variable (hbefore : ¬ PodSeen key o before)
include hbefore

/-- The Pod that was created is adopted.  It is pending, so nothing is ready. -/
theorem concludes_created {pod : Pod ρ} (hpod : pod.name = key.name)
    (h : Runs (among r m others) (adopt isPrint key o st (newPod o pod))
      (s.putPod key (newPod o pod)) tr x s') :
    Concludes others key o (PodSeen key o (before ++ tr)) (PodThere key o s') s' := by
  have hnew : (newPod o pod).pod.name = key.name := hpod
  have hputs : Known key o (s.putPod key (newPod o pod)) :=
    hknown.leads (.pod rfl rfl rfl (fun p hp => .inl (Option.some.inj hp ▸ hnew)))
  obtain ⟨htold, hsame⟩ := told_adopt hothers hputs hx hname h
  have hseen : ¬ PodSeen key o (before ++ tr) :=
    not_podSeen_append hbefore ((adopt_blind st (newPod o pod)).of_runs h)
  have hunset : ¬ Restored o (newPod o pod) := fun hrestored => by
    rcases hrestored.2 with hphase | hphase <;> exact absurd hphase (by simp [newPod])
  have hreported : (reportPod isPrint o (newPod o pod)).podName = none ∨
      (reportPod isPrint o (newPod o pod)).podName = some (newPod o pod).pod.name :=
    reportPod_podName _
  rw [hnew] at hreported
  refine ⟨_, htold, (reportPod_status _).trans (iff_of_false hunset hseen),
    fun halone => iff_of_false hseen ?_, hreported⟩
  -- if nobody else acts, the Pod that is there in the end is the one that was created
  rintro ⟨made, hmade, hrestored⟩
  rw [(hsame halone).2] at hmade
  have hpending := (Function.update_self (f := s.pods) key _).symm.trans hmade
  obtain rfl := Option.some.inj hpending
  rcases hrestored.2 with hphase | hphase <;> exact absurd hphase (by simp)

/-- The Pod is created, unless somebody else was faster. -/
theorem concludes_createRendered {pod : Pod ρ} (hpod : pod.name = key.name)
    (hnone : Alone others → s.pods key = none)
    (h : Runs (among r m others) (createRendered isPrint key o st pod) s tr x s') :
    Concludes others key o (PodSeen key o (before ++ tr)) (PodThere key o s') s' := by
  unfold createRendered at h
  obtain ⟨reply, tr₂, s₁, rfl, ⟨s₀, hfirst, hact⟩, hrest⟩ := h.of_call
  have hknown₀ := hknown.others (hothers _ _ hfirst)
  cases reply with
  | failed =>
    obtain ⟨-, rfl, -⟩ := hrest.of_pure
    exact absurd rfl hx
  | created =>
    obtain ⟨-, hfree, rfl⟩ | ⟨hreply, -⟩ := create_call (by simp) hact
    · rw [← List.append_assoc]
      exact concludes_created hothers hknown₀ hx hname
        (not_podSeen_append hbefore (List.forall_mem_singleton.mpr trivial)) hpod hrest
    · exact absurd hreply (by simp)
  | alreadyExists =>
    obtain ⟨hreply, -⟩ | ⟨-, htaken, rfl⟩ := create_call (by simp) hact
    · exact absurd hreply (by simp)
    · -- somebody created a Pod after it was found missing; it is read, and then adopted or reported
      -- alone, the reconcile would have found the Pod at its first read
      have hraced : ¬ Alone others := fun halone =>
        htaken (by rw [halone _ _ hfirst]; exact hnone halone)
      obtain ⟨reply, tr₄, s₂, rfl, ⟨s₃, hsecond, hact⟩, hlast⟩ := hrest.of_call
      have hknown₃ := hknown₀.others (hothers _ _ hsecond)
      cases reply with
      | notFound =>
        obtain ⟨-, rfl, -⟩ := hlast.of_pure
        exact absurd rfl hx
      | failed =>
        obtain ⟨-, rfl, -⟩ := hlast.of_pure
        exact absurd rfl hx
      | found other =>
        obtain ⟨hother, rfl⟩ := read_call_found hact
        have hcreated : ¬ PodSeen key o
            (before ++ [⟨.createPod key (newPod o pod), CreateReply.alreadyExists⟩]) :=
          not_podSeen_append hbefore (List.forall_mem_singleton.mpr trivial)
        have hconcludes := concludes_adopt hothers hknown₃ hx hname
          (hknown₃.sound.named key other hother) (fun halone => absurd halone hraced)
          (podSeen_concat hcreated other) hlast
        rw [List.append_assoc, List.append_assoc] at hconcludes
        exact hconcludes

/-- There is no Pod and none was recorded. -/
theorem concludes_renderAndCreate (hnone : Alone others → s.pods key = none)
    (h : Runs (among r m others) (renderAndCreate isPrint jsonErr key o st) s tr x s') :
    Concludes others key o (PodSeen key o (before ++ tr)) (PodThere key o s') s' := by
  unfold renderAndCreate at h
  obtain ⟨reply, tr₂, s₁, rfl, ⟨s₀, hfirst, rfl, hreply⟩, hrest⟩ := h.of_call
  have hknown₀ := hknown.others (hothers _ _ hfirst)
  have hknown₁ : Known key o { s₀ with temps := s₀.temps + 1 } :=
    hknown₀.leads (.same rfl rfl rfl)
  have hnone₁ : Alone others → ({ s₀ with temps := s₀.temps + 1 } : Cluster ρ).pods key = none :=
    fun halone => by
      rw [← hnone halone, ← halone _ _ hfirst]
  have hrendered : ¬ PodSeen key o (before ++ [⟨.render (o.podRestore key), reply⟩]) :=
    not_podSeen_append hbefore (List.forall_mem_singleton.mpr trivial)
  rw [← List.append_assoc]
  cases reply with
  | error e =>
    obtain ⟨htold, hsame⟩ := told_report hothers hknown₁ hx hname
      ⟨none, .false, "RenderFailed", e.message isPrint jsonErr⟩ hrest
    -- a failed rendering leaves the Pod missing
    refine .of_false htold rfl rfl (not_podSeen_append hrendered ((report_blind ..).of_runs hrest))
      (fun halone => ?_)
    rintro ⟨pod, hpod, -⟩
    rw [(hsame halone).2, hnone₁ halone] at hpod
    exact absurd hpod (by simp)
  | ok pod =>
    have hpod : pod.name = key.name := by
      rcases hreply with hreply | ⟨-, e, hreply⟩
      · exact renderPod_name hreply.symm
      · exact absurd hreply (by simp)
    exact concludes_createRendered hothers hknown₁ hx hname hrendered hpod hnone₁ hrest

/-- Behind the checks. -/
theorem concludes_ensurePod
    (h : Runs (among r m others) (ensurePod isPrint jsonErr key o st) s tr x s') :
    Concludes others key o (PodSeen key o (before ++ tr)) (PodThere key o s') s' := by
  unfold ensurePod at h
  obtain ⟨reply, tr₂, s₁, rfl, ⟨s₀, hfirst, hact⟩, hrest⟩ := h.of_call
  have hknown₀ := hknown.others (hothers _ _ hfirst)
  cases reply with
  | failed =>
    obtain ⟨-, rfl, -⟩ := hrest.of_pure
    exact absurd rfl hx
  | found pod =>
    obtain ⟨hpod, rfl⟩ := read_call_found hact
    have hconcludes := concludes_adopt hothers hknown₀ hx hname
      (hknown₀.sound.named key pod hpod) (fun _ => hpod) (podSeen_concat hbefore pod) hrest
    rw [List.append_assoc] at hconcludes
    exact hconcludes
  | notFound =>
    obtain ⟨hnone, rfl⟩ := read_call_notFound hact
    have hmissing : ¬ PodSeen key o (before ++ [⟨.getPod key, Read.notFound⟩]) := by
      rintro ⟨pod, he, hrestored⟩
      rcases List.mem_append.mp he with he | he
      · exact hbefore ⟨pod, he, hrestored⟩
      · cases List.mem_singleton.mp he
    rw [← List.append_assoc]
    dsimp only at hrest
    -- a Pod whose name was recorded is not created again
    by_cases hempty : st.podName = ""
    · rw [decide_eq_true hempty] at hrest
      exact concludes_renderAndCreate hothers hknown₀ hx hname hmissing (fun _ => hnone) hrest
    · rw [decide_eq_false hempty] at hrest
      obtain ⟨htold, hsame⟩ := told_report hothers hknown₀ hx hname
        ⟨none, .false, "PodMissing", "restore Pod disappeared"⟩ hrest
      refine .of_false htold rfl rfl
        (not_podSeen_append hmissing ((report_blind ..).of_runs hrest)) (fun halone => ?_)
      rintro ⟨pod, hpod, -⟩
      rw [(hsame halone).2, hnone] at hpod
      exact absurd hpod (by simp)

end Status

/-- Pinning, and what is behind it. -/
theorem concludes_pinAndRestore {before : List (Event (sig ρ))}
    (hbefore : ¬ PodSeen key o before)
    (h : Runs (among r m others) (pinAndRestore isPrint jsonErr key o) s tr x s') :
    Concludes others key o (PodSeen key o (before ++ tr)) (PodThere key o s') s' := by
  unfold pinAndRestore at h
  obtain ⟨tr₁, tr₂, all, s₁, rfl, hpin, hrest⟩ := h.of_bind
  obtain ⟨t, tr₄, s₂, rfl, ⟨s₀, hfirst, rfl⟩, hensure⟩ := hrest.of_call
  have hknown₁ := (known_pinAll hothers hknown hpin).others (hothers _ _ hfirst)
  have hpins : ∀ e ∈ tr₁ ++ [⟨.now, t⟩], Blind e.op := by
    intro e he
    rcases List.mem_append.mp he with he | he
    · obtain ⟨path, hop⟩ := pinAll_issues.of_runs hpin e he
      rw [hop]
      trivial
    · rw [List.mem_singleton.mp he]
      trivial
  have hname : (o.status.set (pinnedCondition o all t)).podName = o.status.podName := rfl
  rw [← List.append_assoc tr₁, ← List.append_assoc]
  exact concludes_ensurePod hothers hknown₁ hx hname (not_podSeen_append hbefore hpins) hensure

end Exits

/-! ### The whole reconcile -/

/-- The target node was found. -/
def NodeSeen (o : PodRestoreObject ρ) (tr : List (Event (sig ρ))) : Prop :=
  (⟨.getNode o.targetNode, .found ()⟩ : Event (sig ρ)) ∈ tr

/-- A specification is accepted if no annotation is reserved and the checkpoints are valid. -/
theorem validateSpecIn_ok {order : List String} {pr : PodRestore ρ} :
    validateSpecIn r order pr = .ok () ↔
      (∀ a ∈ order, ¬ Strings.hasPrefix a restoreCheckpointPathAnnotationPrefix = true) ∧
      validateCheckpoints r pr.ns (pr.template.spec.containers.map Container.name)
        pr.checkpoints = .ok () := by
  rw [← List.find?_eq_none]
  unfold validateSpecIn
  split
  case _ a hfound => simp [hfound]
  case _ hnone => simp [hnone]

/-- The order in which the annotations are visited does not matter to whether the spec is valid. -/
theorem validateSpecIn_ok_iff {order : List String} {pr : PodRestore ρ}
    (hperm : order.Perm (pr.template.annotations.getD ∅).keys) :
    validateSpecIn r order pr = .ok () ↔ validateSpec r pr = .ok () := by
  rw [← validateSpecIn_keys, validateSpecIn_ok, validateSpecIn_ok]
  simp only [hperm.mem_iff]

/-- Nobody but others touches the nodes. -/
theorem nodes_of_alone (halone : Alone others) {α : Type} {p : Prog (sig ρ) α} {a : α}
    (hp : Issues (S := sig ρ) (LiveOp key) p) (h : Runs (among r m others) p s tr a s') :
    s'.nodes = s.nodes := by
  refine Runs.keeps (I := fun s₁ => s₁.nodes = s.nodes) (fun op s₁ x s₂ hop hnodes hact => ?_) hp h
    rfl
  obtain ⟨s₀, hothers, hact⟩ := hact
  rw [← hnodes, ← halone _ _ hothers]
  -- the operations of the operator leave the nodes alone
  cases op with
  | getNode name =>
    obtain ⟨-, rfl | rfl⟩ := apiCall_cases hact <;> rfl
  | getPod k =>
    obtain ⟨-, rfl | rfl⟩ := apiCall_cases hact <;> rfl
  | createPod k pod =>
    obtain ⟨-, rfl | rfl⟩ := apiCall_cases hact
    · rfl
    · unfold Cluster.createAnswer
      split <;> rfl
  | updateStatus k version st =>
    obtain ⟨-, rfl | rfl⟩ := apiCall_cases hact
    · rfl
    · unfold Cluster.updateAnswer
      split
      · rfl
      · split_ifs <;> rfl
  | rangeKeys map => rw [hact.2]
  | pin path owner =>
    obtain ⟨tr, fs, -, rfl⟩ := hact
    rfl
  | render pr => rw [hact.1]
  | now => rw [show s₂ = s₀ from hact]
  | _ => exact hop.elim

/-- A node that is found is there. -/
theorem node_call_found {name : String} {u : Unit}
    (h : Cluster.act r m True (.getNode name) s (Read.found u) s') :
    name ∈ s.nodes ∧ s' = s := by
  rcases h with ⟨hreply, rfl⟩ | ⟨-, hreply, -⟩
  · refine ⟨?_, rfl⟩
    by_contra hout
    have hmissing : Read.found u = Read.notFound := Eq.trans hreply (if_neg hout)
    exact absurd hmissing (by simp)
  · exact absurd hreply (by simp)

/-- And one that is not found is not. -/
theorem node_call_notFound {name : String}
    (h : Cluster.act r m True (.getNode name) s Read.notFound s') :
    name ∉ s.nodes ∧ s' = s := by
  rcases h with ⟨hreply, rfl⟩ | ⟨-, hreply, -⟩
  · refine ⟨fun hin => ?_, rfl⟩
    have hfound : Read.notFound = Read.found () := Eq.trans hreply (if_pos hin)
    exact absurd hfound (by simp)
  · exact absurd hreply (by simp)

/-- A reconcile of an object that has the finalizer and is not being deleted. -/
theorem concludes_reconcileLive (hothers : ∀ s s', others s s' → Others s s')
    (hknown : Known key o s)
    (h : Runs (among r m others) (reconcileLive r isPrint jsonErr key o) s tr x s')
    (hx : x ≠ .error) :
    Concludes others key o
      (validateSpec r (o.podRestore key) = .ok () ∧ NodeSeen o tr ∧ PodSeen key o tr)
      (validateSpec r (o.podRestore key) = .ok () ∧ o.targetNode ∈ s'.nodes ∧ PodThere key o s')
      s' := by
  have hlive : Issues (S := sig ρ) (LiveOp key) (reconcileLive r isPrint jsonErr key o) :=
    reconcileLive_issues r isPrint jsonErr
  have hnodes : Alone others → s'.nodes = s.nodes := fun halone => nodes_of_alone halone hlive h
  unfold reconcileLive at h
  obtain ⟨order, tr₂, s₁, rfl, ⟨s₀, hfirst, hperm, rfl⟩, hspec⟩ := h.of_call
  have hknown₁ := hknown.others (hothers _ _ hfirst)
  have hvalid : validateSpecIn r order (o.podRestore key) = .ok () ↔
      validateSpec r (o.podRestore key) = .ok () := validateSpecIn_ok_iff hperm
  -- an invalid spec is reported before anything else is read
  cases hchecked : validateSpecIn r order (o.podRestore key) with
  | error e =>
    rw [hchecked] at hspec hvalid
    have hinvalid : ¬ validateSpec r (o.podRestore key) = .ok () := fun hok => by
      exact absurd (hvalid.mpr hok) (by simp)
    obtain ⟨htold, -⟩ := told_report hothers hknown₁ hx rfl
      ⟨none, .false, "InvalidSpec", e.message isPrint⟩ hspec
    exact .of_false htold rfl rfl (fun hseen => hinvalid hseen.1)
      (fun _ hthere => hinvalid hthere.1)
  | ok u =>
    have hok := hvalid.mp hchecked
    rw [hchecked] at hspec
    obtain ⟨reply, tr₄, s₂, rfl, ⟨s₃, hsecond, hact⟩, hlast⟩ := hspec.of_call
    have hknown₃ := hknown₁.others (hothers _ _ hsecond)
    -- the nodes stay as they are when `getNode` answers, if only the reconcile acts
    have hunmoved : Alone others → s'.nodes = s₃.nodes := fun halone => by
      rw [hnodes halone, ← halone _ _ hfirst, ← halone _ _ hsecond]
    cases reply with
    | failed =>
      obtain ⟨-, rfl, -⟩ := hlast.of_pure
      exact absurd rfl hx
    | notFound =>
      obtain ⟨hout, rfl⟩ := node_call_notFound hact
      obtain ⟨htold, -⟩ := told_report hothers hknown₃ hx rfl
        ⟨none, .false, "NodeNotFound", nodeMessage isPrint o⟩ hlast
      refine .of_false htold rfl rfl (fun hseen => ?_) (fun halone hthere => ?_)
      · rcases List.mem_cons.mp hseen.2.1 with he | he
        · cases he
        · rcases List.mem_cons.mp he with he | he
          · cases he
          · exact (report_blind ..).of_runs hlast _ he
      · rw [hunmoved halone] at hthere
        exact hout hthere.2.1
    | found u =>
      obtain ⟨hin, rfl⟩ := node_call_found hact
      have hbefore : ¬ PodSeen key o [⟨.rangeKeys (o.template.annotations.getD ∅), order⟩,
          ⟨.getNode o.targetNode, Read.found u⟩] := by
        rintro ⟨pod, he, -⟩
        rcases List.mem_cons.mp he with he | he
        · cases he
        · cases List.mem_singleton.mp he
      -- spec and node are as they should be, so the report of the Pod decides
      obtain ⟨rep, htold, hstatus, hthere, hname⟩ :=
        concludes_pinAndRestore hothers hknown₃ hx hbefore hlast
      have hnode : NodeSeen o (⟨.rangeKeys (o.template.annotations.getD ∅), order⟩ ::
          ⟨.getNode o.targetNode, Read.found u⟩ :: tr₄) :=
        List.mem_cons_of_mem _ List.mem_cons_self
      refine ⟨rep, htold, hstatus.trans ?_, fun halone => ?_, hname⟩
      · exact ⟨fun hpod => ⟨hok, hnode, hpod⟩, fun hseen => hseen.2.2⟩
      · rw [hunmoved halone]
        exact ⟨fun hseen => ⟨hok, hin, (hthere halone).mp hseen.2.2⟩,
          fun hall => ⟨hok, hnode, (hthere halone).mpr hall.2.2⟩⟩

/-- **`Ready` reflects the world.**  When a reconcile of a live object returns without an error, the
    stored condition is true exactly if the spec is valid, the target node was found, and the Pod
    that was read is controlled by the object and has started; where nobody else acts meanwhile,
    exactly if node and Pod are so when it returns.  A recorded name of the Pod is never cleared,
    and changed at most to the name of the object. -/
theorem ready_reflects (hothers : ∀ s s', others s s' → Others s s') (hsound : Sound s)
    (h : Runs (among r m others) (reconcile r isPrint jsonErr key) s tr x s')
    (hread : tr.head? = some ⟨.get key, .found o⟩) (hlive : o.deleting = false) (hheld : o.Held)
    (hx : x ≠ .error) {o' : PodRestoreObject ρ} (ho' : s'.objects key = some o')
    (huid : o'.uid = o.uid) :
    (Ready o'.status ↔
      validateSpec r (o.podRestore key) = .ok () ∧ NodeSeen o tr ∧ PodSeen key o tr) ∧
    (Alone others → (Ready o'.status ↔ validateSpec r (o.podRestore key) = .ok () ∧
      o.targetNode ∈ s'.nodes ∧ PodThere key o s')) ∧
    (o.status.podName ≠ "" → o'.status.podName ≠ "" ∧
      (o'.status.podName = o.status.podName ∨ o'.status.podName = key.name)) := by
  unfold reconcile at h
  obtain ⟨reply, tr₂, s₁, rfl, ⟨s₀, hfirst, hact⟩, hrest⟩ := h.of_call
  obtain rfl : reply = .found o := by
    have hevent := Option.some.inj hread
    exact eq_of_heq (Event.mk.inj hevent).2
  obtain ⟨hobj, rfl⟩ := read_call_found hact
  have hsound₁ := hsound.others (hothers _ _ hfirst)
  -- what is known of the object: nobody but this reconcile writes its status
  have hknown : Known key o s₁ := by
    refine ⟨hsound₁, hsound₁.used key o hobj, fun y hy _ => ?_⟩
    rw [Option.some.inj (hobj.symm.trans hy)]
  change Runs _ (reconcileFound r isPrint jsonErr key o) _ _ _ _ at hrest
  unfold reconcileFound at hrest
  rw [hlive, decide_eq_true hheld] at hrest
  obtain ⟨rep, htold, hstatus, hthere, hname⟩ := concludes_reconcileLive hothers hknown hrest hx
  -- the report is what is stored, as long as the object is the same
  obtain ⟨hready, hpodName⟩ := htold o' ho' huid
  -- the first read is neither of a node nor of a Pod
  have hnodeSeen : NodeSeen o ([⟨.get key, .found o⟩] ++ tr₂) ↔ NodeSeen o tr₂ := by
    refine ⟨fun hseen => ?_, fun hseen => List.mem_append_right _ hseen⟩
    rcases List.mem_append.mp hseen with he | he
    · cases List.mem_singleton.mp he
    · exact he
  have hpodSeen : PodSeen key o ([⟨.get key, .found o⟩] ++ tr₂) ↔ PodSeen key o tr₂ := by
    refine ⟨?_, fun ⟨pod, he, hpod⟩ => ⟨pod, List.mem_append_right _ he, hpod⟩⟩
    rintro ⟨pod, he, hpod⟩
    rcases List.mem_append.mp he with he | he
    · cases List.mem_singleton.mp he
    · exact ⟨pod, he, hpod⟩
  rw [hnodeSeen, hpodSeen]
  refine ⟨hready.trans hstatus, fun halone => ?_, fun hrecorded => ?_⟩
  · exact (hready.trans hstatus).trans (hthere halone)
  · rw [hpodName]
    rcases hname with hnone | hsome
    · rw [hnone]
      exact ⟨hrecorded, .inl rfl⟩
    · rw [hsome]
      exact ⟨key.name_ne, .inr rfl⟩

end Runs

/-! ### A restored Pod -/

/-- The Pod of the restore, once it runs. -/
def runningPod : PodObject Unit where
  pod := {
    name := "app-restore"
    ns := "team"
    annotations := ∅
    labels := ∅
    spec := ⟨"node-1", [⟨"web", "nginx", ()⟩], ()⟩
    controller := none }
  controllerUID := some 0
  phase := .running
  reason := ""

/-- Its `PodRestore`, which has recorded some name of a Pod. -/
def restoredObject (podName : String) : PodRestoreObject Unit where
  uid := 0
  resourceVersion := 1
  generation := 1
  deleting := false
  finalizers := [podRestoreFinalizer]
  targetNode := "node-1"
  checkpoints := [⟨"web", "/ckpt/checkpoint-app_team-web-1.tar"⟩]
  template := ⟨none, none, "", [⟨"web", "nginx", ()⟩], ()⟩
  status := ⟨[], podName, 0⟩

/-- The cluster with both. -/
def restoredCluster (podName : String) : Cluster Unit :=
  { bareCluster ∅ with
    objects := fun key => if key = teamKey then some (restoredObject podName) else none
    pods := fun key => if key = teamKey then some runningPod else none
    revision := 1
    nextUid := 1 }

/-- The Pod has the name of its key, and the UID was given out. -/
theorem sound_restoredCluster (podName : String) : Sound (restoredCluster podName) := by
  refine ⟨fun key pod hpod => ?_, fun key o ho => ?_⟩
  · simp only [restoredCluster] at hpod
    split_ifs at hpod with hk
    obtain rfl := Option.some.inj hpod
    rw [hk]
    rfl
  · simp only [restoredCluster] at ho
    split_ifs at ho
    obtain rfl := Option.some.inj ho
    exact Nat.zero_lt_one

/-- The reconcile, without failures and without others. -/
theorem runs_restored (podName : String) :
    Runs (among teamReconciler plainMachine Eq) teamReconcile (restoredCluster podName)
      (trace smoothly teamReconcile (restoredCluster podName))
      (exec smoothly teamReconcile (restoredCluster podName)).1
      (exec smoothly teamReconcile (restoredCluster podName)).2 := by
  refine Runs.of_exec_issues (P := OwnOp teamKey) (fun op s hop => ⟨s, rfl, ?_⟩)
    (reconcile_issues ..) _
  exact Cluster.answer_act _ _ (fun _ => .refl _) 0 True op s hop

/-- A running Pod is reported. -/
theorem ready_reflects_team : ∃ o',
    (exec smoothly teamReconcile (restoredCluster "")).2.objects teamKey = some o' ∧
    (Ready o'.status ↔
      validateSpec teamReconciler ((restoredObject "").podRestore teamKey) = .ok () ∧
      "node-1" ∈ (exec smoothly teamReconcile (restoredCluster "")).2.nodes ∧
      PodThere teamKey (restoredObject "")
        (exec smoothly teamReconcile (restoredCluster "")).2) := by
  have hstored : ((exec smoothly teamReconcile (restoredCluster "")).2.objects teamKey).map
      (fun o => o.uid) = some 0 := by decide
  obtain ⟨o', ho', huid⟩ := Option.map_eq_some_iff.mp hstored
  have hothers : ∀ s s' : Cluster Unit, s = s' → Others s s' := fun s s' h => h ▸ .refl
  have hreflects := ready_reflects hothers (sound_restoredCluster "") (runs_restored "")
    (o := restoredObject "") rfl rfl (by decide) (by decide) ho' huid
  exact ⟨o', ho', hreflects.2.1 (fun s s' h => h.symm)⟩

/-- A name of another Pod that was recorded is changed. -/
theorem podName_changed : ∃ tr s' o',
    Runs (among teamReconciler plainMachine Eq) teamReconcile (restoredCluster "other")
      tr .done s' ∧
    s'.objects teamKey = some o' ∧ (restoredObject "other").status.podName = "other" ∧
    o'.status.podName = "app-restore" := by
  have hstored : ((exec smoothly teamReconcile (restoredCluster "other")).2.objects teamKey).map
      (fun o => o.status.podName) = some "app-restore" := by decide
  have hdone : (exec smoothly teamReconcile (restoredCluster "other")).1 = .done := by decide
  obtain ⟨o', ho', hname⟩ := Option.map_eq_some_iff.mp hstored
  have hrun := runs_restored "other"
  rw [hdone] at hrun
  exact ⟨_, _, o', hrun, ho', rfl, hname⟩

end CheckpointRestore.Restore
