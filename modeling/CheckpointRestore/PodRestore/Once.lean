import CheckpointRestore.PodRestore.Reconcile

namespace CheckpointRestore.Restore

open Interaction
open Forensic (ConditionStatus)

/-!
# One restore — how often a Pod is created for a `PodRestore`

A second creation would run the frozen process image again.  What stands against it is
`status.podName`, which is written after the Pod has been created, by a call of its own.

* `Holding` — what a reconcile relies on while it is under way: the object has the controller's
  finalizer, so it stays, and nobody else writes its status;
* `Once` — every created Pod is still there, or its name is recorded;
* `restores_once` — at most one Pod is created for an object, if others delete the Pod only after
  its name was recorded;
* `restored_twice` — a status update that fails and a deletion lead to a second creation.
-/

variable {ρ : Type}

/-! ### What a reconcile relies on -/

/-- The object that has the finalizer: its recorded Pod, and how many Pods were created for it. -/
structure Holding where
  uid : ℕ
  podName : String
  made : ℕ

/-- The view of a key. -/
def Cluster.holding (s : Cluster ρ) (key : ObjectKey) : Option Holding :=
  match s.objects key with
  | none => none
  | some o => if o.Held then some ⟨o.uid, o.status.podName, s.created o.uid⟩ else none

/-- What is held stays as it is. -/
def Stays (v w : Option Holding) : Prop := ∀ h, v = some h → w = some h

theorem Stays.refl (v : Option Holding) : Stays v v := fun _ h => h

variable {w : Option Holding}

theorem Stays.trans {u v : Option Holding} (h : Stays u v) (h' : Stays v w) : Stays u w :=
  fun x hx => h' x (h x hx)

/-- What a reconcile of the key owes and is given. -/
def onceContract (key : ObjectKey) : Contract (sig ρ) (Option Holding) where
  pre
    | .get k, _ | .patchFinalizers k _, _ | .getPod k, _ => k = key
    | .createPod k pod, v => k = key ∧ pod.pod.name = key.name ∧
        ∃ uid, pod.controllerUID = some uid ∧ v = some ⟨uid, "", 0⟩
    | .updateStatus k _ st, v => k = key ∧ ∃ h, v = some h ∧ (h.podName ≠ "" → st.podName ≠ "")
    | .other _, _ => False
    | _, _ => True
  post
    | .get _, v, x, w => Stays v w ∧ ∀ o : PodRestoreObject ρ, x = Read.found o → o.Held →
        ∃ n, w = some ⟨o.uid, o.status.podName, n⟩
    | .getPod _, v, x, w => Stays v w ∧
        (x = Read.notFound → ∀ h, w = some h → h.podName = "" → h.made = 0) ∧
        ∀ pod : PodObject ρ, x = Read.found pod → pod.pod.name ≠ ""
    | .render pr, v, x, w => Stays v w ∧ ∀ pod : Pod ρ, x = Except.ok pod → pod.name = pr.name
    | .createPod _ _, v, _, w => ∀ h, v = some h → ∃ n, w = some { h with made := n }
    | .patchFinalizers _ _, _, _, _ | .updateStatus _ _ _, _, _, _ => True
    | _, v, _, w => Stays v w

/-- Nobody notices that what is held stays. -/
theorem Stays.yields {key : ObjectKey} {v : Option Holding} (h : Stays v w) :
    (onceContract (ρ := ρ) key).Yields v w := by
  refine ⟨fun op hpre => ?_, fun op x u hpost => ?_⟩
  · cases op with
    | createPod k pod =>
      obtain ⟨hk, hname, uid, huid, hv⟩ := hpre
      exact ⟨hk, hname, uid, huid, h _ hv⟩
    | updateStatus k resourceVersion st =>
      obtain ⟨hk, g, hv, hst⟩ := hpre
      exact ⟨hk, g, h _ hv, hst⟩
    | _ => exact hpre
  · cases op with
    | createPod k pod => exact fun g hg => hpost g (h g hg)
    | patchFinalizers k finalizers => trivial
    | updateStatus k resourceVersion st => trivial
    | get k => exact ⟨h.trans hpost.1, hpost.2⟩
    | getPod k => exact ⟨h.trans hpost.1, hpost.2⟩
    | render pr => exact ⟨h.trans hpost.1, hpost.2⟩
    | _ => exact h.trans hpost

/-! ### The program -/

variable {st : PodRestoreStatus}

section Program
variable (r : PodRestoreReconciler) (isPrint : Char → Bool) (jsonErr : String)
variable {key : ObjectKey} {o : PodRestoreObject ρ} {v : Option Holding}

/-- The object that was read is held. -/
def Holds (o : PodRestoreObject ρ) (v : Option Holding) : Prop :=
  ∃ n, v = some ⟨o.uid, o.status.podName, n⟩

theorem Holds.stays (h : Holds o v) (hs : Stays v w) : Holds o w := by
  obtain ⟨n, hn⟩ := h
  exact ⟨n, hs _ hn⟩

/-- A status that names a Pod if the stored one does may be saved. -/
theorem wp_report (h : Holds o v)
    (hst : o.status.podName ≠ "" → st.podName ≠ "") (status : ConditionStatus)
    (reason message : String) (result : Result) :
    wp (onceContract key) (report key o st status reason message result) (fun _ _ => True) v := by
  unfold report
  rw [wp_bind]
  refine wp_now trivial (fun t w hw => ?_)
  unfold saveStatus
  split_ifs
  · trivial
  · rw [wp_bind]
    obtain ⟨n, hn⟩ := h.stays hw
    refine wp_updateStatus ⟨rfl, _, hn, hst⟩ (fun x _ _ => ?_)
    cases x <;> trivial

/-- A Pod that was found or created has a name, so a recorded name stays one. -/
theorem wp_adopt (h : Holds o v)
    (hst : o.status.podName ≠ "" → st.podName ≠ "") {pod : PodObject ρ}
    (hpod : pod.pod.name ≠ "") :
    wp (onceContract key) (adopt isPrint key o st pod) (fun _ _ => True) v := by
  unfold adopt
  split_ifs
  · exact wp_report h (fun _ => hpod) _ _ _ _
  · exact wp_report h hst _ _ _ _

/-- The reconcile that finds no Pod creates one only if none was created before. -/
theorem wp_createRendered (hheld : v = some ⟨o.uid, "", 0⟩) (hnone : o.status.podName = "")
    {pod : Pod ρ} (hpod : pod.name = key.name) :
    wp (onceContract key) (createRendered isPrint key o st pod) (fun _ _ => True) v := by
  have hname : pod.name ≠ "" := hpod ▸ key.name_ne
  have hst : o.status.podName ≠ "" → st.podName ≠ "" := fun h => absurd hnone h
  unfold createRendered
  rw [wp_bind]
  refine wp_createPod ⟨rfl, hpod, o.uid, rfl, hheld⟩ (fun x w hw => ?_)
  have hholds : Holds o w := by
    obtain ⟨n, hn⟩ := hw _ hheld
    exact ⟨n, by rw [hn, hnone]⟩
  cases x with
  | created => exact wp_adopt isPrint hholds hst hname
  | failed => trivial
  | alreadyExists =>
    dsimp only
    rw [wp_bind]
    refine wp_getPod rfl (fun x u hu => ?_)
    cases x with
    | found pod => exact wp_adopt isPrint (hholds.stays hu.1) hst (hu.2.2 pod rfl)
    | notFound => trivial
    | failed => trivial

theorem wp_ensurePod (h : Holds o v) (hst : st.podName = o.status.podName) :
    wp (onceContract key) (ensurePod isPrint jsonErr key o st) (fun _ _ => True) v := by
  have hkeep : o.status.podName ≠ "" → st.podName ≠ "" := fun hne => hst ▸ hne
  unfold ensurePod
  rw [wp_bind]
  refine wp_getPod rfl (fun x w hw => ?_)
  obtain ⟨hstays, hmissing, hfound⟩ := hw
  cases x with
  | failed => trivial
  | found pod => exact wp_adopt isPrint (h.stays hstays) hkeep (hfound pod rfl)
  | notFound =>
    dsimp only
    split
    · exact wp_report (h.stays hstays) hkeep _ _ _ _
    · next hempty =>
      have hnone : o.status.podName = "" := hst ▸ of_decide_eq_true hempty
      -- no Pod is there and none is recorded, so none was created
      obtain ⟨n, hn⟩ := h.stays hstays
      have hzero : n = 0 := hmissing rfl _ hn hnone
      unfold renderAndCreate
      rw [wp_bind]
      refine wp_render trivial (fun x u hu => ?_)
      have hheld : u = some ⟨o.uid, "", 0⟩ := by
        rw [hu.1 _ hn, hnone, hzero]
      cases x with
      | error e =>
        refine wp_report ⟨0, ?_⟩ hkeep _ _ _ _
        rw [hheld, hnone]
      | ok pod => exact wp_createRendered isPrint hheld hnone (hu.2 pod rfl)

/-- Pinning changes nothing that is held. -/
theorem wp_pinAll (h : Holds o v) (owner : String) (checkpoints : List ContainerCheckpoint) :
    wp (onceContract (ρ := ρ) key) (pinAll owner checkpoints) (fun _ w => Holds o w) v := by
  refine wp_foldlM (I := fun _ w => Holds o w) (fun all w cp _ hw => ?_) h
  rw [wp_bind]
  exact wp_pin trivial (fun x u hu => hw.stays hu)

theorem wp_reconcileLive (h : Holds o v) :
    wp (onceContract key) (reconcileLive r isPrint jsonErr key o) (fun _ _ => True) v := by
  unfold reconcileLive
  rw [wp_bind]
  refine wp_rangeKeys trivial (fun order w hw => ?_)
  have hread := h.stays hw
  split
  · exact wp_report hread id _ _ _ _
  · rw [wp_bind]
    refine wp_getNode trivial (fun x u hu => ?_)
    have hholds := hread.stays hu
    cases x with
    | failed => trivial
    | notFound => exact wp_report hholds id _ _ _ _
    | found _ =>
      dsimp only
      unfold pinAndRestore
      rw [wp_bind]
      refine wp_mono (fun all u₁ hu₁ => ?_) (wp_pinAll hholds _ _)
      rw [wp_bind]
      exact wp_now trivial (fun t u₂ hu₂ => wp_ensurePod isPrint jsonErr (hu₁.stays hu₂) rfl)

/-- Changing the finalizers owes nothing. -/
theorem wp_changeFinalizers (finalizers : List String) :
    wp (onceContract (ρ := ρ) key) (changeFinalizers key finalizers) (fun _ _ => True) v := by
  unfold changeFinalizers
  rw [wp_bind]
  refine wp_patchFinalizers rfl (fun x _ _ => ?_)
  cases x <;> trivial

/-- A reconcile meets its contract from everywhere. -/
theorem wp_reconcile :
    wp (onceContract (ρ := ρ) key) (reconcile r isPrint jsonErr key) (fun _ _ => True) v := by
  unfold reconcile
  rw [wp_bind]
  refine wp_get rfl (fun x w hw => ?_)
  cases x with
  | notFound => trivial
  | failed => trivial
  | found o =>
    dsimp only
    unfold reconcileFound
    split
    · unfold reconcileDelete
      rw [wp_bind]
      refine wp_mono (fun _ u _ => wp_changeFinalizers _)
        (wp_forM (I := fun _ => True) (fun u cp _ _ => ?_) trivial)
      rw [wp_bind]
      exact wp_unpin trivial (fun _ _ _ => trivial)
    · trivial
    · exact wp_changeFinalizers _
    · next hheld => exact wp_reconcileLive r isPrint jsonErr (hw.2 o rfl (of_decide_eq_true hheld))

end Program

/-! ### The cluster -/

/-- What the controller can rely on.  A Pod that was created for an object is there, or its name is
    recorded; no two objects have one UID. -/
structure Once (s : Cluster ρ) : Prop where
  once : ∀ uid, s.created uid ≤ 1
  kept : ∀ key o, s.objects key = some o → s.created o.uid = 0 ∨ o.status.podName ≠ "" ∨
    ∃ pod, s.pods key = some pod ∧ pod.controllerUID = some o.uid
  unique : ∀ key key' o o', s.objects key = some o → s.objects key' = some o' → o.uid = o'.uid →
    key = key'
  used : ∀ key o, s.objects key = some o → o.uid < s.nextUid
  unused : ∀ uid, s.nextUid ≤ uid → s.created uid = 0
  named : ∀ key pod, s.pods key = some pod → pod.pod.name = key.name

section Store
variable {s : Cluster ρ} {key : ObjectKey} {o o' : PodRestoreObject ρ}

/-- What is stored under a key is the object in a new version, or nothing. -/
theorem store_objects {x : PodRestoreObject ρ} {k : ObjectKey}
    (h : (s.store key o').objects k = some x) :
    k ≠ key ∧ s.objects k = some x ∨
      k = key ∧ x = { o' with resourceVersion := s.revision + 1 } ∧
        ¬ (o'.deleting = true ∧ o'.finalizers = []) := by
  by_cases hk : k = key
  · subst hk
    right
    simp only [Cluster.store, Function.update_self] at h
    split_ifs at h with hgone
    exact ⟨rfl, (Option.some.inj h).symm, hgone⟩
  · left
    simp only [Cluster.store, Function.update_of_ne hk] at h
    exact ⟨hk, h⟩

/-- A new version that keeps the UID, and a recorded name, changes nothing. -/
theorem Once.store (h : Once s) (ho : s.objects key = some o) (huid : o'.uid = o.uid)
    (hname : o.status.podName ≠ "" → o'.status.podName ≠ "") : Once (s.store key o') := by
  -- every stored object has the UID of one that was stored under the key before
  have hbefore : ∀ k x, (s.store key o').objects k = some x →
      ∃ y, s.objects k = some y ∧ x.uid = y.uid ∧
        (y.status.podName ≠ "" → x.status.podName ≠ "") := by
    intro k x hx
    rcases store_objects hx with ⟨-, hx⟩ | ⟨rfl, rfl, -⟩
    · exact ⟨x, hx, rfl, id⟩
    · exact ⟨o, ho, huid, hname⟩
  refine ⟨h.once, fun k x hx => ?_, fun k k' x x' hx hx' heq => ?_, fun k x hx => ?_, h.unused,
    h.named⟩
  · obtain ⟨y, hy, hxy, hpod⟩ := hbefore k x hx
    rw [hxy]
    exact (h.kept k y hy).imp_right (Or.imp_left hpod)
  · obtain ⟨y, hy, hxy, -⟩ := hbefore k x hx
    obtain ⟨y', hy', hxy', -⟩ := hbefore k' x' hx'
    exact h.unique k k' y y' hy hy' (by rw [← hxy, heq, hxy'])
  · obtain ⟨y, hy, hxy, -⟩ := hbefore k x hx
    rw [hxy]
    exact h.used k y hy

/-- What is held under another key is not concerned. -/
theorem holding_store_ne {k : ObjectKey} (hk : k ≠ key) :
    (s.store key o').holding k = s.holding k := by
  simp only [Cluster.holding, Cluster.store, Function.update_of_ne hk]

/-- A new version with the same UID, recorded name and finalizer is held as before. -/
theorem holding_store (ho : s.objects key = some o) (huid : o'.uid = o.uid)
    (hheld : o'.Held ↔ o.Held) (hname : o'.status.podName = o.status.podName) :
    (s.store key o').holding key = s.holding key := by
  simp only [Cluster.holding, Cluster.store, Function.update_self, ho]
  split_ifs with hgone hx hx
  · -- an object with the finalizer is not removed
    exact absurd (hheld.mpr hx) (by simp [PodRestoreObject.Held, hgone.2])
  · rfl
  · show (if o'.Held then some (⟨o'.uid, o'.status.podName, s.created o'.uid⟩ : Holding)
      else none) = _
    rw [if_pos (hheld.mpr hx), huid, hname]
  · exact if_neg (mt hheld.mp hx)

end Store

section Effects
variable {s s' : Cluster ρ} {key : ObjectKey}

/-- Reading what is held. -/
theorem holding_of_object {o : PodRestoreObject ρ} (ho : s.objects key = some o) (hheld : o.Held) :
    s.holding key = some ⟨o.uid, o.status.podName, s.created o.uid⟩ := by
  simp only [Cluster.holding, ho, if_pos hheld]

theorem object_of_holding {h : Holding} (hh : s.holding key = some h) :
    ∃ o, s.objects key = some o ∧ o.Held ∧
      h = ⟨o.uid, o.status.podName, s.created o.uid⟩ := by
  unfold Cluster.holding at hh
  split at hh
  · exact absurd hh (by simp)
  · next o ho =>
    split_ifs at hh with hheld
    exact ⟨o, ho, hheld, (Option.some.inj hh).symm⟩

theorem holding_congr (hobject : s'.objects key = s.objects key)
    (hcreated : ∀ o, s.objects key = some o → s'.created o.uid = s.created o.uid) :
    s'.holding key = s.holding key := by
  unfold Cluster.holding
  rw [hobject]
  cases ho : s.objects key with
  | none => rfl
  | some o => simp only [hcreated o ho]

/-- A patch of the finalizers. -/
theorem Once.patchAnswer (h : Once s) (key : ObjectKey) (finalizers : List String) :
    Once (s.patchAnswer key finalizers).2 ∧
      ∀ k, k ≠ key → (s.patchAnswer key finalizers).2.holding k = s.holding k := by
  unfold Cluster.patchAnswer
  cases ho : s.objects key with
  | none => exact ⟨h, fun _ _ => rfl⟩
  | some o =>
    dsimp only
    split_ifs
    · have hstore : Once (s.store key { o with finalizers }) := h.store ho rfl id
      exact ⟨⟨hstore.once, hstore.kept, hstore.unique, hstore.used, hstore.unused, hstore.named⟩,
        fun k hk => holding_store_ne hk⟩
    · exact ⟨h, fun _ _ => rfl⟩

/-- An update of the status. -/
theorem Once.updateAnswer (h : Once s) (resourceVersion : ℕ)
    {held : Holding} (hheld : s.holding key = some held)
    (hst : held.podName ≠ "" → st.podName ≠ "") :
    Once (s.updateAnswer key resourceVersion st).2 ∧
      ∀ k, k ≠ key → (s.updateAnswer key resourceVersion st).2.holding k = s.holding k := by
  obtain ⟨o, ho, -, rfl⟩ := object_of_holding hheld
  unfold Cluster.updateAnswer
  rw [ho]
  dsimp only
  split_ifs
  · exact ⟨h.store ho rfl hst, fun k hk => holding_store_ne hk⟩
  · exact ⟨h, fun _ _ => rfl⟩

/-- A creation, for an object without a Pod so far. -/
theorem Once.createAnswer (h : Once s) {pod : PodObject ρ} {uid : ℕ}
    (hname : pod.pod.name = key.name) (huid : pod.controllerUID = some uid)
    (hheld : s.holding key = some ⟨uid, "", 0⟩) :
    Once (s.createAnswer key pod).2 ∧
      (∃ n, (s.createAnswer key pod).2.holding key = some ⟨uid, "", n⟩) ∧
      ∀ k, k ≠ key → (s.createAnswer key pod).2.holding k = s.holding k := by
  unfold Cluster.createAnswer
  cases hpods : s.pods key with
  | some _ => exact ⟨h, ⟨0, hheld⟩, fun _ _ => rfl⟩
  | none =>
    obtain ⟨o, ho, hfin, heq⟩ := object_of_holding hheld
    obtain ⟨rfl, hempty, hzero⟩ := Holding.mk.inj heq
    -- the object is the only one with its UID, so no other one is concerned
    have hmine : ∀ k x, s.objects k = some x → k ≠ key → x.uid ≠ o.uid :=
      fun k x hx hk heq => hk (h.unique k key x o hx ho heq)
    have hcreated : (s.putPod key pod).created = Function.update s.created o.uid 1 := by
      simp only [Cluster.putPod, huid, ← hzero, Nat.zero_add]
    refine ⟨⟨fun u => ?_, fun k x hx => ?_, h.unique, h.used, fun u hu => ?_, fun k p hp => ?_⟩,
      ⟨1, ?_⟩, fun k hk => ?_⟩
    · dsimp only
      rw [hcreated]
      by_cases hu : u = o.uid
      · rw [hu, Function.update_self]
      · rw [Function.update_of_ne hu]
        exact h.once u
    · dsimp only at hx ⊢
      rw [hcreated]
      by_cases hk : k = key
      · subst hk
        obtain rfl := Option.some.inj (ho.symm.trans hx)
        exact .inr (.inr ⟨{ pod with phase := .pending }, by simp [Cluster.putPod], huid⟩)
      · rw [Function.update_of_ne (hmine k x hx hk)]
        simpa [Cluster.putPod, Function.update_of_ne hk] using h.kept k x hx
    · dsimp only at hu ⊢
      rw [hcreated, Function.update_of_ne]
      · exact h.unused u hu
      · rintro rfl
        exact absurd (h.used key o ho) (not_lt.mpr hu)
    · by_cases hk : k = key
      · subst hk
        simp only [Cluster.putPod, Function.update_self] at hp
        obtain rfl := Option.some.inj hp
        exact hname
      · simp only [Cluster.putPod, Function.update_of_ne hk] at hp
        exact h.named k p hp
    · dsimp only
      rw [holding_of_object (s := s.putPod key pod) ho hfin, hcreated, Function.update_self,
        ← hempty]
    · refine holding_congr rfl (fun x hx => ?_)
      dsimp only
      rw [hcreated, Function.update_of_ne (hmine k x hx hk)]

/-- Only objects, Pods and creations count. -/
theorem Once.of_eq (h : Once s) (hobjects : s'.objects = s.objects) (hpods : s'.pods = s.pods)
    (hcreated : s'.created = s.created) (huid : s'.nextUid = s.nextUid) :
    Once s' ∧ ∀ k, s'.holding k = s.holding k := by
  refine ⟨⟨?_, ?_, ?_, ?_, ?_, ?_⟩, fun k => holding_congr (congrFun hobjects k) (fun x _ => ?_)⟩
  · rw [hcreated]; exact h.once
  · rw [hobjects, hpods, hcreated]; exact h.kept
  · rw [hobjects]; exact h.unique
  · rw [hobjects, huid]; exact h.used
  · rw [huid, hcreated]; exact h.unused
  · rw [hpods]; exact h.named
  · rw [hcreated]

end Effects

section Steps
variable {r : PodRestoreReconciler} {m : Machine} {s s' : Cluster ρ} {key : ObjectKey}

/-- A call of a reconcile has the effect its contract says, and concerns no other key. -/
theorem once_own {op : (sig ρ).Op} {x : (sig ρ).Reply op} (h : Once s)
    (hpre : (onceContract key).pre op (s.holding key)) (hact : Cluster.act r m True op s x s') :
    Once s' ∧ (onceContract key).post op (s.holding key) x (s'.holding key) ∧
      ∀ k, k ≠ key → s'.holding k = s.holding k := by
  -- calls that change neither objects nor Pods nor creations
  have hquiet : s'.objects = s.objects → s'.pods = s.pods → s'.created = s.created →
      s'.nextUid = s.nextUid → Once s' ∧ Stays (s.holding key) (s'.holding key) ∧
        ∀ k, k ≠ key → s'.holding k = s.holding k := by
    intro h₁ h₂ h₃ h₄
    obtain ⟨honce, hsame⟩ := h.of_eq h₁ h₂ h₃ h₄
    exact ⟨honce, hsame key ▸ Stays.refl _, fun k _ => hsame k⟩
  cases op with
  | get k =>
    obtain rfl : k = key := hpre
    obtain ⟨hx, hs⟩ := apiCall_cases hact
    obtain rfl : s' = s := hs.elim id id
    refine ⟨h, ⟨.refl _, fun o ho hheld => ?_⟩, fun _ _ => rfl⟩
    subst ho
    exact ⟨_, holding_of_object (Cluster.read_found (hx.resolve_right (by simp))) hheld⟩
  | patchFinalizers k finalizers =>
    obtain rfl : k = key := hpre
    obtain ⟨-, rfl | rfl⟩ := apiCall_cases hact
    · exact ⟨h, trivial, fun _ _ => rfl⟩
    · obtain ⟨honce, hframe⟩ := h.patchAnswer k finalizers
      exact ⟨honce, trivial, hframe⟩
  | rangeKeys map =>
    obtain rfl : s' = s := hact.2
    exact hquiet rfl rfl rfl rfl
  | getNode name =>
    obtain rfl : s' = s := (apiCall_cases hact).2.elim id id
    exact hquiet rfl rfl rfl rfl
  | pin path owner =>
    obtain ⟨tr, fs, -, rfl⟩ := hact
    exact hquiet rfl rfl rfl rfl
  | unpin path owner =>
    obtain ⟨tr, fs, rfl, -⟩ := hact
    exact hquiet rfl rfl rfl rfl
  | getPod k =>
    obtain rfl : k = key := hpre
    obtain ⟨hx, hs⟩ := apiCall_cases hact
    obtain rfl : s' = s := hs.elim id id
    refine ⟨h, ⟨.refl _, fun hnone held hheld hempty => ?_, fun pod hpod => ?_⟩, fun _ _ => rfl⟩
    · subst hnone
      obtain ⟨o, ho, -, rfl⟩ := object_of_holding hheld
      have hpods : s'.pods k = none := Cluster.read_notFound (hx.resolve_right (by simp))
      rcases h.kept k o ho with hzero | hname | ⟨pod, hpod, -⟩
      · exact hzero
      · exact absurd hempty hname
      · exact absurd (hpods.symm.trans hpod) (by simp)
    · subst hpod
      rw [h.named k pod (Cluster.read_found (hx.resolve_right (by simp)))]
      exact k.name_ne
  | render pr =>
    obtain ⟨rfl, hx⟩ := hact
    obtain ⟨honce, hstays, hframe⟩ := hquiet rfl rfl rfl rfl
    refine ⟨honce, ⟨hstays, fun pod hpod => ?_⟩, hframe⟩
    subst hpod
    rcases hx with hx | ⟨-, e, he⟩
    · exact renderPod_name hx.symm
    · exact absurd he (by simp)
  | createPod k pod =>
    obtain ⟨rfl, hname, uid, huid, hheld⟩ := hpre
    obtain ⟨-, rfl | rfl⟩ := apiCall_cases hact
    · exact ⟨h, fun g hg => ⟨g.made, hg⟩, fun _ _ => rfl⟩
    · obtain ⟨honce, ⟨n, hn⟩, hframe⟩ := h.createAnswer hname huid hheld
      refine ⟨honce, fun g hg => ⟨n, ?_⟩, hframe⟩
      obtain rfl := Option.some.inj (hheld.symm.trans hg)
      exact hn
  | now =>
    obtain rfl : s' = s := hact
    exact hquiet rfl rfl rfl rfl
  | updateStatus k resourceVersion st =>
    obtain ⟨rfl, held, hheld, hst⟩ := hpre
    obtain ⟨-, rfl | rfl⟩ := apiCall_cases hact
    · exact ⟨h, trivial, fun _ _ => rfl⟩
    · obtain ⟨honce, hframe⟩ := h.updateAnswer resourceVersion hheld hst
      exact ⟨honce, trivial, hframe⟩
  | other a => exact hpre.elim

/-- A new object has a UID of its own. -/
theorem once_putNew (h : Once s) (hnone : s.objects key = none) {finalizers : List String}
    {targetNode : String} {checkpoints : List ContainerCheckpoint} {template : PodTemplateSpec ρ} :
    Once (s.putNew key finalizers targetNode checkpoints template) ∧
      ∀ k, Stays (s.holding k)
        ((s.putNew key finalizers targetNode checkpoints template).holding k) := by
  set s₁ := s.putNew key finalizers targetNode checkpoints template with hs₁
  -- an object is an old one under another key, or the new one with the next UID
  have hcases : ∀ k x, s₁.objects k = some x →
      k ≠ key ∧ s.objects k = some x ∨ k = key ∧ x.uid = s.nextUid := by
    intro k x hx
    by_cases hk : k = key
    · subst hk
      simp only [hs₁, Cluster.putNew, Function.update_self] at hx
      exact .inr ⟨rfl, (Option.some.inj hx) ▸ rfl⟩
    · simp only [hs₁, Cluster.putNew, Function.update_of_ne hk] at hx
      exact .inl ⟨hk, hx⟩
  refine ⟨⟨h.once, fun k x hx => ?_, fun k k' x x' hx hx' heq => ?_, fun k x hx => ?_,
    fun uid huid => h.unused uid (by simp only [hs₁, Cluster.putNew] at huid; omega), h.named⟩,
    fun k held hheld => ?_⟩
  · rcases hcases k x hx with ⟨-, hx⟩ | ⟨rfl, huid⟩
    · exact h.kept k x hx
    · exact .inl (by rw [huid]; exact h.unused _ le_rfl)
  · rcases hcases k x hx with ⟨-, hold⟩ | ⟨hk, huid⟩ <;>
      rcases hcases k' x' hx' with ⟨-, hold'⟩ | ⟨hk', huid'⟩
    · exact h.unique k k' x x' hold hold' heq
    -- the UIDs of old objects are below the next one
    · exact absurd (h.used k x hold) (by omega)
    · exact absurd (h.used k' x' hold') (by omega)
    · rw [hk, hk']
  · simp only [hs₁, Cluster.putNew]
    rcases hcases k x hx with ⟨-, hx⟩ | ⟨-, huid⟩
    · exact Nat.lt_succ_of_lt (h.used k x hx)
    · omega
  · by_cases hk : k = key
    · obtain ⟨o, ho, -⟩ := object_of_holding hheld
      exact absurd (hnone.symm.trans (hk ▸ ho)) (by simp)
    · rw [← hheld]
      refine holding_congr ?_ (fun _ _ => rfl)
      simp only [hs₁, Cluster.putNew, Function.update_of_ne hk]

/-- The Pod is deleted by others only after its name was recorded: the object it belongs to is
    gone, or its status has the name. -/
def PodRecorded (s : Cluster ρ) (key : ObjectKey) : Prop :=
  ∀ o pod, s.objects key = some o → s.pods key = some pod → pod.controllerUID = some o.uid →
    o.status.podName ≠ ""

/-- A new version of an object that is held as before. -/
theorem once_version (h : Once s) {o o' : PodRestoreObject ρ} (ho : s.objects key = some o)
    (huid : o'.uid = o.uid) (hheld : o'.Held ↔ o.Held) (hstatus : o'.status = o.status) :
    Once (s.store key o') ∧ ∀ k, Stays (s.holding k) ((s.store key o').holding k) := by
  refine ⟨h.store ho huid (fun hne => hstatus ▸ hne), fun k => ?_⟩
  by_cases hk : k = key
  · subst hk
    rw [holding_store ho huid hheld (congrArg _ hstatus)]
    exact .refl _
  · rw [holding_store_ne hk]
    exact .refl _

/-- The Pod under a key changes; if it was created for the object, it is kept or recorded. -/
theorem once_setPod (h : Once s) {p : Option (PodObject ρ)}
    (hname : ∀ pod, p = some pod → pod.pod.name = key.name)
    (hkept : ∀ o pod, s.objects key = some o → s.pods key = some pod →
      pod.controllerUID = some o.uid →
        o.status.podName ≠ "" ∨ ∃ pod', p = some pod' ∧ pod'.controllerUID = some o.uid) :
    Once { s with pods := Function.update s.pods key p } ∧
      ∀ k, Stays (s.holding k)
        (({ s with pods := Function.update s.pods key p } : Cluster ρ).holding k) := by
  refine ⟨⟨h.once, fun k o ho => ?_, h.unique, h.used, h.unused, fun k pod hpod => ?_⟩,
    fun _ => .refl _⟩
  · by_cases hk : k = key
    · subst hk
      rcases h.kept k o ho with hzero | hrec | ⟨pod, hpod, huid⟩
      · exact .inl hzero
      · exact .inr (.inl hrec)
      · simpa using .inr (hkept o pod ho hpod huid)
    · simpa [Function.update_of_ne hk] using h.kept k o ho
  · by_cases hk : k = key
    · subst hk
      exact hname pod (by simpa using hpod)
    · exact h.named k pod (by simpa [Function.update_of_ne hk] using hpod)

/-- What others do leaves alone what is held. -/
theorem once_other {a : Action ρ} (h : Once s) (hok : ∀ k, a = .deletePod k → PodRecorded s k)
    (hact : a.act s s') : Once s' ∧ ∀ k, Stays (s.holding k) (s'.holding k) := by
  have hquiet : s'.objects = s.objects → s'.pods = s.pods → s'.created = s.created →
      s'.nextUid = s.nextUid → Once s' ∧ ∀ k, Stays (s.holding k) (s'.holding k) := by
    intro h₁ h₂ h₃ h₄
    obtain ⟨honce, hsame⟩ := h.of_eq h₁ h₂ h₃ h₄
    exact ⟨honce, fun k => hsame k ▸ Stays.refl _⟩
  cases a with
  | create k finalizers targetNode checkpoints template =>
    obtain ⟨hnone, rfl⟩ := hact
    exact once_putNew h hnone
  | delete k =>
    obtain ⟨o, ho, rfl⟩ := hact
    exact once_version h ho rfl Iff.rfl rfl
  | editFinalizers k finalizers =>
    obtain ⟨o, ho, -, hheld, rfl⟩ := hact
    exact once_version h ho rfl hheld rfl
  | createPod k pod =>
    obtain ⟨hnone, hname, rfl⟩ := hact
    refine once_setPod h (fun p hp => Option.some.inj hp ▸ hname) (fun o p _ hp => ?_)
    exact absurd (hnone.symm.trans hp) (by simp)
  | setPodStatus k phase reason =>
    obtain ⟨pod, hpod, rfl⟩ := hact
    refine once_setPod h (fun p hp => ?_) (fun o p ho hp huid => ?_)
    · obtain rfl := Option.some.inj hp
      exact h.named k pod hpod
    · obtain rfl := Option.some.inj (hpod.symm.trans hp)
      exact .inr ⟨_, rfl, huid⟩
  | deletePod k =>
    obtain rfl := hact
    -- the one action that could make the controller create again, were the name not recorded
    refine once_setPod h (fun p hp => absurd hp (by simp)) (fun o p ho hp huid => ?_)
    exact .inl (hok k rfl o p ho hp huid)
  | addNode name =>
    obtain rfl := hact
    exact hquiet rfl rfl rfl rfl
  | removeNode name =>
    obtain rfl := hact
    exact hquiet rfl rfl rfl rfl
  | files fs =>
    obtain ⟨-, rfl⟩ := hact
    exact hquiet rfl rfl rfl rfl

end Steps

/-! ### The result -/

section Result
variable (r : PodRestoreReconciler) (m : Machine) (isPrint : Char → Bool) (jsonErr : String)

/-- Reconciles by keys, with what they hold. -/
def onceKeyed : Keyed (sig ρ) Result (Cluster ρ) ObjectKey (Option Holding) where
  first := .get
  prog := reconcile r isPrint jsonErr
  view key s := s.holding key
  contract := onceContract
  rest _ _ := True
  post _ _ _ _ := True

/-- Others delete a restore Pod only after its name was recorded. -/
def DeletesRecorded (b : Pool (sig ρ) Result (Cluster ρ)) : Label (sig ρ) Result → Prop
  | .act _ ⟨.other (.deletePod key), _⟩ => PodRecorded b.shared key
  | _ => True

/-- Everything that the rule for keyed programs asks for. -/
theorem onceKeyed_guarded : (onceKeyed (ρ := ρ) r isPrint jsonErr).Guarded
    (world r m isPrint jsonErr) DeletesRecorded Once where
  first_inj key key' h := RestoreOp.get.inj h
  first_prog key := rfl
  spec key v _ := wp_traced [] (wp_mono (fun _ _ _ _ => ⟨trivial, trivial⟩)
    (wp_reconcile r isPrint jsonErr))
  start b p hstart := world_start hstart
  act b i key op x s' h _ hpre hact := by
    obtain ⟨honce, hpost, hframe⟩ := once_own h hpre hact
    exact ⟨honce, hpost, fun k hk => .of_eq (hframe k hk)⟩
  other b b₀ p i tr op k x s' hstart hu hother h hok hact := by
    obtain ⟨a, rfl⟩ := world_other hstart hu hother
    obtain ⟨honce, hstays⟩ := once_other h (fun k ha => by subst ha; exact hok) hact
    exact ⟨honce, fun key => .inl ⟨(hstays key).yields, id⟩⟩
  env s s' _ h := h.elim

theorem once_initial {s : Cluster ρ} (h : s.Initial) : Once s where
  once uid := (h.created uid).trans_le zero_le_one
  kept key o ho := absurd ((h.objects key).symm.trans ho) (by simp)
  unique key key' o o' ho := absurd ((h.objects key).symm.trans ho) (by simp)
  used key o ho := absurd ((h.objects key).symm.trans ho) (by simp)
  unused uid _ := h.created uid
  named := h.pods

/-- **A restore happens once.**  However reconciles of any keys and the actions of others
    interleave, and whatever calls fail, at most one Pod is created for each object, if others
    delete its Pod only after the name was recorded. -/
theorem restores_once {s : Cluster ρ} (hs : s.Initial) {b : Pool (sig ρ) Result (Cluster ρ)}
    (h : Reaches (world r m isPrint jsonErr) DeletesRecorded ⟨s, []⟩ b) (uid : ℕ) :
    b.shared.created uid ≤ 1 :=
  ((onceKeyed_guarded r m isPrint jsonErr).inv h rfl (once_initial hs)
    (fun _ => trivial)).shared.once uid

end Result

/-! ### Runs -/

section Runs

/-- Where the operator of the runs below makes its temporary directories. -/
def plainMachine : Machine where
  tempRoot := ["tmp".toList]
  tempName k := "ckpt-config-dump".toList ++ List.replicate k '0'
  rootfsImageName _ := .ok "nginx"
  root_normal := by simp [Go.Filepath.Normal]
  name_normal k := by
    refine ⟨by simp, by simp, by simp, fun h => ?_⟩
    rcases List.mem_append.mp h with h | h
    · exact absurd h (by decide)
    · exact absurd (List.eq_of_mem_replicate h) (by decide)
  name_inj k k' h := by simpa using congrArg List.length h

def teamReconciler : PodRestoreReconciler := ⟨"/ckpt", false, .ok "PodRestore"⟩

def teamKey : ObjectKey := ⟨"team", "app-restore", by decide, by decide⟩

/-- Nothing but a node. -/
def bareCluster (fs : FS) : Cluster Unit where
  objects _ := none
  pods _ := none
  nodes := ["node-1"]
  fs := fs
  revision := 0
  nextUid := 0
  temps := 0
  created _ := 0
  released _ := none

theorem bareCluster_initial (fs : FS) : (bareCluster fs).Initial :=
  ⟨fun _ => rfl, fun _ _ h => absurd h (by simp [bareCluster]), fun _ => rfl, fun _ => rfl⟩

/-- A `PodRestore` of one container, with an image in the template. -/
def createTeam : Action Unit :=
  .create teamKey [podRestoreFinalizer] "node-1" [⟨"web", "/ckpt/checkpoint-app_team-web-1.tar"⟩]
    ⟨none, none, "", [⟨"web", "nginx", ()⟩], ()⟩

/-- The cluster after it was created. -/
def teamCluster (fs : FS) : Cluster Unit :=
  (bareCluster fs).putNew teamKey [podRestoreFinalizer] "node-1"
    [⟨"web", "/ckpt/checkpoint-app_team-web-1.tar"⟩] ⟨none, none, "", [⟨"web", "nginx", ()⟩], ()⟩

/-- No call fails. -/
def smoothly : (op : (sig Unit).Op) → Cluster Unit → (sig Unit).Reply op × Cluster Unit :=
  Cluster.answer teamReconciler plainMachine AList.keys 0

/-- Updates of the status fail. -/
def losingUpdates : (op : (sig Unit).Op) → Cluster Unit → (sig Unit).Reply op × Cluster Unit
  | .updateStatus _ _ _, s => (false, s)
  | op, s => smoothly op s

abbrev teamWorld : World (sig Unit) Result (Cluster Unit) :=
  world teamReconciler plainMachine (fun _ => true) ""

abbrev teamReconcile : Prog (sig Unit) Result :=
  reconcile teamReconciler (fun _ => true) "" teamKey

theorem smoothly_act {op : (sig Unit).Op} {s : Cluster Unit} (hop : OwnOp teamKey op) :
    teamWorld.act op s (smoothly op s).1 (smoothly op s).2 :=
  Cluster.answer_act _ _ (fun _ => .refl _) 0 True op s hop

theorem losingUpdates_act {op : (sig Unit).Op} {s : Cluster Unit} (hop : OwnOp teamKey op) :
    teamWorld.act op s (losingUpdates op s).1 (losingUpdates op s).2 := by
  cases op with
  | updateStatus k resourceVersion st => exact .inr ⟨trivial, rfl, .inl rfl⟩
  | _ => exact smoothly_act hop

theorem rests_createTeam
    {ok : Pool (sig Unit) Result (Cluster Unit) → Label (sig Unit) Result → Prop}
    (fs : FS) (hspawn : ∀ b, ok b (.spawn (act createTeam)))
    (hok : ∀ b i, ok b (.act i ⟨.other createTeam, ()⟩)) :
    Rests teamWorld ok ⟨bareCluster fs, []⟩ (teamCluster fs) :=
  rests_act (x := createTeam) (Rests.refl teamWorld ok (bareCluster fs)) ⟨rfl, rfl⟩ hspawn
    (fun _ => hok _)

/-- The cluster after a first reconcile, whose Pod others then deleted. -/
def podLost (answer : (op : (sig Unit).Op) → Cluster Unit → (sig Unit).Reply op × Cluster Unit) :
    Cluster Unit :=
  { (exec answer teamReconcile (teamCluster ∅)).2 with
    pods := Function.update (exec answer teamReconcile (teamCluster ∅)).2.pods teamKey none }

/-- The Pod is created and its name recorded, others delete it, and the next reconcile creates
    none. -/
theorem restores_once_team : ∃ b, Reaches teamWorld DeletesRecorded ⟨bareCluster ∅, []⟩ b ∧
    b.shared.created 0 = 1 ∧ b.shared.pods teamKey = none ∧
    ∀ uid, b.shared.created uid ≤ 1 := by
  have hcreated : Rests teamWorld DeletesRecorded ⟨bareCluster ∅, []⟩ (teamCluster ∅) :=
    rests_createTeam ∅ (fun _ => trivial) (fun _ _ => trivial)
  -- the calls of a reconcile delete no Pod
  have hown : ∀ (b : Pool (sig Unit) Result (Cluster Unit)) i op s, OwnOp teamKey op →
      DeletesRecorded b (.act i ⟨op, (smoothly op s).1⟩) := by
    intro b i op s hop
    cases op with
    | other x => exact hop.elim
    | _ => trivial
  have hfirst := rests_exec hcreated (fun _ => trivial) hown (fun op s => smoothly_act)
  have hrecorded : PodRecorded (exec smoothly teamReconcile (teamCluster ∅)).2 teamKey := by
    intro o pod ho _ _
    have hname : ((exec smoothly teamReconcile (teamCluster ∅)).2.objects teamKey).all
        (fun o => o.status.podName != "") = true := by decide +kernel
    rw [ho] at hname
    exact bne_iff_ne.mp hname
  have hlost : Rests teamWorld DeletesRecorded ⟨bareCluster ∅, []⟩ (podLost smoothly) :=
    rests_act (x := .deletePod teamKey) hfirst rfl (fun _ => trivial) (fun _ _ => hrecorded)
  have hagain : Rests teamWorld DeletesRecorded ⟨bareCluster ∅, []⟩
      (exec smoothly teamReconcile (podLost smoothly)).2 :=
    rests_exec hlost (fun _ => trivial) hown (fun op s => smoothly_act)
  have hone : (exec smoothly teamReconcile (podLost smoothly)).2.created 0 = 1 := by decide +kernel
  have hnone : ((exec smoothly teamReconcile (podLost smoothly)).2.pods teamKey).isNone = true := by
    decide +kernel
  generalize (exec smoothly teamReconcile (podLost smoothly)).2 = s at hagain hone hnone
  obtain ⟨ts, -, hr⟩ := hagain
  exact ⟨_, hr, hone, Option.isNone_iff_eq_none.mp hnone,
    restores_once teamReconciler plainMachine (fun _ => true) "" (bareCluster_initial ∅) hr⟩

/-- The Pod is created, the update of the status fails, others delete the Pod, and the next
    reconcile creates it again. -/
theorem restored_twice : ∃ b, Reaches teamWorld (fun _ _ => True) ⟨bareCluster ∅, []⟩ b ∧
    b.shared.created 0 = 2 := by
  have hcreated : Rests teamWorld (fun _ _ => True) ⟨bareCluster ∅, []⟩ (teamCluster ∅) :=
    rests_createTeam ∅ (fun _ => trivial) (fun _ _ => trivial)
  have hfirst := rests_exec hcreated (fun _ => trivial) (fun _ _ _ _ _ => trivial)
    (fun op s => losingUpdates_act)
  have hlost : Rests teamWorld (fun _ _ => True) ⟨bareCluster ∅, []⟩ (podLost losingUpdates) :=
    rests_act (x := .deletePod teamKey) hfirst rfl (fun _ => trivial) (fun _ _ => trivial)
  obtain ⟨ts, -, hr⟩ := rests_exec hlost (fun _ => trivial) (fun _ _ _ _ _ => trivial)
    (fun op s => smoothly_act)
  have htwo : (exec smoothly teamReconcile (podLost losingUpdates)).2.created 0 = 2 := by decide
  exact ⟨_, hr, htwo⟩

end Runs

end CheckpointRestore.Restore
