import CheckpointRestore.PodRestore.Once

namespace CheckpointRestore.Restore

open Interaction Go
open Pinning

/-!
# Releasing pins — what is left of a `PodRestore` in the markers

A `PodRestore` pins its archives while it lives and unpins them when it is deleted; the finalizer
holds the object until that is done.  An unpin that fails is logged, and the finalizer goes all the
same.

* `Lists` — a managed marker lists an owner; what pins and unpins of any owner do to it;
* `Pins` — what a deletion relies on: an object with the finalizer stays, and nobody else lists
  its owner;
* `pins_released` — once the finalizer was removed no marker of the object's archives lists it, if
  no call of an unpin fails;
* `pin_leaked` — an unpin whose read fails leaves the owner in the marker for good.
-/

variable {ρ : Type}

/-! ### Owners -/

/-- Different objects are different owners. -/
theorem podRestoreOwnerKey_inj {key key' : ObjectKey}
    (h : podRestoreOwnerKey key = podRestoreOwnerKey key') : key = key' := by
  have hlist := congrArg String.toList h
  simp only [podRestoreOwnerKey, String.toList_append, List.append_assoc] at hlist
  obtain ⟨hns, hname⟩ := (Strings.append_sep_inj key.ns_slash key'.ns_slash).mp hlist
  obtain ⟨ns, name, _, _⟩ := key
  obtain ⟨ns', name', _, _⟩ := key'
  obtain rfl := String.toList_inj.mp hns
  obtain rfl := String.toList_inj.mp hname
  rfl

/-! ### Markers -/

variable {x q : String}

section Markers
variable {faulty : fsSig.Op → Prop} {s s' : FS} {tr : List (Event fsSig)} {path owner : String}

/-- A pin of an archive that is not there does nothing; otherwise it brings the marker to
    `afterPin`, or fails and leaves it alone. -/
theorem runs_pinCheckpoint {pinned : Bool}
    (h : Runs (FsOp.act faulty) (pinCheckpoint path owner) s tr pinned s') :
    Frame path s s' ∧ (path ∉ s ∧ pinned = false ∧ s' = s ∨
      path ∈ s ∧ (pinned = true ∧ keepContent s' path = afterPin owner (keepContent s path) ∨
        (∃ op, faulty op) ∧ pinned = false ∧ keepContent s' path = keepContent s path)) := by
  unfold pinCheckpoint at h
  obtain ⟨x, tr₂, s₁, -, hact, hrest⟩ := h.of_call
  obtain ⟨hx, rfl⟩ : (x = s.stat path ∨ faulty (.stat path) ∧ x = none) ∧ s₁ = s := hact
  by_cases hfailed : faulty (.stat path) ∧ path ∈ s₁ ∧ x = none
  · -- the archive is there, but it could not be looked at
    obtain ⟨hfaulty, hmem, rfl⟩ := hfailed
    obtain ⟨-, rfl, rfl⟩ := hrest.of_pure
    exact ⟨.refl _ _, .inr ⟨hmem, .inr ⟨⟨_, hfaulty⟩, rfl, rfl⟩⟩⟩
  by_cases hmem : path ∈ s₁
  · obtain ⟨info, hinfo⟩ := Option.isSome_iff_exists.mp (FS.stat_isSome.mpr hmem)
    obtain rfl := hx.resolve_right (fun h => hfailed ⟨h.1, hmem, h.2⟩)
    rw [hinfo] at hrest
    obtain ⟨hframe, heffect⟩ := runs_of_cwp (cwp_pinLocked path owner) hrest
    exact ⟨hframe, .inr ⟨hmem, heffect⟩⟩
  · have hnone : s₁.stat path = none := by
      rw [← Option.not_isSome_iff_eq_none, FS.stat_isSome]
      exact hmem
    obtain rfl : x = none := hx.elim (fun h => h.trans hnone) (fun h => h.2)
    obtain ⟨-, rfl, rfl⟩ := hrest.of_pure
    exact ⟨.refl _ _, .inl ⟨hmem, rfl, rfl⟩⟩

/-- A pin lists its owner only. -/
theorem Lists.of_afterPin (hx : x ≠ owner)
    (h : keepContent s' path = afterPin owner (keepContent s path)) (hl : Lists s' path x) :
    Lists s path x := by
  obtain ⟨content, marker, hcontent, hparse, hmem⟩ := hl
  rw [h] at hcontent
  rcases afterPin_cases owner (keepContent s path) with
    ⟨-, -, heq, -⟩ | ⟨owners, -, hbefore, heq⟩
  · exact ⟨content, marker, heq.symm.trans hcontent, hparse, hmem⟩
  · obtain rfl := Option.some.inj (heq.symm.trans hcontent)
    rw [parse_markerData] at hparse
    obtain rfl := Option.some.inj hparse
    have hin : x ∈ owners := (List.mem_append.mp (mem_sortStrings.mp hmem)).resolve_right
      (fun hlast => hx (List.mem_singleton.mp hlast))
    rcases hbefore with ⟨-, rfl⟩ | ⟨content, hc, hm⟩
    · exact absurd hin List.not_mem_nil
    · exact ⟨content, _, hc, hm, hin⟩

/-- An unpin lists nobody. -/
theorem Lists.of_afterUnpin (h : keepContent s' path = afterUnpin owner (keepContent s path))
    (hl : Lists s' path x) : Lists s path x ∧ x ≠ owner := by
  obtain ⟨content, marker, hcontent, hparse, hmem⟩ := hl
  rw [h] at hcontent
  rcases afterUnpin_cases owner (keepContent s path) with
    ⟨heq, hout⟩ | ⟨content', owners, hc, hm, ⟨-, heq⟩ | ⟨-, heq⟩⟩
  · rw [heq] at hcontent
    refine ⟨⟨content, marker, hcontent, hparse, hmem⟩, ?_⟩
    rintro rfl
    exact hout content marker hcontent hparse hmem
  · obtain rfl := Option.some.inj (heq.symm.trans hcontent)
    rw [parse_markerData] at hparse
    obtain rfl := Option.some.inj hparse
    obtain ⟨hin, hne⟩ := mem_removeString.mp hmem
    exact ⟨⟨content', _, hc, hm, hin⟩, hne⟩
  · exact absurd (heq.symm.trans hcontent) (by simp)

theorem lists_congr (h : keepContent s' q = keepContent s q) : Lists s' q x ↔ Lists s q x := by
  unfold Lists
  rw [h]

/-- **Pins.**  Whatever fails, no other owner comes to be listed anywhere. -/
theorem lists_of_pin {pinned : Bool}
    (h : Runs (FsOp.act faulty) (pinCheckpoint path owner) s tr pinned s') (hx : x ≠ owner)
    (hl : Lists s' q x) : Lists s q x := by
  obtain ⟨hframe, heffect⟩ := runs_pinCheckpoint h
  by_cases hq : q = path
  · subst hq
    rcases heffect with ⟨-, -, rfl⟩ | ⟨-, ⟨-, hafter⟩ | ⟨-, -, hsame⟩⟩
    · exact hl
    · exact hl.of_afterPin hx hafter
    · exact (lists_congr hsame).mp hl
  · exact (lists_congr (keepContent_of_frame hframe hq)).mp hl

/-- **Unpins.**  Whatever fails, nobody comes to be listed; if nothing fails the owner goes. -/
theorem lists_of_unpin (h : Runs (FsOp.act faulty) (unpinCheckpoint path owner) s tr () s')
    (hl : Lists s' q x) : Lists s q x ∧ ((¬ ∃ op, faulty op) → q = path → x ≠ owner) := by
  obtain ⟨hframe, heffect⟩ := runs_of_cwp (cwp_unpinCheckpoint path owner) h
  by_cases hq : q = path
  · subst hq
    rcases heffect with hafter | ⟨hfaulty, hsame⟩
    · obtain ⟨hbefore, hne⟩ := hl.of_afterUnpin hafter
      exact ⟨hbefore, fun _ _ => hne⟩
    · exact ⟨(lists_congr hsame).mp hl, fun h => absurd hfaulty h⟩
  · exact ⟨(lists_congr (keepContent_of_frame hframe hq)).mp hl, fun _ h => absurd h hq⟩

end Markers

/-! ### What a deletion relies on -/

/-- The markers that list the key's owner, the archives of an object that was released, and the
    archives of one that is being deleted and has the finalizer still. -/
structure Pins where
  pinned : String → Prop
  released : Option (List String)
  leaving : Option (List String)

/-- The archives that a deletion has to unpin. -/
def leavingOf : Option (PodRestoreObject ρ) → Option (List String)
  | none => none
  | some o => if o.deleting = true ∧ o.Held then some o.paths else none

/-- The view of a key. -/
def Cluster.pins (s : Cluster ρ) (key : ObjectKey) : Pins where
  pinned path := Lists s.fs path (podRestoreOwnerKey key)
  released := s.released key
  leaving := leavingOf (s.objects key)

/-- What others do: they list nobody, they create objects anew, and an object with the finalizer
    stays. -/
structure Pins.Stays (v w : Pins) : Prop where
  pinned : ∀ path, w.pinned path → v.pinned path
  released : w.released = v.released ∨ w.released = none
  leaving : ∀ paths, v.leaving = some paths → w.leaving = some paths

theorem Pins.Stays.refl (v : Pins) : v.Stays v := ⟨fun _ => id, .inl rfl, fun _ => id⟩

variable {v w : Pins}

theorem Pins.Stays.trans {u : Pins} (h : u.Stays v) (h' : v.Stays w) : u.Stays w := by
  refine ⟨fun p hp => h.pinned p (h'.pinned p hp), ?_, fun P hP => h'.leaving P (h.leaving P hP)⟩
  rcases h'.released with heq | hnone
  · rw [heq]
    exact h.released
  · exact .inr hnone

/-- An object that is not released stays so. -/
theorem Pins.Stays.unreleased (h : v.Stays w) (hv : v.released = none) : w.released = none := by
  rcases h.released with heq | hnone
  · rw [heq, hv]
  · exact hnone

/-- What a reconcile of the key owes and is given.  The finalizer is dropped when no archive is
    pinned any more. -/
def pinsContract (key : ObjectKey) : Contract (sig ρ) Pins where
  pre
    | .get k, _ | .getPod k, _ | .createPod k _, _ | .updateStatus k _ _, _ => k = key
    | .patchFinalizers k finalizers, v => k = key ∧
        (podRestoreFinalizer ∈ finalizers ∧ v.released = none ∨
          podRestoreFinalizer ∉ finalizers ∧
            ∃ paths, v.leaving = some paths ∧ ∀ p ∈ paths, ¬ v.pinned p)
    | .pin _ owner, v => owner = podRestoreOwnerKey key ∧ v.released = none
    | .unpin _ owner, _ => owner = podRestoreOwnerKey key
    | .other _, _ => False
    | _, _ => True
  post
    | .get _, v, x, w => v.Stays w ∧ ∀ o : PodRestoreObject ρ, x = Read.found o →
        (o.deleting = true → o.Held → w.leaving = some o.paths) ∧
        (o.deleting = true ∧ ¬ o.Held ∨ w.released = none)
    | .patchFinalizers _ _, _, _, _ => True
    | .pin _ _, _, _, w => w.released = none
    | .unpin path _, v, _, w => v.Stays w ∧ ¬ w.pinned path
    | _, v, _, w => v.Stays w

theorem Pins.Stays.yields {key : ObjectKey} (h : v.Stays w) :
    (pinsContract (ρ := ρ) key).Yields v w := by
  refine ⟨fun op hpre => ?_, fun op x u hpost => ?_⟩
  · cases op with
    | patchFinalizers k finalizers =>
      obtain ⟨hk, ⟨hin, hnone⟩ | ⟨hout, paths, hleaving, hpins⟩⟩ := hpre
      · exact ⟨hk, .inl ⟨hin, h.unreleased hnone⟩⟩
      · exact ⟨hk, .inr ⟨hout, paths, h.leaving _ hleaving, fun p hp hw =>
          hpins p hp (h.pinned p hw)⟩⟩
    | pin path owner => exact ⟨hpre.1, h.unreleased hpre.2⟩
    | _ => exact hpre
  · cases op with
    | get k => exact ⟨h.trans hpost.1, hpost.2⟩
    | patchFinalizers k finalizers => trivial
    | pin path owner => exact hpost
    | unpin path owner => exact ⟨h.trans hpost.1, hpost.2⟩
    | _ => exact h.trans hpost

/-! ### The program -/

variable {finalizers : List String}

section Program
variable (r : PodRestoreReconciler) (isPrint : Char → Bool) (jsonErr : String)
variable {key : ObjectKey} {o : PodRestoreObject ρ} {v : Pins}

/-- A pass over an object that is not being deleted pins, and nothing is released. -/
theorem pins_reconcileLive (hv : v.released = none) :
    wp (pinsContract key) (reconcileLive r isPrint jsonErr key o) (fun _ _ => True) v := by
  refine wp_mono (fun _ _ _ => trivial) (wp_of_issues (I := fun v => v.released = none)
    (fun op v hop hv => ?_) (reconcileLive_issues r isPrint jsonErr) hv)
  cases op with
  | pin path owner => exact ⟨⟨hop, hv⟩, fun _ _ hw => hw⟩
  | getPod k => exact ⟨hop, fun _ _ hw => hw.unreleased hv⟩
  | createPod k pod => exact ⟨hop, fun _ _ hw => hw.unreleased hv⟩
  | updateStatus k resourceVersion st => exact ⟨hop, fun _ _ hw => hw.unreleased hv⟩
  | rangeKeys map => exact ⟨trivial, fun _ _ hw => hw.unreleased hv⟩
  | getNode name => exact ⟨trivial, fun _ _ hw => hw.unreleased hv⟩
  | render pr => exact ⟨trivial, fun _ _ hw => hw.unreleased hv⟩
  | now => exact ⟨trivial, fun _ _ hw => hw.unreleased hv⟩
  | get k => exact hop.elim
  | patchFinalizers k finalizers => exact hop.elim
  | unpin path owner => exact hop.elim
  | other a => exact hop.elim

theorem pins_changeFinalizers
    (hpre : (pinsContract (ρ := ρ) key).pre (.patchFinalizers key finalizers) v) :
    wp (pinsContract (ρ := ρ) key) (changeFinalizers key finalizers) (fun _ _ => True) v := by
  unfold changeFinalizers
  rw [wp_bind]
  refine wp_patchFinalizers hpre (fun x _ _ => ?_)
  cases x <;> trivial

/-- The loop of a deletion: every archive is unpinned, and those before it stay so. -/
theorem pins_unpinAll (cps : List ContainerCheckpoint) :
    wp (pinsContract (ρ := ρ) key) (cps.forM (fun cp => do
        let _ ← unpin cp.path (podRestoreOwnerKey key)
        return ⟨⟩))
      (fun _ w => v.Stays w ∧ ∀ cp ∈ cps, ¬ w.pinned cp.path) v := by
  induction cps generalizing v with
  | nil => exact ⟨.refl v, by simp⟩
  | cons cp cps ih =>
    rw [List.forM_eq_forM, List.forM_cons, wp_bind, wp_bind]
    refine wp_unpin rfl (fun x w hw => (wp_pure _ _ _).mpr ?_)
    refine wp_mono (fun _ u hu => ⟨hw.1.trans hu.1, fun cp' hcp' => ?_⟩) (ih (v := w))
    rcases List.mem_cons.mp hcp' with rfl | hcp'
    · exact fun hpinned => hw.2 (hu.1.pinned _ hpinned)
    · exact hu.2 cp' hcp'

/-- A deletion drops the finalizer when every archive is unpinned. -/
theorem pins_reconcileDelete (hv : v.leaving = some o.paths) :
    wp (pinsContract key) (reconcileDelete key o) (fun _ _ => True) v := by
  unfold reconcileDelete
  rw [wp_bind]
  refine wp_mono (fun _ w hw => ?_) (pins_unpinAll o.checkpoints)
  refine pins_changeFinalizers ⟨rfl, .inr ⟨by simp, o.paths, hw.1.leaving _ hv, fun p hp => ?_⟩⟩
  obtain ⟨cp, hcp, rfl⟩ := List.mem_map.mp hp
  exact hw.2 cp hcp

/-- A reconcile meets its contract from everywhere. -/
theorem pins_reconcile :
    wp (pinsContract (ρ := ρ) key) (reconcile r isPrint jsonErr key) (fun _ _ => True) v := by
  unfold reconcile
  rw [wp_bind]
  refine wp_get rfl (fun x w hw => ?_)
  cases x with
  | notFound => trivial
  | failed => trivial
  | found o =>
    obtain ⟨hleaving, hreleased⟩ := hw.2 o rfl
    -- an object that is not being deleted is not released
    have hlive : o.deleting = false → w.released = none := fun hd =>
      hreleased.resolve_left (fun h => absurd (hd.symm.trans h.1) (by simp))
    dsimp only
    unfold reconcileFound
    split
    · next hdeleting hheld =>
      exact pins_reconcileDelete (hleaving hdeleting (of_decide_eq_true hheld))
    · trivial
    · next hdeleting _ => exact pins_changeFinalizers ⟨rfl, .inl ⟨by simp, hlive hdeleting⟩⟩
    · next hdeleting _ => exact pins_reconcileLive r isPrint jsonErr (hlive hdeleting)

end Program

/-! ### The cluster -/

/-- Nothing that was released is pinned, and an object whose finalizer was removed does not get it
    back. -/
structure Released (s : Cluster ρ) : Prop where
  clean : ∀ key paths, s.released key = some paths → ∀ p ∈ paths,
    ¬ Lists s.fs p (podRestoreOwnerKey key)
  gone : ∀ key paths, s.released key = some paths → ∀ o, s.objects key = some o →
    o.deleting = true ∧ ¬ o.Held

section Effects
variable {s s' : Cluster ρ} {key : ObjectKey} {o o' : PodRestoreObject ρ}

/-- A change that lists nobody, releases nothing and touches no object. -/
theorem Released.quiet (h : Released s) (hobjects : s'.objects = s.objects)
    (hreleased : s'.released = s.released)
    (hlists : ∀ p owner, Lists s'.fs p owner → Lists s.fs p owner) :
    Released s' ∧ ∀ k, (s.pins k).Stays (s'.pins k) := by
  refine ⟨⟨fun k P hP p hp hl => ?_, fun k P hP x hx => ?_⟩, fun k => ⟨fun p => hlists p _, ?_, ?_⟩⟩
  · rw [hreleased] at hP
    exact h.clean k P hP p hp (hlists _ _ hl)
  · rw [hreleased] at hP
    rw [hobjects] at hx
    exact h.gone k P hP x hx
  · exact .inl (congrFun hreleased k)
  · intro P hP
    show leavingOf (s'.objects k) = some P
    rw [hobjects]
    exact hP

/-- A new version of an object that stays in deletion and keeps its finalizer if it had it, and is
    given none if it is in deletion. -/
theorem Released.store (h : Released s) (ho : s.objects key = some o) (hpaths : o'.paths = o.paths)
    (hdeleting : o.deleting = true → o'.deleting = true)
    (hheld : o'.Held ↔ o.Held) :
    Released (s.store key o') ∧ ∀ k, (s.pins k).Stays ((s.store key o').pins k) := by
  refine ⟨⟨h.clean, fun k P hP x hx => ?_⟩, fun k => ⟨fun _ => id, .inl rfl, fun P hP => ?_⟩⟩
  · rcases store_objects hx with ⟨-, hx⟩ | ⟨rfl, rfl, -⟩
    · exact h.gone k P hP x hx
    · obtain ⟨hd, hnot⟩ := h.gone k P hP o ho
      exact ⟨hdeleting hd, fun hx => hnot (hheld.mp hx)⟩
  · by_cases hk : k = key
    · subst hk
      have hbefore : leavingOf (s.objects k) = some P := hP
      rw [ho, leavingOf] at hbefore
      split_ifs at hbefore with hleaving
      have hheld' : o'.Held := hheld.mpr hleaving.2
      have hkept : ¬ (o'.deleting = true ∧ o'.finalizers = []) := by
        rintro ⟨-, hnil⟩
        exact absurd hheld' (by simp [PodRestoreObject.Held, hnil])
      show leavingOf ((s.store k o').objects k) = some P
      simp only [Cluster.store, Function.update_self, if_neg hkept, leavingOf]
      rw [if_pos ⟨hdeleting hleaving.1, hheld'⟩, ← hbefore]
      exact congrArg some hpaths
    · show leavingOf ((s.store key o').objects k) = some P
      simp only [Cluster.store, Function.update_of_ne hk]
      exact hP

/-- The views of other keys are not concerned by a patch. -/
theorem pins_patch_ne {k : ObjectKey} (hk : k ≠ key) (finalizers : List String) :
    (s.pins k).Stays ((s.patch key o finalizers).pins k) := by
  refine ⟨fun _ => id, .inl ?_, fun P hP => ?_⟩
  · show (s.patch key o finalizers).released k = s.released k
    unfold Cluster.patch
    dsimp only
    split_ifs
    · exact Function.update_of_ne hk _ _
    · rfl
  · show leavingOf ((s.patch key o finalizers).objects k) = some P
    simp only [Cluster.patch, Cluster.store, Function.update_of_ne hk]
    exact hP

/-- A patch of the finalizers by a reconcile that meets its contract. -/
theorem Released.patchAnswer (h : Released s)
    (hpre : podRestoreFinalizer ∈ finalizers ∧ s.released key = none ∨
      podRestoreFinalizer ∉ finalizers ∧ ∃ paths, leavingOf (s.objects key) = some paths ∧
        ∀ p ∈ paths, ¬ Lists s.fs p (podRestoreOwnerKey key)) :
    Released (s.patchAnswer key finalizers).2 ∧
      ∀ k, k ≠ key → (s.pins k).Stays ((s.patchAnswer key finalizers).2.pins k) := by
  unfold Cluster.patchAnswer
  cases ho : s.objects key with
  | none => exact ⟨h, fun k _ => .refl _⟩
  | some o =>
    dsimp only
    split_ifs with hadmits
    · refine ⟨?_, fun k hk => pins_patch_ne hk finalizers⟩
      rcases hpre with ⟨hin, hnone⟩ | ⟨hout, paths, hleaving, hpins⟩
      · -- the finalizer is added, and the object is not released
        have hreleased : (s.patch key o finalizers).released = s.released := by
          simp only [Cluster.patch, hin, not_true, and_false, if_false]
        refine ⟨fun k P hP => h.clean k P (hreleased ▸ hP), fun k P hP x hx => ?_⟩
        rw [hreleased] at hP
        rcases store_objects hx with ⟨-, hx⟩ | ⟨rfl, -, -⟩
        · exact h.gone k P hP x hx
        · exact absurd (hnone.symm.trans hP) (by simp)
      · rw [ho, leavingOf] at hleaving
        split_ifs at hleaving with hdel
        obtain rfl := Option.some.inj hleaving
        have hreleased : (s.patch key o finalizers).released
            = Function.update s.released key (some o.paths) := by
          simp only [Cluster.patch, hdel.2, hout, not_false_eq_true, and_self, if_true]
        refine ⟨fun k P hP => ?_, fun k P hP x hx => ?_⟩ <;> rw [hreleased] at hP <;>
          by_cases hk : k = key
        · subst hk
          rw [Function.update_self] at hP
          obtain rfl := Option.some.inj hP
          exact hpins
        · rw [Function.update_of_ne hk] at hP
          exact h.clean k P hP
        · rcases store_objects hx with ⟨hne, -⟩ | ⟨-, rfl, -⟩
          · exact absurd hk hne
          · exact ⟨hdel.1, hout⟩
        · rw [Function.update_of_ne hk] at hP
          rcases store_objects hx with ⟨-, hx⟩ | ⟨heq, -, -⟩
          · exact h.gone k P hP x hx
          · exact absurd heq hk
    · exact ⟨h, fun k _ => .refl _⟩

/-- A creation of a Pod does not concern the objects and the files. -/
theorem Released.createAnswer (h : Released s) (k : ObjectKey) (pod : PodObject ρ) :
    Released (s.createAnswer k pod).2 ∧
      ∀ k', (s.pins k').Stays ((s.createAnswer k pod).2.pins k') := by
  unfold Cluster.createAnswer
  cases s.pods k with
  | some _ => exact ⟨h, fun _ => .refl _⟩
  | none => exact h.quiet rfl rfl (fun _ _ => id)

/-- An update of the status keeps the paths and finalizers of the object. -/
theorem Released.updateAnswer (h : Released s) (k : ObjectKey) (resourceVersion : ℕ)
    (st : PodRestoreStatus) :
    Released (s.updateAnswer k resourceVersion st).2 ∧
      ∀ k', (s.pins k').Stays ((s.updateAnswer k resourceVersion st).2.pins k') := by
  unfold Cluster.updateAnswer
  cases ho : s.objects k with
  | none => exact ⟨h, fun _ => .refl _⟩
  | some o =>
    dsimp only
    split_ifs
    · exact h.store ho rfl id Iff.rfl
    · exact ⟨h, fun _ => .refl _⟩

end Effects

section Steps
variable {r : PodRestoreReconciler} {m : Machine} {s s' : Cluster ρ} {key : ObjectKey}

/-- No call that an unpin makes fails. -/
def UnpinSucceeds : Event (sig ρ) → Prop
  | ⟨.unpin _ _, x⟩ => x = true
  | _ => True

/-- A pin for an object that is not released, and the pins of another owner are not concerned. -/
theorem Released.pin (h : Released s) (hnone : s.released key = none) {fs : FS}
    (hothers : ∀ k, k ≠ key → ∀ p, Lists fs p (podRestoreOwnerKey k) →
      Lists s.fs p (podRestoreOwnerKey k)) :
    Released { s with fs } ∧ ∀ k, k ≠ key → (s.pins k).Stays ({ s with fs }.pins k) := by
  refine ⟨⟨fun k P hP p hp hl => ?_, h.gone⟩, fun k hk => ⟨hothers k hk, .inl rfl, fun _ => id⟩⟩
  by_cases hk : k = key
  · subst hk
    exact absurd (hnone.symm.trans hP) (by simp)
  · exact h.clean k P hP p hp (hothers k hk p hl)

/-- The object that is read: one that leaves is known to leave, and one that has not left is not
    released. -/
theorem Released.read (h : Released s) {o : PodRestoreObject ρ} (hobj : s.objects key = some o) :
    (o.deleting = true → podRestoreFinalizer ∈ o.finalizers →
        leavingOf (s.objects key) = some o.paths) ∧
      ((o.deleting = true ∧ podRestoreFinalizer ∉ o.finalizers) ∨ s.released key = none) := by
  refine ⟨fun hd hheld => ?_, ?_⟩
  · rw [hobj, leavingOf, if_pos ⟨hd, hheld⟩]
  · cases hP : s.released key with
    | none => exact .inr rfl
    | some P => exact .inl (h.gone key P hP o hobj)

/-- A call of a reconcile has the effect its contract says, and no other key notices. -/
theorem pins_own {op : (sig ρ).Op} {x : (sig ρ).Reply op} (h : Released s)
    (hok : UnpinSucceeds ⟨op, x⟩) (hpre : (pinsContract key).pre op (s.pins key))
    (hact : Cluster.act r m True op s x s') :
    Released s' ∧ (pinsContract key).post op (s.pins key) x (s'.pins key) ∧
      ∀ k, k ≠ key → (s.pins k).Stays (s'.pins k) := by
  -- most calls have to keep the pins of every key, this one included
  have hkeeps : (Released s' ∧ ∀ k, (s.pins k).Stays (s'.pins k)) →
      Released s' ∧ (s.pins key).Stays (s'.pins key) ∧
        ∀ k, k ≠ key → (s.pins k).Stays (s'.pins k) :=
    fun ⟨hrel, hstays⟩ => ⟨hrel, hstays key, fun k _ => hstays k⟩
  have hquiet : s'.objects = s.objects → s'.released = s.released → s'.fs = s.fs →
      Released s' ∧ (s.pins key).Stays (s'.pins key) ∧
        ∀ k, k ≠ key → (s.pins k).Stays (s'.pins k) := by
    intro h₁ h₂ h₃
    exact hkeeps (h.quiet h₁ h₂ (fun p owner => by rw [h₃]; exact id))
  cases op with
  | get k =>
    obtain rfl : k = key := hpre
    obtain ⟨hx, hs⟩ := apiCall_cases hact
    obtain rfl : s' = s := hs.elim id id
    refine ⟨h, ⟨.refl _, fun o ho => ?_⟩, fun _ _ => .refl _⟩
    subst ho
    exact h.read (Cluster.read_found (hx.resolve_right (by simp)))
  | patchFinalizers k finalizers =>
    obtain ⟨rfl, hpre⟩ := hpre
    obtain ⟨-, rfl | rfl⟩ := apiCall_cases hact
    · exact ⟨h, trivial, fun _ _ => .refl _⟩
    · obtain ⟨hrel, hstays⟩ := h.patchAnswer hpre
      exact ⟨hrel, trivial, hstays⟩
  | rangeKeys map =>
    obtain rfl : s' = s := hact.2
    exact hquiet rfl rfl rfl
  | getNode name =>
    obtain rfl : s' = s := (apiCall_cases hact).2.elim id id
    exact hquiet rfl rfl rfl
  | pin path owner =>
    obtain ⟨tr, fs, hrun, rfl⟩ := hact
    obtain ⟨rfl, hnone⟩ := hpre
    obtain ⟨hrel, hstays⟩ := h.pin hnone (fun k hk p =>
      lists_of_pin hrun (fun heq => hk (podRestoreOwnerKey_inj heq)))
    exact ⟨hrel, hnone, hstays⟩
  | unpin path owner =>
    obtain ⟨tr, fs, rfl, heffect⟩ := hact
    obtain rfl : owner = podRestoreOwnerKey key := hpre
    obtain rfl : x = true := hok
    -- no call of the unpin failed, so the owner has left the marker
    obtain ⟨-, hrun⟩ := heffect.resolve_right (fun hfail => absurd hfail.2.1 (by simp))
    have hkeep : Released { s with fs } ∧ ∀ k, (s.pins k).Stays ({ s with fs }.pins k) :=
      h.quiet rfl rfl (fun p owner hl => (lists_of_unpin hrun hl).1)
    obtain ⟨hrel, hstays⟩ := hkeep
    refine ⟨hrel, ⟨hstays key, fun hl => ?_⟩, fun k _ => hstays k⟩
    exact (lists_of_unpin hrun hl).2 FsOp.not_noFault rfl rfl
  | getPod k =>
    obtain rfl : s' = s := (apiCall_cases hact).2.elim id id
    exact hquiet rfl rfl rfl
  | render pr =>
    obtain ⟨rfl, -⟩ := hact
    exact hquiet rfl rfl rfl
  | createPod k pod =>
    obtain ⟨-, rfl | rfl⟩ := apiCall_cases hact
    · exact hquiet rfl rfl rfl
    · exact hkeeps (h.createAnswer k pod)
  | now =>
    obtain rfl : s' = s := hact
    exact hquiet rfl rfl rfl
  | updateStatus k resourceVersion st =>
    obtain ⟨-, rfl | rfl⟩ := apiCall_cases hact
    · exact hquiet rfl rfl rfl
    · exact hkeeps (h.updateAnswer k resourceVersion st)
  | other a => exact hpre.elim

/-- A new object is not released. -/
theorem Released.putNew (h : Released s) (hnone : s.objects key = none) {targetNode : String}
    {checkpoints : List ContainerCheckpoint} {template : PodTemplateSpec ρ} :
    Released (s.putNew key finalizers targetNode checkpoints template) ∧
      ∀ k, (s.pins k).Stays ((s.putNew key finalizers targetNode checkpoints template).pins k) := by
  refine ⟨⟨fun k P hP => ?_, fun k P hP x hx => ?_⟩,
    fun k => ⟨fun _ => id, ?_, fun P hP => ?_⟩⟩ <;>
    by_cases hk : k = key
  · simp [Cluster.putNew, hk] at hP
  · exact h.clean k P (by simpa [Cluster.putNew, Function.update_of_ne hk] using hP)
  · simp [Cluster.putNew, hk] at hP
  · exact h.gone k P (by simpa [Cluster.putNew, Function.update_of_ne hk] using hP) x
      (by simpa [Cluster.putNew, Function.update_of_ne hk] using hx)
  · exact .inr (by simp [Cluster.pins, Cluster.putNew, hk])
  · exact .inl (by simp [Cluster.pins, Cluster.putNew, Function.update_of_ne hk])
  · have hbefore : leavingOf (s.objects k) = some P := hP
    rw [hk, hnone] at hbefore
    exact absurd hbefore (by simp [leavingOf])
  · show leavingOf ((s.putNew key finalizers targetNode checkpoints template).objects k) = some P
    simp only [Cluster.putNew, Function.update_of_ne hk]
    exact hP

/-- What others do lists nobody and leaves an object with the finalizer in place. -/
theorem pins_other {a : Action ρ} (h : Released s) (hact : a.act s s') :
    Released s' ∧ ∀ k, (s.pins k).Stays (s'.pins k) := by
  have hquiet : s'.objects = s.objects → s'.released = s.released → s'.fs = s.fs →
      Released s' ∧ ∀ k, (s.pins k).Stays (s'.pins k) := by
    intro h₁ h₂ h₃
    exact h.quiet h₁ h₂ (fun p owner => by rw [h₃]; exact id)
  cases a with
  | create key finalizers targetNode checkpoints template =>
    obtain ⟨hnone, rfl⟩ := hact
    exact h.putNew hnone
  | delete key =>
    obtain ⟨o, ho, rfl⟩ := hact
    exact h.store ho rfl (fun _ => rfl) Iff.rfl
  | editFinalizers key finalizers =>
    obtain ⟨o, ho, -, hheld, rfl⟩ := hact
    exact h.store ho rfl id hheld
  | createPod key pod =>
    obtain ⟨-, -, rfl⟩ := hact
    exact hquiet rfl rfl rfl
  | setPodStatus key phase reason =>
    obtain ⟨pod, -, rfl⟩ := hact
    exact hquiet rfl rfl rfl
  | deletePod key =>
    obtain rfl := hact
    exact hquiet rfl rfl rfl
  | addNode name =>
    obtain rfl := hact
    exact hquiet rfl rfl rfl
  | removeNode name =>
    obtain rfl := hact
    exact hquiet rfl rfl rfl
  | files fs =>
    obtain ⟨hlists, rfl⟩ := hact
    exact h.quiet rfl rfl hlists

end Steps

/-! ### The result -/

section Result
variable (r : PodRestoreReconciler) (m : Machine) (isPrint : Char → Bool) (jsonErr : String)

/-- Reconciles by keys, with the pins they answer for. -/
def pinsKeyed : Keyed (sig ρ) Result (Cluster ρ) ObjectKey Pins where
  first := .get
  prog := reconcile r isPrint jsonErr
  view key s := s.pins key
  contract := pinsContract
  rest _ _ := True
  post _ _ _ _ := True

/-- No call that an unpin makes fails, in any pass. -/
def UnpinsSucceed (_ : Pool (sig ρ) Result (Cluster ρ)) : Label (sig ρ) Result → Prop
  | .act _ e => UnpinSucceeds e
  | _ => True

/-- Everything that the rule for keyed programs asks for. -/
theorem pinsKeyed_guarded : (pinsKeyed (ρ := ρ) r isPrint jsonErr).Guarded
    (world r m isPrint jsonErr) UnpinsSucceed Released where
  first_inj key key' h := RestoreOp.get.inj h
  first_prog key := rfl
  spec key v _ := wp_traced [] (wp_mono (fun _ _ _ _ => ⟨trivial, trivial⟩)
    (pins_reconcile r isPrint jsonErr))
  start b p hstart := world_start hstart
  act b i key op x s' h hok hpre hact := by
    obtain ⟨hrel, hpost, hframe⟩ := pins_own h hok hpre hact
    exact ⟨hrel, hpost, fun k hk => ⟨(hframe k hk).yields, id⟩⟩
  other b b₀ p i tr op k x s' hstart hu hother h _ hact := by
    obtain ⟨a, rfl⟩ := world_other hstart hu hother
    obtain ⟨hrel, hstays⟩ := pins_other h hact
    exact ⟨hrel, fun key => .inl ⟨(hstays key).yields, id⟩⟩
  env s s' _ h := h.elim

/-- **No pin outlives its `PodRestore`.**  However reconciles of any keys and the actions of others
    interleave, and whatever else fails: from the removal of the finalizer until an object of that
    name is created again, no managed marker of an archive in the spec lists the object, if no
    call of an unpin fails. -/
theorem pins_released {s : Cluster ρ} (hs : s.Initial) {b : Pool (sig ρ) Result (Cluster ρ)}
    (h : Reaches (world r m isPrint jsonErr) UnpinsSucceed ⟨s, []⟩ b) {key : ObjectKey}
    {paths : List String} (hreleased : b.shared.released key = some paths) :
    ∀ path ∈ paths, ¬ Lists b.shared.fs path (podRestoreOwnerKey key) := by
  have hinitial : Released s :=
    ⟨fun k P hP => absurd ((hs.released k).symm.trans hP) (by simp),
      fun k P hP => absurd ((hs.released k).symm.trans hP) (by simp)⟩
  have hinv := (pinsKeyed_guarded r m isPrint jsonErr).inv h rfl hinitial (fun _ => trivial)
  exact hinv.shared.clean key paths hreleased

end Result

/-! ### Runs -/

section Runs

/-- The archive of the runs below. -/
def teamArchive : FS :=
  FS.put ∅ "/ckpt/checkpoint-app_team-web-1.tar" (.tar 10240 ⟨[], none⟩) 0

/-- The `PodRestore` was reconciled, which pinned its archive, and then deleted. -/
def teamDeleted : Cluster Unit :=
  match (exec smoothly teamReconcile (teamCluster teamArchive)).2.objects teamKey with
  | none => (exec smoothly teamReconcile (teamCluster teamArchive)).2
  | some o => (exec smoothly teamReconcile (teamCluster teamArchive)).2.store teamKey
      { o with deleting := true }

/-- The marker cannot be read when the archive is to be unpinned. -/
def losingUnpins : (op : (sig Unit).Op) → Cluster Unit → (sig Unit).Reply op × Cluster Unit
  | .unpin _ _, s => (false, s)
  | op, s => smoothly op s

theorem losingUnpins_act {op : (sig Unit).Op} {s : Cluster Unit} (hop : OwnOp teamKey op) :
    teamWorld.act op s (losingUnpins op s).1 (losingUnpins op s).2 := by
  cases op with
  | unpin path owner =>
    have hread : FsOp.act FsOp.anyFault (.readFile (keepPath path)) s.fs .failed s.fs := by
      refine ⟨rfl, ?_⟩
      cases s.fs.lookup (keepPath path) <;> exact .inr ⟨trivial, rfl⟩
    exact ⟨_, s.fs, rfl, .inr ⟨trivial, rfl, .call hread (.pure _ _)⟩⟩
  | _ => exact smoothly_act hop

theorem rests_teamDeleted
    {ok : Pool (sig Unit) Result (Cluster Unit) → Label (sig Unit) Result → Prop}
    (hspawn : ∀ b p, ok b (.spawn p)) (hother : ∀ b i a, ok b (.act i ⟨.other a, ()⟩))
    (hown : ∀ b i op s, ok b (.act i ⟨op, (smoothly op s).1⟩)) :
    Rests teamWorld ok ⟨bareCluster teamArchive, []⟩ teamDeleted := by
  have hcreated : Rests teamWorld ok ⟨bareCluster teamArchive, []⟩ (teamCluster teamArchive) :=
    rests_createTeam teamArchive (fun b => hspawn b _) (fun b i => hother b i _)
  have hlive := rests_exec hcreated (fun b => hspawn b _) (fun b i op s _ => hown b i op s)
    (fun op s => smoothly_act)
  have hstored : ((exec smoothly teamReconcile (teamCluster teamArchive)).2.objects
      teamKey).isSome = true := by decide
  obtain ⟨o, ho⟩ := Option.isSome_iff_exists.mp hstored
  refine rests_act (x := .delete teamKey) hlive ⟨o, ho, ?_⟩ (fun b => hspawn b _)
    (fun _ i => hother _ i _)
  unfold teamDeleted
  rw [ho]

/-- The archive is unpinned and the finalizer removed. -/
theorem pins_released_team : ∃ b, Reaches teamWorld UnpinsSucceed ⟨bareCluster teamArchive, []⟩ b ∧
    b.shared.released teamKey = some ["/ckpt/checkpoint-app_team-web-1.tar"] ∧
    ¬ Lists b.shared.fs "/ckpt/checkpoint-app_team-web-1.tar" "team/app-restore" := by
  have hsmooth : ∀ (b : Pool (sig Unit) Result (Cluster Unit)) i op s,
      UnpinsSucceed b (.act i ⟨op, (smoothly op s).1⟩) := by
    intro b i op s
    cases op with
    | unpin path owner => rfl
    | _ => trivial
  have hdeleted : Rests teamWorld UnpinsSucceed ⟨bareCluster teamArchive, []⟩ teamDeleted :=
    rests_teamDeleted (fun _ _ => trivial) (fun _ _ _ => trivial) hsmooth
  obtain ⟨ts, -, hr⟩ := rests_exec hdeleted (fun _ => trivial) (fun b i op s _ => hsmooth b i op s)
    (fun op s => smoothly_act)
  have hreleased : (exec smoothly teamReconcile teamDeleted).2.released teamKey
      = some ["/ckpt/checkpoint-app_team-web-1.tar"] := by decide
  exact ⟨_, hr, hreleased, pins_released teamReconciler plainMachine (fun _ => true) ""
    (bareCluster_initial teamArchive) hr hreleased _ (List.mem_singleton.mpr rfl)⟩

/-- The read fails when the archive is to be unpinned, and the finalizer is removed all the same:
    the object is gone, and the marker lists it. -/
theorem pin_leaked : ∃ b, Reaches teamWorld (fun _ _ => True) ⟨bareCluster teamArchive, []⟩ b ∧
    b.shared.released teamKey = some ["/ckpt/checkpoint-app_team-web-1.tar"] ∧
    (b.shared.objects teamKey).isNone = true ∧
    Lists b.shared.fs "/ckpt/checkpoint-app_team-web-1.tar" "team/app-restore" := by
  have hdeleted : Rests teamWorld (fun _ _ => True) ⟨bareCluster teamArchive, []⟩ teamDeleted :=
    rests_teamDeleted (fun _ _ => trivial) (fun _ _ _ => trivial) (fun _ _ _ _ => trivial)
  obtain ⟨ts, -, hr⟩ := rests_exec hdeleted (fun _ => trivial) (fun _ _ _ _ _ => trivial)
    (fun op s => losingUnpins_act)
  have hreleased : (exec losingUnpins teamReconcile teamDeleted).2.released teamKey
      = some ["/ckpt/checkpoint-app_team-web-1.tar"] := by decide
  have hgone : ((exec losingUnpins teamReconcile teamDeleted).2.objects teamKey).isNone = true := by
    decide
  have hmarker : keepContent (exec losingUnpins teamReconcile teamDeleted).2.fs
      "/ckpt/checkpoint-app_team-web-1.tar"
      = some (.bytes (markerData ⟨podRestorePinManager, ["team/app-restore"]⟩)) := by decide
  exact ⟨_, hr, hreleased, hgone, _, _, hmarker, parse_markerData _, List.mem_singleton.mpr rfl⟩

end Runs

end CheckpointRestore.Restore
