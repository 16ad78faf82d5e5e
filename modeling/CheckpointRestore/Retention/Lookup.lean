import CheckpointRestore.Retention.Outcome

namespace CheckpointRestore.Retention

open Go Interaction Pinning Resource

/-!
# Failed lookups

`resourceExistsInCluster` reports a lookup that failed as a resource that does not exist,
together with an error, and the level only logs the error.

* `Outcome` — how a level's lookup turned out: present, absent or failed;
* `takenForOrphans_iff` — a failed lookup counts as an absent resource;
* `LookupSafe` — what a pass owes: failed lookups make no difference to the survivors, and
  orphans are removed on an answer only;
* `lookupSafe_iff` — it owes it exactly if every failed lookup meets pinned archives only;
* `failedLookup_removes` — a pass that removes a checkpoint because the API server could not
  be reached.
-/

/-! ### Outcomes -/

/-- How a lookup turned out. -/
inductive Outcome where
  | present
  | absent
  | failed
  deriving DecidableEq

/-- The outcome of a lookup that only asks for existence. -/
def ApiReply.outcome {α : Type} : ApiReply α → Outcome
  | .found _ => .present
  | .notFound => .absent
  | .failed _ => .failed

/-- The outcome of a level's lookup.  A container is absent from a pod that does not list
    it. -/
def outcome (lookups : Lookups) (details : CheckpointDetails) : Level → Outcome
  | .container => match lookups.getPod details.ns details.pod with
    | .found containers => if containers.contains details.container then .present else .absent
    | .notFound => .absent
    | .failed _ => .failed
  | .pod => (lookups.getPod details.ns details.pod).outcome
  | .namespace => (lookups.getNamespace details.ns).outcome

section Outcomes
variable {node : Node} {lookups : Lookups} {details : CheckpointDetails} {level : Level}
  {policy : Policy} {s : FS}

theorem exec_getPod (ns pod : String) :
    exec (answer node lookups) (Gc.getPod ns pod) s = (lookups.getPod ns pod, s) := rfl

theorem exec_getNamespace (ns : String) :
    exec (answer node lookups) (Gc.getNamespace ns) s = (lookups.getNamespace ns, s) := rfl

/-- `resourceExistsInCluster` tells a resource that is there from all other outcomes. -/
theorem resourceExistsInCluster_iff :
    (exec (answer node lookups) (resourceExistsInCluster details level) s).1.1 = true ↔
      outcome lookups details level = .present := by
  cases level with
  | container =>
    rw [resourceExistsInCluster, exec_bind, exec_getPod, outcome]
    cases lookups.getPod details.ns details.pod with
    | found containers => cases hc : containers.contains details.container <;> simp
    | notFound => simp
    | failed msg => simp
  | pod =>
    rw [resourceExistsInCluster, exec_bind, exec_getPod, outcome]
    cases lookups.getPod details.ns details.pod <;> simp [ApiReply.outcome]
  | «namespace» =>
    rw [resourceExistsInCluster, exec_bind, exec_getNamespace, outcome]
    cases lookups.getNamespace details.ns <;> simp [ApiReply.outcome]

/-- Everything but a positive answer makes orphans. -/
theorem takenForOrphans_iff : takenForOrphans node lookups details level policy s = true ↔
    policy.retainOrphan = false ∧ outcome lookups details level ≠ .present := by
  have hexists := @resourceExistsInCluster_iff node lookups details level s
  unfold takenForOrphans orphaned
  rw [Ne, ← hexists]
  cases policy.retainOrphan with
  | true => simp
  | false =>
    rw [if_neg (by simp), exec_bind]
    simp

theorem takenForOrphans_congr (s t : FS) : takenForOrphans node lookups details level policy s
    = takenForOrphans node lookups details level policy t :=
  Bool.eq_iff_iff.mpr (takenForOrphans_iff.trans takenForOrphans_iff.symm)

end Outcomes

/-! ### What a pass owes -/

variable {visit : Level × Policy} {s : FS} {level : Level}

section Pass
variable (node : Node) (lookups : Level → Lookups) (policies : PolicySnapshot)
  (details : CheckpointDetails)

/-- The levels a pass gets to, each with the files it finds. -/
def levelStates : List (Level × Policy) → FS → List ((Level × Policy) × FS)
  | [], _ => []
  | visit :: rest, s =>
    let outcome := levelOutcome node (lookups visit.1) policies details visit.1 visit.2 s
    (visit, s) :: outcome.1.elim [] (fun _ => levelStates rest outcome.2)

/-- The level removes the file as an orphan. -/
def RemovedAsOrphan (visit : Level × Policy) (s : FS) (path : String) : Prop :=
  visit.2.active = true ∧
  takenForOrphans node (lookups visit.1) details visit.1 visit.2 s = true ∧ path ∈ s ∧
  path ∉ (exec (answer node (lookups visit.1))
    (deleteOrphans (filtered node policies details visit.1 s)) s).2

/-- Some failed lookups are replaced by the answer that the resource exists. -/
def Replaces (lookups' : Level → Lookups) : Prop :=
  ∀ level, lookups' level = lookups level ∨
    outcome (lookups level) details level = .failed ∧
    outcome (lookups' level) details level = .present

/-- Replacing failed lookups changes no survivor, and what is removed as an orphan was
    answered to be absent. -/
def LookupSafe (s : FS) : Prop :=
  (∀ lookups', Replaces lookups details lookups' → ∀ path,
    path ∈ pass node lookups' policies details (policies.visits details) s ↔
      path ∈ pass node lookups policies details (policies.visits details) s) ∧
  ∀ visit s', (visit, s') ∈ levelStates node lookups policies details (policies.visits details) s →
    ∀ path, RemovedAsOrphan node lookups policies details visit s' path →
      outcome (lookups visit.1) details visit.1 = .absent

/-- If the level's lookup fails where orphans are not retained, all the level is left with is
    pinned. -/
def FailsOnPinned (visit : Level × Policy) (s : FS) : Prop :=
  visit.2.active = true → visit.2.retainOrphan = false →
    outcome (lookups visit.1) details visit.1 = .failed →
    ∀ archive ∈ filtered node policies details visit.1 s, keepPath archive ∈ s

variable {node lookups policies details}

theorem removedAsOrphan_iff {path : String} :
    RemovedAsOrphan node lookups policies details visit s path ↔
      visit.2.active = true ∧
      takenForOrphans node (lookups visit.1) details visit.1 visit.2 s = true ∧
      path ∈ filtered node policies details visit.1 s ∧ keepPath path ∉ s := by
  have harch : ∀ archive ∈ filtered node policies details visit.1 s, IsArchive archive :=
    fun archive h => isArchive_of_mem_filtered node h
  unfold RemovedAsOrphan
  rw [mem_deleteOrphans node _ harch]
  refine and_congr_right (fun _ => and_congr_right (fun _ => ⟨?_, ?_⟩))
  · rintro ⟨hin, hout⟩
    have hlost : ¬ (path ∈ filtered node policies details visit.1 s → keepPath path ∈ s) :=
      fun h => hout ⟨hin, h⟩
    exact Classical.not_imp.mp hlost
  · rintro ⟨hfiltered, hkeep⟩
    have hin : path ∈ s := ((mem_filtered node).mp hfiltered).2.1
    exact ⟨hin, fun h => hkeep (h.2 hfiltered)⟩

/-- Orphans are removed on an answer only if failed lookups meet pinned archives only. -/
theorem answered_iff :
    (∀ path, RemovedAsOrphan node lookups policies details visit s path →
      outcome (lookups visit.1) details visit.1 = .absent) ↔
    FailsOnPinned node lookups policies details visit s := by
  constructor
  · intro h hactive hretain hfailed archive harchive
    by_contra hkeep
    have hpresent : outcome (lookups visit.1) details visit.1 ≠ .present := by simp [hfailed]
    have htaken : takenForOrphans node (lookups visit.1) details visit.1 visit.2 s = true :=
      takenForOrphans_iff.mpr ⟨hretain, hpresent⟩
    have habsent := h archive (removedAsOrphan_iff.mpr ⟨hactive, htaken, harchive, hkeep⟩)
    rw [hfailed] at habsent
    exact absurd habsent (by simp)
  · intro h path hremoved
    obtain ⟨hactive, htaken, hfiltered, hkeep⟩ := removedAsOrphan_iff.mp hremoved
    obtain ⟨hretain, hpresent⟩ := takenForOrphans_iff.mp htaken
    cases hout : outcome (lookups visit.1) details visit.1 with
    | present => exact absurd hout hpresent
    | absent => rfl
    | failed => exact absurd (h hactive hretain hout path hfiltered) hkeep

/-- Of pinned archives a level removes none, and it returns. -/
theorem levelOutcome_pinned {lookups : Lookups} {policy : Policy}
    (hpinned : ∀ archive ∈ filtered node policies details level s, keepPath archive ∈ s) :
    levelOutcome node lookups policies details level policy s = (some (), s) := by
  have hmarked : ∀ archive ∈ filtered node policies details level s, marked s archive = true :=
    fun archive ha => decide_eq_true (hpinned archive ha)
  have hremovals : levelRemovals node lookups policies details level policy s = [] := by
    refine List.eq_nil_iff_forall_not_mem.mpr (fun archive ha => ?_)
    obtain ⟨hmem, hmark⟩ := mem_levelRemovals ha
    rw [hmarked archive hmem] at hmark
    exact absurd hmark (by simp)
  have hreturns : ¬ levelPanics node lookups policies details level policy s = true := by
    intro hpanics
    have hboth := hpanics
    simp only [levelPanics, Bool.and_eq_true, Bool.not_eq_true'] at hboth
    have htwo := ((levelPanics_iff hboth.1.1 hboth.1.2).mp hpanics).2.2
    -- the second sort compares archives without a marker only
    have hnone : candidates policy s (filtered node policies details level s) = [] :=
      List.filter_eq_nil_iff.mpr (fun archive ha => by simp [hmarked archive ha])
    rw [hnone] at htwo
    exact absurd htwo (by simp)
  rw [levelOutcome_eq, hremovals, if_neg hreturns]
  rfl

/-- A level whose failed lookup meets pinned archives only ends as if it had not failed. -/
theorem levelOutcome_replaced {lookups' : Level → Lookups}
    (hreplaces : Replaces lookups details lookups')
    (h : FailsOnPinned node lookups policies details visit s) :
    levelOutcome node (lookups' visit.1) policies details visit.1 visit.2 s
      = levelOutcome node (lookups visit.1) policies details visit.1 visit.2 s := by
  rcases hreplaces visit.1 with heq | ⟨hfailed, hpresent⟩
  · rw [heq]
  cases hactive : visit.2.active with
  | false =>
    rw [levelOutcome_inactive _ _ _ _ _ hactive, levelOutcome_inactive _ _ _ _ _ hactive]
  | true =>
    cases hretain : visit.2.retainOrphan with
    | true =>
      -- no lookup is made: both enforce the limits
      have hno : ∀ lookups'' : Lookups,
          takenForOrphans node lookups'' details visit.1 visit.2 s = false := by
        intro lookups''
        rw [← Bool.not_eq_true, takenForOrphans_iff, hretain]
        simp
      rw [levelOutcome_eq, levelOutcome_eq]
      unfold levelPanics levelRemovals
      rw [hno, hno]
    | false =>
      -- one removes orphans, the other enforces the limits, and neither finds any to remove
      have hpinned := h hactive hretain hfailed
      rw [levelOutcome_pinned hpinned, levelOutcome_pinned hpinned]

theorem passOutcome_replaced {lookups' : Level → Lookups}
    (hreplaces : Replaces lookups details lookups') {visits : List (Level × Policy)}
    (h : ∀ visit s', (visit, s') ∈ levelStates node lookups policies details visits s →
      FailsOnPinned node lookups policies details visit s') :
    passOutcome node lookups' policies details visits s
      = passOutcome node lookups policies details visits s := by
  induction visits generalizing s with
  | nil => rfl
  | cons visit rest ih =>
    have hfirst := levelOutcome_replaced hreplaces (h visit s List.mem_cons_self)
    have hrest : ∀ visit' s', (visit', s') ∈ (levelOutcome node (lookups visit.1) policies details
        visit.1 visit.2 s).1.elim [] (fun _ => levelStates node lookups policies details rest
          (levelOutcome node (lookups visit.1) policies details visit.1 visit.2 s).2) →
        FailsOnPinned node lookups policies details visit' s' :=
      fun visit' s' hmem => h visit' s' (List.mem_cons_of_mem _ hmem)
    unfold passOutcome untilPanic
    rw [hfirst]
    cases hreturned :
        (levelOutcome node (lookups visit.1) policies details visit.1 visit.2 s).1 with
    | none => rfl
    | some _ =>
      rw [hreturned] at hrest
      exact ih hrest

end Pass

/-- **Failed lookups are harmless** exactly if, at every level of the pass where orphans are
    not retained, a lookup that fails finds pinned archives only. -/
theorem lookupSafe_iff (node : Node) (lookups : Level → Lookups) (policies : PolicySnapshot)
    (details : CheckpointDetails) (s : FS) :
    LookupSafe node lookups policies details s ↔
      ∀ visit s',
        (visit, s') ∈ levelStates node lookups policies details (policies.visits details) s →
        FailsOnPinned node lookups policies details visit s' := by
  constructor
  · rintro ⟨-, hanswered⟩ visit s' hmem
    exact answered_iff.mp (hanswered visit s' hmem)
  · intro h
    refine ⟨fun lookups' hreplaces path => ?_, fun visit s' hmem => ?_⟩
    · rw [pass, pass, passOutcome_replaced hreplaces h]
    · exact answered_iff.mpr (h visit s' hmem)

/-! ### An unreachable API server -/

/-- Orphans of one container are not retained; no limit is set for it. -/
def nginxPolicy : PolicySnapshot :=
  { dropOrphans with
    containerPolicies := [⟨⟨some false, none, none, none⟩, "default", "web", "nginx"⟩] }

/-- The API server cannot be reached. -/
def unreachable : Lookups where
  getPod _ _ := .failed "connect: connection refused"
  getNamespace _ := .failed "connect: connection refused"

/-- The API server answers, and the container runs. -/
def running : Lookups where
  getPod _ _ := .found ["nginx"]
  getNamespace _ := .found ()

/-- The same checkpoint survives the pass if its pod is found and is removed if the API server
    cannot be reached. -/
theorem failedLookup_removes :
    Replaces (fun _ => unreachable) webDetails (fun _ => running) ∧
    webArchive ∈ pass stableNode (fun _ => running) nginxPolicy webDetails
      (nginxPolicy.visits webDetails) webFiles ∧
    webArchive ∉ pass stableNode (fun _ => unreachable) nginxPolicy webDetails
      (nginxPolicy.visits webDetails) webFiles := by
  refine ⟨fun level => Or.inr ?_, by decide +kernel⟩
  cases level <;> decide

end CheckpointRestore.Retention
