import CheckpointRestore.Retention.Fixpoint

namespace CheckpointRestore.Retention

open Go Interaction Pinning Resource

/-!
# The order of the map

`applyPoliciesImmediately` ranges over a map, in an order that Go leaves open.  What one level
removes shrinks what later levels count, so the survivors can depend on that order.

* `Job` — a level of one identity, and `immediatelyOutcome_eq`: the passes are the jobs of the
  keys, one after the other;
* `Apart` — no job panics, and none with limits to enforce loses archives to a different job;
* `Apart.commute` — then any two jobs can change places;
* `survivors_order_irrelevant` — so every order leaves the same survivors;
* `survivors_depend_on_order` — two checkpoints of one pod and one of another, of which either
  one or two survive.
-/

/-! ### Jobs -/

/-- A level of one identity, with the policy it is handled under. -/
structure Job where
  details : CheckpointDetails
  visit : Level × Policy
  deriving DecidableEq

variable {path : String}

section Jobs
variable (node : Node) (lookups : Lookups) (policies : PolicySnapshot)

namespace Job

/-- Handle the level. -/
def outcome (job : Job) (s : FS) : Option Unit × FS :=
  levelOutcome node lookups policies job.details job.visit.1 job.visit.2 s

/-- The files the level leaves. -/
def run (s : FS) (job : Job) : FS := (job.outcome node lookups policies s).2

/-- The archives the level is left with. -/
def archives (s : FS) (job : Job) : List String :=
  filtered node policies job.details job.visit.1 s

/-- The archives the level removes. -/
def removals (s : FS) (job : Job) : List String :=
  levelRemovals node lookups policies job.details job.visit.1 job.visit.2 s

/-- Does the level take its archives for orphans? -/
def orphans (s : FS) (job : Job) : Bool :=
  takenForOrphans node lookups job.details job.visit.1 job.visit.2 s

/-- The jobs do the same: they list the same pattern at the same level, under the same policy
    and with the same answer of the API server. -/
def Same (s : FS) (job other : Job) : Prop :=
  levelPattern policies job.details job.visit.1
      = levelPattern policies other.details other.visit.1 ∧
    job.visit = other.visit ∧ job.orphans node lookups s = other.orphans node lookups s

end Job

/-- The jobs of a key of the map. -/
def jobsOf (entries : AList (fun _ : String => CheckpointDetails)) (key : String) : List Job :=
  match entries.lookup key with
  | some details => (policies.visits details).map (Job.mk details)
  | none => []

/-- The passes are the jobs of the keys, one after the other. -/
theorem immediatelyOutcome_eq (order : List String) (s : FS) :
    immediatelyOutcome node lookups policies order s
      = untilPanic (Job.outcome node lookups policies)
        (order.flatMap (jobsOf policies (categorized node policies s))) s := by
  rw [untilPanic_flatMap]
  unfold immediatelyOutcome
  congr 1
  funext key t
  unfold visitEntry jobsOf
  cases (categorized node policies s).lookup key with
  | none => rfl
  | some details =>
    exact (untilPanic_map (Job.outcome node lookups policies) (Job.mk details)
      (policies.visits details) t).symm

/-- The jobs, one after the other. -/
def runJobs (jobs : List Job) (s : FS) : FS := jobs.foldl (Job.run node lookups policies) s

/-- The directory is one that some of the jobs lead to. -/
def Reached (jobs : List Job) (s t : FS) : Prop :=
  ∃ done ⊆ jobs, t = runJobs node lookups policies done s

/-- **No job loses archives to a different one.**  On the directories that jobs lead to no job
    panics; and if a job that enforces limits removes something from one of them, then from none
    of them does a job that does something else remove any of its archives. -/
structure Apart (jobs : List Job) (s : FS) : Prop where
  returns : ∀ t, Reached node lookups policies jobs s t → ∀ job ∈ jobs,
    (job.outcome node lookups policies t).1 = some ()
  keeps : ∀ other ∈ jobs, other.orphans node lookups s = false →
    (∃ t, Reached node lookups policies jobs s t ∧ other.removals node lookups policies t ≠ []) →
    ∀ job ∈ jobs, ¬ job.Same node lookups policies s other →
    ∀ t, Reached node lookups policies jobs s t →
    ∀ archive ∈ job.removals node lookups policies t, archive ∉ other.archives node policies t

variable {node lookups policies} {s t u : FS} {job other : Job} {jobs jobs' : List Job}

/-! ### One job -/

theorem orphans_congr (s t : FS) : job.orphans node lookups s = job.orphans node lookups t :=
  takenForOrphans_congr s t

theorem pruned_run : Pruned t (job.run node lookups policies t) := pruned_handleLevel

theorem mem_run : path ∈ job.run node lookups policies t ↔
    path ∈ t ∧ path ∉ job.removals node lookups policies t := mem_handleLevel

theorem mem_of_mem_removals (h : path ∈ job.removals node lookups policies t) :
    path ∈ t := ((mem_filtered node).mp (mem_levelRemovals h).1).2.1

/-- What a job removes is gone, and the rest is as it was. -/
theorem lookup_run (path : String) : (job.run node lookups policies t).lookup path
    = if path ∈ job.removals node lookups policies t then none else t.lookup path := by
  split_ifs with hgone
  · exact AList.lookup_eq_none.mpr (fun hmem => (mem_run.mp hmem).2 hgone)
  · by_cases hin : path ∈ t
    · exact pruned_run.lookup path (mem_run.mpr ⟨hin, hgone⟩)
    · rw [AList.lookup_eq_none.mpr hin, AList.lookup_eq_none.mpr (fun h => hin (mem_run.mp h).1)]

/-- Jobs that do the same are the same function. -/
theorem Job.Same.run (h : job.Same node lookups policies s other) (t : FS) :
    job.run node lookups policies t = other.run node lookups policies t := by
  obtain ⟨hpattern, hvisit, horphans⟩ := h
  have hfiltered : job.archives node policies t = other.archives node policies t := by
    unfold Job.archives filtered
    rw [hpattern, hvisit]
  rw [orphans_congr s t, orphans_congr s t] at horphans
  unfold Job.orphans at horphans
  unfold Job.archives at hfiltered
  show handleLevel _ _ _ _ _ _ _ = handleLevel _ _ _ _ _ _ _
  rw [handleLevel_eq, handleLevel_eq]
  unfold levelRemovals
  rw [hfiltered, horphans, hvisit]

/-- With its archives untouched, a job removes what it would have removed before. -/
theorem removals_of_untouched (hsort : LocalSort node) (hpruned : Pruned s t)
    (huntouched : ∀ archive ∈ job.archives node policies s, archive ∈ t) :
    job.removals node lookups policies t = job.removals node lookups policies s := by
  set archives := filtered node policies job.details job.visit.1 s with harchives
  have hfiltered : filtered node policies job.details job.visit.1 t = archives := by
    refine filtered_unique _ _ _ _ (filtered_pairwise _ _ _ _ s) (filtered_nodup _ _ _ _ s)
      (fun archive => ?_)
    rw [mem_filtered_pruned node policies job.details job.visit.1 hpruned]
    exact ⟨fun ha => ⟨ha, huntouched archive ha⟩, fun h => h.1⟩
  have hagree : Agree archives t s := hpruned.agree huntouched
  have harch : ∀ archive ∈ archives, IsArchive archive :=
    fun archive ha => isArchive_of_mem_filtered node ha
  unfold Job.removals levelRemovals
  rw [takenForOrphans_congr t s, hfiltered, ← harchives]
  dsimp only
  rw [limitRemovals_congr hsort harch hagree,
    List.filter_congr (fun archive ha => by rw [hagree.marked ha])]

/-- On the orphan path a job removes what is left of what it would have removed. -/
theorem mem_removals_of_orphans (hpruned : Pruned s t)
    (horphans : job.orphans node lookups s = true) (hpath : path ∈ t) :
    path ∈ job.removals node lookups policies t ↔ path ∈ job.removals node lookups policies s := by
  have hmarked : marked t path = marked s path := decide_eq_decide.mpr (hpruned.marker path)
  unfold Job.orphans at horphans
  unfold Job.removals levelRemovals
  rw [takenForOrphans_congr t s, horphans]
  cases job.visit.2.active with
  | true =>
    show path ∈ List.filter _ _ ↔ path ∈ List.filter _ _
    rw [List.mem_filter, List.mem_filter,
      mem_filtered_pruned node policies job.details job.visit.1 hpruned, hmarked]
    tauto
  | false => exact Iff.rfl

/-! ### Directories with the same files -/

/-- The directories have the same files. -/
def Alike (t u : FS) : Prop := ∀ path, t.lookup path = u.lookup path

theorem Alike.mem_iff (h : Alike t u) (path : String) : path ∈ t ↔ path ∈ u := by
  rw [← AList.lookup_isSome, h path, AList.lookup_isSome]

/-- They stay alike. -/
theorem Alike.run (hsort : LocalSort node) (h : Alike t u) (job : Job) :
    Alike (job.run node lookups policies t) (job.run node lookups policies u) := by
  have hpruned : Pruned u t :=
    ⟨fun path => (h.mem_iff path).mp, fun path _ => h path, fun path => h.mem_iff _⟩
  have hsame : job.removals node lookups policies t = job.removals node lookups policies u :=
    removals_of_untouched hsort hpruned
      (fun archive ha => (h.mem_iff archive).mpr ((mem_filtered node).mp ha).2.1)
  intro path
  rw [lookup_run, lookup_run, hsame, h path]

theorem Alike.runJobs (hsort : LocalSort node) (h : Alike t u) (jobs : List Job) :
    Alike (runJobs node lookups policies jobs t) (runJobs node lookups policies jobs u) := by
  induction jobs generalizing t u with
  | nil => exact h
  | cons job rest ih => exact ih (h.run hsort job)

/-! ### Jobs that change places -/

theorem Reached.run (h : Reached node lookups policies jobs s t) (hjob : job ∈ jobs) :
    Reached node lookups policies jobs s (job.run node lookups policies t) := by
  obtain ⟨done, hdone, rfl⟩ := h
  refine ⟨done ++ [job], ?_, ?_⟩
  · exact List.append_subset.mpr ⟨hdone, List.cons_subset.mpr ⟨hjob, List.nil_subset _⟩⟩
  · unfold Retention.runJobs
    rw [List.foldl_append]
    rfl

section Apart
variable (hsort : LocalSort node) (hapart : Apart node lookups policies jobs s)
include hsort hapart

/-- What a job removes does not depend on a different one before it, except for what that one has
    removed. -/
theorem Apart.mem_removals (hjob : job ∈ jobs) (hother : other ∈ jobs)
    (hdiffer : ¬ job.Same node lookups policies s other)
    (hreached : Reached node lookups policies jobs s t) (path : String)
    (hkept : path ∉ job.removals node lookups policies t) :
    path ∈ other.removals node lookups policies (job.run node lookups policies t) ↔
      path ∈ other.removals node lookups policies t := by
  cases horphans : other.orphans node lookups s with
  | true =>
    rw [orphans_congr s t] at horphans
    by_cases hin : path ∈ t
    · exact mem_removals_of_orphans pruned_run horphans (mem_run.mpr ⟨hin, hkept⟩)
    · exact iff_of_false (fun h => hin (mem_run.mp (mem_of_mem_removals h)).1)
        (fun h => hin (mem_of_mem_removals h))
  | false =>
    by_cases hremoves : ∃ t, Reached node lookups policies jobs s t ∧
        other.removals node lookups policies t ≠ []
    · -- the first job has taken none of its archives
      have huntouched : ∀ archive ∈ other.archives node policies t,
          archive ∈ job.run node lookups policies t := by
        intro archive harchive
        refine mem_run.mpr ⟨((mem_filtered node).mp harchive).2.1, fun hrem => ?_⟩
        exact hapart.keeps other hother horphans hremoves job hjob hdiffer t hreached archive hrem
          harchive
      rw [removals_of_untouched hsort pruned_run huntouched]
    · -- it never removes anything
      have hnever : ∀ t, Reached node lookups policies jobs s t →
          other.removals node lookups policies t = [] := by
        intro t ht
        by_contra hne
        exact hremoves ⟨t, ht, hne⟩
      rw [hnever t hreached, hnever _ (hreached.run hjob)]

/-- **Two jobs can change places.** -/
theorem Apart.commute (hjob : job ∈ jobs) (hother : other ∈ jobs)
    (hreached : Reached node lookups policies jobs s t) :
    Alike (other.run node lookups policies (job.run node lookups policies t))
      (job.run node lookups policies (other.run node lookups policies t)) := by
  by_cases hsame : job.Same node lookups policies s other
  · rw [hsame.run, hsame.run]
    exact fun path => rfl
  · have hsame' : ¬ other.Same node lookups policies s job :=
      fun h => hsame ⟨h.1.symm, h.2.1.symm, h.2.2.symm⟩
    intro path
    rw [lookup_run, lookup_run, lookup_run, lookup_run]
    -- the path is gone if one of the jobs, on its own, removes it
    have hfirst := hapart.mem_removals hsort hjob hother hsame hreached path
    have hsecond := hapart.mem_removals hsort hother hjob hsame' hreached path
    by_cases h : path ∈ job.removals node lookups policies t <;>
      by_cases h' : path ∈ other.removals node lookups policies t <;>
      simp_all

/-- Any order of the jobs leads to the same files. -/
theorem Apart.runJobs_perm (hperm : jobs'.Perm jobs) :
    Alike (runJobs node lookups policies jobs' s) (runJobs node lookups policies jobs s) := by
  have hgeneral : ∀ {xs ys : List Job}, xs.Perm ys → xs ⊆ jobs → ∀ t,
      Reached node lookups policies jobs s t →
      Alike (runJobs node lookups policies xs t) (runJobs node lookups policies ys t) := by
    intro xs ys h
    induction h with
    | nil => exact fun _ t _ path => rfl
    | cons job _ ih =>
      intro hsub t ht
      obtain ⟨hjob, hrest⟩ := List.cons_subset.mp hsub
      exact ih hrest _ (ht.run hjob)
    | swap job other rest =>
      intro hsub t ht
      obtain ⟨hother, hsub⟩ := List.cons_subset.mp hsub
      exact (hapart.commute hsort hother (List.cons_subset.mp hsub).1 ht).runJobs hsort rest
    | trans h₁ _ ih₁ ih₂ =>
      intro hsub t ht path
      have hsub' := List.Subset.trans h₁.symm.subset hsub
      exact (ih₁ hsub t ht path).trans (ih₂ hsub' t ht path)
  exact hgeneral hperm hperm.subset s ⟨[], List.nil_subset _, rfl⟩

omit hsort in
/-- None of them panics. -/
theorem Apart.untilPanic_eq (hperm : jobs'.Perm jobs) :
    untilPanic (Job.outcome node lookups policies) jobs' s
      = (some (), runJobs node lookups policies jobs' s) := by
  refine untilPanic_eq_foldl (I := Reached node lookups policies jobs s) (fun job hjob t ht => ?_)
    ⟨[], List.nil_subset _, rfl⟩
  have hmem := hperm.subset hjob
  exact ⟨hapart.returns t ht job hmem, ht.run hmem⟩

end Apart

variable (node policies s) in
/-- All jobs of the map. -/
def allJobs : List Job :=
  (categorized node policies s).keys.flatMap (jobsOf policies (categorized node policies s))

/-- **Survivors do not depend on the order** in which the map is visited, if its jobs keep
    apart. -/
theorem survivors_order_irrelevant (hsort : LocalSort node)
    (hapart : Apart node lookups policies (allJobs node policies s) s)
    {order order' : List String} (horder : order.Perm (categorized node policies s).keys)
    (horder' : order'.Perm (categorized node policies s).keys) (path : String) :
    path ∈ immediately node lookups policies order s ↔
      path ∈ immediately node lookups policies order' s := by
  have hsurvives : ∀ order, order.Perm (categorized node policies s).keys →
      (path ∈ immediately node lookups policies order s ↔
        path ∈ runJobs node lookups policies (allJobs node policies s) s) := by
    intro order horder
    have hperm : (order.flatMap (jobsOf policies (categorized node policies s))).Perm
        (allJobs node policies s) := horder.flatMap_right _
    rw [immediately, immediatelyOutcome_eq, hapart.untilPanic_eq hperm]
    exact (hapart.runJobs_perm hsort hperm).mem_iff path
  rw [hsurvives order horder, hsurvives order' horder']

end Jobs

/-! ### One checkpoint of a pod and two of another -/

/-- Two pods of one namespace. -/
def podA : CheckpointDetails := ⟨"default", "a", "app"⟩

@[inherit_doc podA]
def podB : CheckpointDetails := ⟨"default", "b", "app"⟩

/-- The checkpoint of the first, the oldest of the three. -/
def archiveA : String := "/ckpt/checkpoint-a_default-app-2026-01-01T00:00:00Z.tar"

/-- The checkpoints of the second. -/
def archiveB : String := "/ckpt/checkpoint-b_default-app-2026-01-02T00:00:00Z.tar"

@[inherit_doc archiveB]
def archiveB' : String := "/ckpt/checkpoint-b_default-app-2026-01-03T00:00:00Z.tar"

/-- The directory with the three of them. -/
def threeFiles : FS :=
  (((∅ : FS).put archiveB' (.tar 10240 (containerdArchive podB "")) 2).put archiveB
    (.tar 10240 (containerdArchive podB "")) 1).put archiveA
    (.tar 10240 (containerdArchive podA "")) 0

/-- One checkpoint for each pod and `n` for each namespace. -/
def oneEach (n : ℤ) : PolicySnapshot :=
  { dropOrphans with
    retainOrphan := true
    maxCheckpointsPerContainer := 0
    maxCheckpointsPerPod := 1
    maxCheckpointsPerNamespace := n }

/-- The limits of the pod level. -/
def podLimits : Policy := ⟨true, 1, .new (2 ^ 30), .new (2 ^ 40)⟩

/-- The directory without the older checkpoint of the second pod. -/
def twoFiles : FS := unlinkAll [archiveB] threeFiles

/-- An insertion sort compares elements of the list only. -/
theorem localSort_stableNode : LocalSort stableNode := by
  intro less less' archives h
  have hinsert : ∀ a ∈ archives, ∀ l ⊆ archives,
      l.orderedInsert (fun a b => less b a = false) a
        = l.orderedInsert (fun a b => less' b a = false) a := by
    intro a ha l hl
    induction l with
    | nil => rfl
    | cons b rest ih =>
      obtain ⟨hb, hrest⟩ := List.cons_subset.mp hl
      simp only [List.orderedInsert, h b hb a ha, ih hrest]
  have hsort : ∀ l ⊆ archives, l.insertionSort (fun a b => less b a = false)
      = l.insertionSort (fun a b => less' b a = false) := by
    intro l hl
    induction l with
    | nil => rfl
    | cons a rest ih =>
      obtain ⟨ha, hrest⟩ := List.cons_subset.mp hl
      have hperm := List.perm_insertionSort (fun a b => less' b a = false) rest
      rw [List.insertionSort_cons, List.insertionSort_cons, ih hrest,
        hinsert a ha _ (List.Subset.trans hperm.subset hrest)]
  exact hsort archives (List.Subset.refl _)

/-- With no limit for the namespace every level returns and stays within the two directories, and
    only the level of the second pod removes anything. -/
theorem jobs_threeFiles : ∀ job ∈ allJobs stableNode (oneEach 0) threeFiles,
    ∀ t ∈ [threeFiles, twoFiles], (job.outcome stableNode running (oneEach 0) t).1 = some () ∧
      (job.run stableNode running (oneEach 0) t).entries
        ∈ [threeFiles.entries, twoFiles.entries] ∧
      (job.removals stableNode running (oneEach 0) t ≠ [] →
        job = ⟨podB, .pod, podLimits⟩) := by
  decide +kernel

/-- The levels lead to no other directory. -/
theorem reached_threeFiles {t : FS} (h : Reached stableNode running (oneEach 0)
    (allJobs stableNode (oneEach 0) threeFiles) threeFiles t) : t ∈ [threeFiles, twoFiles] := by
  obtain ⟨done, hdone, rfl⟩ := h
  suffices hstays : ∀ s ∈ [threeFiles, twoFiles],
      runJobs stableNode running (oneEach 0) done s ∈ [threeFiles, twoFiles] from
    hstays _ List.mem_cons_self
  induction done with
  | nil => exact fun s hs => hs
  | cons job rest ih =>
    intro s hs
    obtain ⟨hjob, hrest⟩ := List.cons_subset.mp hdone
    refine ih hrest _ ?_
    have hentries := (jobs_threeFiles job hjob s hs).2.1
    simp only [List.mem_cons, List.not_mem_nil, or_false] at hentries ⊢
    exact hentries.imp AList.ext AList.ext

/-- So the levels keep apart. -/
theorem apart_threeFiles :
    Apart stableNode running (oneEach 0) (allJobs stableNode (oneEach 0) threeFiles)
      threeFiles := by
  refine ⟨fun t ht job hjob => (jobs_threeFiles job hjob t (reached_threeFiles ht)).1, ?_⟩
  rintro other hother - ⟨t, ht, hne⟩ job hjob hsame t' ht' archive harchive
  have hjob' := (jobs_threeFiles job hjob t' (reached_threeFiles ht')).2.2
    (List.ne_nil_of_mem harchive)
  have hother' := (jobs_threeFiles other hother t (reached_threeFiles ht)).2.2 hne
  exact absurd ⟨by rw [hjob', hother'], by rw [hjob', hother'], by rw [hjob', hother']⟩ hsame

/-- Both orders leave the same survivors. -/
theorem survivors_order_irrelevant_oneEach :
    LocalSort stableNode ∧
    Apart stableNode running (oneEach 0) (allJobs stableNode (oneEach 0) threeFiles)
      threeFiles ∧
    (archiveB' ∈ immediately stableNode running (oneEach 0) [entryKey podA, entryKey podB]
        threeFiles ↔
      archiveB' ∈ immediately stableNode running (oneEach 0) [entryKey podB, entryKey podA]
        threeFiles) := by
  have hkeys : (categorized stableNode (oneEach 0) threeFiles).keys
      = [entryKey podB, entryKey podA] := by decide +kernel
  refine ⟨localSort_stableNode, apart_threeFiles,
    survivors_order_irrelevant localSort_stableNode apart_threeFiles ?_ ?_ archiveB'⟩
  · rw [hkeys]
    exact List.Perm.swap _ _ _
  · rw [hkeys]

/-- **The survivors depend on the order.**  With one checkpoint for each pod and two for each
    namespace, the checkpoint of the first pod survives if the second pod is visited first, and
    is removed as the oldest of three if it is visited before it. -/
theorem survivors_depend_on_order :
    ∃ order order', order.Perm (categorized stableNode (oneEach 2) threeFiles).keys ∧
      order'.Perm (categorized stableNode (oneEach 2) threeFiles).keys ∧
      archiveA ∈ immediately stableNode running (oneEach 2) order threeFiles ∧
      archiveA ∉ immediately stableNode running (oneEach 2) order' threeFiles := by
  -- visited first, the second pod loses its older checkpoint, and the namespace has two left;
  -- visited second, it finds the oldest of the three gone
  have hruns : (categorized stableNode (oneEach 2) threeFiles).keys
        = [entryKey podB, entryKey podA] ∧
      archiveA ∈ immediately stableNode running (oneEach 2) [entryKey podB, entryKey podA]
        threeFiles ∧
      archiveA ∉ immediately stableNode running (oneEach 2) [entryKey podA, entryKey podB]
        threeFiles := by
    decide +kernel
  rw [hruns.1]
  exact ⟨_, _, List.Perm.refl _, List.Perm.swap _ _ _, hruns.2⟩

end CheckpointRestore.Retention
