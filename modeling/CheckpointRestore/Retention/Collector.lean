import CheckpointRestore.Retention.Level

namespace CheckpointRestore.Retention

open Go Interaction Pinning

/-!
# The garbage collector — its runs, and what they unlink

The three ways the collector is run, and what holds of every file it unlinks in any
interleaving of such runs with pins and unpins, while anything else may happen to the
directory between two steps.

* `applyPolicies`, `applyPoliciesImmediately`, `handlePodDeleted` — the runs;
* `Selected` — the archive came from the list of the level's pattern and was read
  successfully when that list was filtered;
* `gcRun_issued` — a run removes only archives it has selected, and never pins or unpins;
* `gc_unlinks_selected` — in the concurrent world, with the marker checked at the instant of
  the unlink.
-/

/-! ### The runs -/

/-- `policySnapshot.applyPolicies`. -/
def PolicySnapshot.applyPolicies (policies : PolicySnapshot) (details : CheckpointDetails) :
    OptionT (Prog gcSig) Unit :=
  (policies.visits details).forM
    (fun visit => handleCheckpointsForLevel policies details visit.1 visit.2)

/-- `applyPolicies`. -/
def applyPolicies (details : CheckpointDetails) : OptionT (Prog gcSig) Unit := do
  let policies ← Gc.currentPolicySnapshot
  policies.applyPolicies details

/-- One round of `categorizeCheckpoints`. -/
def categorizeCheckpoint (categorized : AList (fun _ : String => CheckpointDetails))
    (checkpointFile : String) : Prog gcSig (AList (fun _ : String => CheckpointDetails)) := do
  match ← Gc.readRef checkpointFile with
  | .error _ => return categorized
  | .ok details =>
    let key := details.ns ++ "/" ++ details.pod ++ "/" ++ details.container
    return categorized.insert key details

/-- `categorizeCheckpoints`. -/
def categorizeCheckpoints (checkpointFiles : List String) :
    Prog gcSig (AList (fun _ : String => CheckpointDetails)) :=
  checkpointFiles.foldlM categorizeCheckpoint ∅

/-- `applyPoliciesImmediately`. -/
def applyPoliciesImmediately (policies : PolicySnapshot) : OptionT (Prog gcSig) Unit := do
  match ← liftM (n := OptionT (Prog gcSig)) (Gc.glob (allPattern policies)) with
  | none => return ()
  | some checkpointFiles =>
    if checkpointFiles.isEmpty then return ()
    else
      let categorized ← categorizeCheckpoints checkpointFiles
      let keys ← Gc.rangeMap categorized.keys
      keys.forM (fun key => match categorized.lookup key with
        | some details => policies.applyPolicies details
        | none => return ())

/-- `handlePodDeleted`. -/
def handlePodDeleted (ns pod : String) (containers : List String) : OptionT (Prog gcSig) Unit :=
  containers.forM (fun container => applyPolicies ⟨ns, pod, container⟩)

/-- A goroutine, which ends with a panic or by returning. -/
def goroutine (body : OptionT (Prog gcSig) Unit) : Prog gcSig Unit := do
  let _ ← body.run
  return ()

/-- A run of the collector. -/
inductive GcRun : Prog gcSig Unit → Prop
  | applyPolicies (details : CheckpointDetails) : GcRun (goroutine (applyPolicies details))
  | applyPoliciesImmediately (policies : PolicySnapshot) :
      GcRun (goroutine (applyPoliciesImmediately policies))
  | handlePodDeleted (ns pod : String) (containers : List String) :
      GcRun (goroutine (handlePodDeleted ns pod containers))

/-! ### What a run issues -/

/-- The operations that list a directory. -/
def GcOp.lists : gcSig.Op → Prop
  | .glob _ => True
  | _ => False

/-- The level's pattern was listed, as the last listing, and `tr₂` is what followed. -/
def Listed (policies : PolicySnapshot) (details : CheckpointDetails) (level : Level)
    (found : List String) (tr₂ tr : List (Event gcSig)) : Prop :=
  (∃ tr₁, tr = tr₁ ++ ⟨GcOp.glob (levelPattern policies details level), some found⟩ :: tr₂) ∧
  ∀ e ∈ tr₂, ¬ GcOp.lists e.op

/-- The archive is in the list of the level's pattern and matches it; its identity was read
    from then on, and no more specific policy governs it. -/
def Selected (tr : List (Event gcSig)) (archive : String) : Prop :=
  ∃ policies details level found tr₂ ref, Listed policies details level found tr₂ tr ∧
    archive ∈ found ∧
    Filepath.globMatch (levelPattern policies details level) archive = true ∧
    ⟨GcOp.readRef archive, .ok ref⟩ ∈ tr₂ ∧ policies.excluded level ref = false

/-- When a run may issue an operation. -/
def GcIssued (tr : List (Event gcSig)) : gcSig.Op → Prop
  | .removeUnlessPinned archive => Selected tr archive
  | .pin _ _ => False
  | .unpin _ _ => False
  | _ => True

/-- Sorting permutes, and listings match their pattern. -/
def Answers : Event gcSig → Prop
  | ⟨.sortSlice archives, reply⟩ => ∀ sorted : List String, reply = some sorted →
      sorted.Perm archives
  | ⟨.glob pattern, reply⟩ => ∀ found : List String, reply = some found →
      ∀ archive ∈ found, Filepath.globMatch pattern archive = true
  | _ => True

variable {tr : List (Event gcSig)} {e : Event gcSig}

theorem Listed.snoc {policies : PolicySnapshot} {details : CheckpointDetails} {level : Level}
    {found : List String} {tr₂ : List (Event gcSig)}
    (h : Listed policies details level found tr₂ tr) (he : ¬ GcOp.lists e.op) :
    Listed policies details level found (tr₂ ++ [e]) (tr ++ [e]) := by
  obtain ⟨⟨tr₁, rfl⟩, hno⟩ := h
  refine ⟨⟨tr₁, by simp⟩, fun e' he' => ?_⟩
  rcases List.mem_append.mp he' with he' | he'
  · exact hno e' he'
  · rwa [List.mem_singleton.mp he']

/-- Later operations other than a listing leave an archive selected. -/
theorem Selected.snoc {archive : String} (h : Selected tr archive) (he : ¬ GcOp.lists e.op) :
    Selected (tr ++ [e]) archive := by
  obtain ⟨policies, details, level, found, tr₂, ref, hlisted, hmem, hmatch, hread, hex⟩ := h
  exact ⟨policies, details, level, found, tr₂ ++ [e], ref, hlisted.snoc he, hmem, hmatch,
    List.mem_append_left _ hread, hex⟩

theorem not_lists_of_looks {op : gcSig.Op} (h : GcOp.looks op) : ¬ GcOp.lists op := by
  cases op <;> first | exact absurd h id | exact id

/-- Selected archives stay selected while the rest of the level runs. -/
theorem keeps_selected (L : List String) :
    Keeps (traceContract GcIssued Answers) L (fun tr => ∀ a ∈ L, Selected tr a) where
  looks op tr hop hL := by
    refine ⟨?_, ?_⟩
    · show GcIssued tr op
      cases op <;> first | exact absurd hop id | exact trivial
    · rintro r tr' ⟨-, rfl⟩ a ha
      exact (hL a ha).snoc (not_lists_of_looks hop)
  sort archives tr hL := by
    refine ⟨trivial, ?_⟩
    rintro sorted tr' ⟨hperm, rfl⟩
    exact ⟨hperm, fun a ha => (hL a ha).snoc id⟩
  remove archive ha tr hL := by
    refine ⟨hL archive ha, ?_⟩
    rintro r tr' ⟨-, rfl⟩ a ha'
    exact (hL a ha').snoc id

section Filter
variable {policies : PolicySnapshot} {details : CheckpointDetails} {level : Level}
  {found : List String}

/-- What the filter has let through so far: listed, read, and not excluded. -/
def FilteredFrom (policies : PolicySnapshot) (details : CheckpointDetails) (level : Level)
    (found filtered : List String) (tr : List (Event gcSig)) : Prop :=
  ∃ tr₂, Listed policies details level found tr₂ tr ∧ ∀ archive ∈ filtered, archive ∈ found ∧
    ∃ ref, ⟨GcOp.readRef archive, .ok ref⟩ ∈ tr₂ ∧ policies.excluded level ref = false

theorem FilteredFrom.snoc {filtered : List String}
    (h : FilteredFrom policies details level found filtered tr) (he : ¬ GcOp.lists e.op) :
    FilteredFrom policies details level found filtered (tr ++ [e]) := by
  obtain ⟨tr₂, hlisted, hall⟩ := h
  refine ⟨tr₂ ++ [e], hlisted.snoc he, fun archive ha => ?_⟩
  obtain ⟨hfound, ref, hread, hex⟩ := hall archive ha
  exact ⟨hfound, ref, List.mem_append_left _ hread, hex⟩

/-- One round of the filter. -/
theorem wp_filterArchive {filtered : List String} {archive : String} (ha : archive ∈ found)
    (h : FilteredFrom policies details level found filtered tr) :
    wp (traceContract GcIssued Answers) (filterArchive policies level filtered archive)
      (FilteredFrom policies details level found) tr := by
  unfold filterArchive
  rw [wp_bind]
  refine ⟨trivial, ?_⟩
  rintro reply tr' ⟨-, rfl⟩
  have hskip := h.snoc (e := ⟨GcOp.readRef archive, reply⟩) id
  cases reply with
  | error err => exact hskip
  | ok ref =>
    show wp _ (if policies.excluded level ref then pure filtered
      else pure (filtered ++ [archive])) _ _
    split_ifs with hex
    · exact hskip
    · -- the archive is let through: its own read is the last event
      obtain ⟨tr₂, hlisted, hall⟩ := h
      refine ⟨tr₂ ++ [⟨GcOp.readRef archive, .ok ref⟩], hlisted.snoc id, fun a ha' => ?_⟩
      rcases List.mem_append.mp ha' with ha' | ha'
      · obtain ⟨hfound, ref', hread, hex'⟩ := hall a ha'
        exact ⟨hfound, ref', List.mem_append_left _ hread, hex'⟩
      · obtain rfl := List.mem_singleton.mp ha'
        exact ⟨ha, ref, by simp, Bool.eq_false_iff.mpr hex⟩

end Filter

/-- A level removes only archives it has selected. -/
theorem wp_handleCheckpointsForLevel (policies : PolicySnapshot) (details : CheckpointDetails)
    (level : Level) (policy : Policy) (tr : List (Event gcSig)) :
    wp (traceContract GcIssued Answers)
      (handleCheckpointsForLevel policies details level policy).run (fun _ _ => True) tr := by
  unfold handleCheckpointsForLevel
  split_ifs with hactive
  · rw [wp_bind_panic, wp_lift]
    refine ⟨trivial, ?_⟩
    rintro reply tr' ⟨hmatch, rfl⟩
    cases reply with
    | none => exact trivial
    | some found =>
      have hstart : FilteredFrom policies details level found []
          (tr ++ [⟨GcOp.glob (levelPattern policies details level), some found⟩]) :=
        ⟨[], ⟨⟨tr, rfl⟩, fun _ he => absurd he (by simp)⟩, fun _ ha => absurd ha (by simp)⟩
      show wp _ (monadLift (filterArchives policies level found) >>= _ :
        OptionT (Prog gcSig) Unit).run _ _
      rw [wp_bind_panic, wp_lift]
      refine wp_mono ?_ (wp_foldlM (fun filtered tr archive ha h => wp_filterArchive ha h) hstart)
      rintro filtered tr' ⟨tr₂, hlisted, hall⟩
      refine wp_mono (fun _ _ _ => trivial) ((keeps_selected filtered).wp_handleFiltered details
        level policy (List.Subset.refl _) (fun archive ha => ?_))
      obtain ⟨hfound, ref, hread, hex⟩ := hall archive ha
      exact ⟨policies, details, level, found, tr₂, ref, hlisted, hfound,
        hmatch found rfl archive hfound, hread, hex⟩
  · exact trivial

theorem wp_applyPolicies (policies : PolicySnapshot) (details : CheckpointDetails)
    (tr : List (Event gcSig)) :
    wp (traceContract GcIssued Answers) (policies.applyPolicies details).run
      (fun _ _ => True) tr :=
  wp_forM_panic (I := fun _ => True)
    (fun tr visit _ _ => wp_handleCheckpointsForLevel policies details visit.1 visit.2 tr) trivial

/-- **A run removes only what it has selected**, and it never pins or unpins. -/
theorem gcRun_issued {p : Prog gcSig Unit} (h : GcRun p) :
    wp (traceContract GcIssued Answers) p (fun _ _ => True) [] := by
  -- every policy is applied to a fresh snapshot
  have happly : ∀ details tr,
      wp (traceContract GcIssued Answers) (applyPolicies details).run (fun _ _ => True) tr :=
    fun details tr => ⟨trivial, fun policies tr' _ => wp_applyPolicies policies details tr'⟩
  have hgo : ∀ {body : OptionT (Prog gcSig) Unit},
      wp (traceContract GcIssued Answers) body.run (fun _ _ => True) [] →
      wp (traceContract GcIssued Answers) (goroutine body) (fun _ _ => True) [] :=
    fun hbody => (wp_bind _ _ _ _).mpr (wp_mono (fun _ _ _ => trivial) hbody)
  cases h with
  | applyPolicies details => exact hgo (happly details [])
  | handlePodDeleted ns pod containers =>
    exact hgo (wp_forM_panic (I := fun _ => True) (fun tr container _ _ => happly _ tr) trivial)
  | applyPoliciesImmediately policies =>
    refine hgo ?_
    unfold applyPoliciesImmediately
    rw [wp_bind_panic, wp_lift]
    refine ⟨trivial, fun reply tr' _ => ?_⟩
    cases reply with
    | none => exact trivial
    | some checkpointFiles =>
      show wp _ (if checkpointFiles.isEmpty then pure () else _ : OptionT (Prog gcSig) Unit).run _ _
      split_ifs with hempty
      · exact trivial
      · rw [wp_bind_panic, wp_lift]
        have hcategorize : wp (traceContract GcIssued Answers)
            (categorizeCheckpoints checkpointFiles) (fun _ _ => True) tr' := by
          refine wp_foldlM (fun categorized tr file _ _ => ?_) trivial
          refine ⟨trivial, fun reply tr'' _ => ?_⟩
          cases reply <;> exact trivial
        refine wp_mono (fun categorized tr'' _ => ?_) hcategorize
        show wp _ (monadLift (Gc.rangeMap categorized.keys) >>= _ :
          OptionT (Prog gcSig) Unit).run _ _
        rw [wp_bind_panic, wp_lift]
        refine ⟨trivial, fun keys tr₃ _ => ?_⟩
        refine wp_forM_panic (I := fun _ => True) (fun tr key _ _ => ?_) trivial
        cases categorized.lookup key with
        | none => exact trivial
        | some details => exact wp_applyPolicies policies details tr

/-! ### The concurrent world -/

/-- Any number of collector runs, pins and unpins; between two steps the directory may change
    in any way.  A panic ends the operator, with all its goroutines; the others may go on here,
    as after a restart. -/
def gcWorld (host : Host) (faulty : fsSig.Op → Prop) : World gcSig Unit FS where
  act := GcOp.act host faulty
  env _ _ := True
  start _ p := GcRun p ∨ (∃ path owner, p = pinTask path owner) ∨
    ∃ path owner, p = Gc.unpinCheckpoint path owner

variable {faulty : fsSig.Op → Prop} {s : FS}

theorem answers_of_act {host : Host} {op : gcSig.Op} {s' : FS} {r : gcSig.Reply op}
    (h : GcOp.act host faulty op s r s') : Answers ⟨op, r⟩ := by
  cases op with
  | sortSlice archives =>
    intro sorted hsorted
    rcases h.1 with ⟨sorted', heq, hperm⟩ | ⟨hnone, -⟩
    · obtain rfl := Option.some.inj (hsorted.symm.trans heq)
      exact hperm
    · exact absurd (hsorted.symm.trans hnone) (by simp)
  | glob pattern =>
    intro found hfound archive ha
    have hglob : Filepath.glob s.keys pattern = some found := h.1.symm.trans hfound
    exact ((Filepath.mem_glob hglob).mp ha).2
  | _ => exact trivial

/-- **Every file the collector unlinks** was selected for its level and has no marker at that
    instant, if no `os.Stat` of a marker fails; markers are never touched. -/
theorem gc_unlinks_selected {host : Host} {faulty : fsSig.Op → Prop}
    (hstat : ∀ archive, ¬ faulty (.stat (keepPath archive))) {fs : FS}
    {b c : Pool gcSig Unit FS} {i : ℕ} {e : Event gcSig} {t : Thread gcSig Unit}
    {p : Prog gcSig Unit} (h : Reaches (gcWorld host faulty) (fun _ _ => True) ⟨fs, []⟩ b)
    (ht : b.threads[i]? = some t) (hrun : GcRun p) (hp : Unfolds p t.trace t.prog)
    (hs : Step (gcWorld host faulty) b (.act i e) c) :
    (∀ path, path ∈ b.shared → path ∉ c.shared →
      Selected t.trace path ∧ keepPath path ∉ b.shared) ∧
    ∀ path, c.shared.lookup (keepPath path) = b.shared.lookup (keepPath path) := by
  have hvalid := h.valid rfl (fun op s r s' => answers_of_act) t (List.mem_of_getElem? ht)
  cases hs with
  | @act i tr op k r s' hi hact =>
    obtain rfl : t = ⟨tr, .call op k⟩ := Option.some.inj (ht.symm.trans hi)
    have hissued : GcIssued tr op := pre_of_unfolds (gcRun_issued hrun) hp hvalid
    have hquiet : GcOp.quiet op → s' = b.shared := fs_of_quiet hact
    -- whatever leaves the files alone has nothing to show
    have hsame : s' = b.shared → (∀ path, path ∈ b.shared → path ∉ s' →
        Selected tr path ∧ keepPath path ∉ b.shared) ∧
        ∀ path, s'.lookup (keepPath path) = b.shared.lookup (keepPath path) := by
      rintro rfl
      exact ⟨fun path hin hout => absurd hin hout, fun _ => rfl⟩
    cases op with
    | pin path owner => exact absurd hissued id
    | unpin path owner => exact absurd hissued id
    | removeUnlessPinned archive =>
      obtain ⟨tr', hruns⟩ := hact
      rcases runs_removeArchiveUnlessPinned hruns with heq | ⟨hkeep, heq⟩
      · exact hsame heq
      · have hselected : Selected tr archive := hissued
        obtain ⟨_, _, _, _, _, _, _, _, hmatch, _⟩ := hselected
        have harch : IsArchive archive := tar_suffix_of_globMatch hmatch
        subst heq
        refine ⟨fun path hin hout => ?_, fun path => ?_⟩
        · have hpath : path = archive := by
            by_contra hne
            exact hout (AList.mem_erase.mpr ⟨hne, hin⟩)
          rw [hpath]
          exact ⟨hissued, fun hin => hstat archive (hkeep hin)⟩
        · exact AList.lookup_erase_ne (Ne.symm (harch.ne_keepPath path))
    | _ => exact hsame (hquiet trivial)

/-! ### A run that deletes an orphan -/

/-- A container, and the archive of its checkpoint. -/
def webDetails : CheckpointDetails := ⟨"default", "web", "nginx"⟩

/-- The archive's path. -/
def webArchive : String := "/ckpt/checkpoint-web_default-nginx-2026-01-01T00:00:00Z.tar"

/-- The directory with that archive. -/
def webFiles : FS := FS.put ∅ webArchive (.tar 10240 (containerdArchive webDetails "")) 0

/-- Orphans are not retained; the limits are out of reach. -/
def dropOrphans : PolicySnapshot where
  checkpointDirectory := "/ckpt"
  retainOrphan := false
  maxCheckpointsPerContainer := 10
  maxCheckpointsPerPod := 20
  maxCheckpointsPerNamespace := 30
  maxCheckpointSize := .new (2 ^ 30)
  maxTotalSizePerPod := .new (2 ^ 40)
  maxTotalSizePerContainer := .new (2 ^ 40)
  maxTotalSizePerNamespace := .new (2 ^ 40)
  containerPolicies := []
  podPolicies := []
  namespacePolicies := []

/-- What a run sees up to the removal. -/
def orphanTrace : List (Event gcSig) :=
  [⟨GcOp.currentPolicySnapshot, dropOrphans⟩,
   ⟨GcOp.glob (levelPattern dropOrphans webDetails .container), some [webArchive]⟩,
   ⟨GcOp.readRef webArchive, .ok webDetails⟩,
   ⟨GcOp.stat (keepPath webArchive), none⟩,
   ⟨GcOp.getPod "default" "web", .notFound⟩,
   ⟨GcOp.stat (keepPath webArchive), none⟩]

/-- The archive records its container. -/
theorem webArchive_recorded : recordedIdentity plainHost webFiles webArchive = .ok webDetails := by
  decide +kernel

/-- The trace is one of a directory that lists the archive alone, in which its marker is not
    found. -/
theorem orphanTrace_act
    (hlisted : Filepath.glob s.keys (levelPattern dropOrphans webDetails .container)
      = some [webArchive])
    (hrecorded : recordedIdentity plainHost s webArchive = .ok webDetails)
    (hkeep : FsOp.act faulty (.stat (keepPath webArchive)) s none s) :
    ∀ e ∈ orphanTrace, GcOp.act plainHost faulty e.op s e.reply s := by
  intro e he
  simp only [orphanTrace, List.mem_cons, List.not_mem_nil, or_false] at he
  rcases he with rfl | rfl | rfl | rfl | rfl | rfl
  · rfl
  · exact ⟨hlisted.symm, rfl⟩
  · exact ⟨fun ref h => hrecorded.trans h, rfl⟩
  · exact hkeep
  · rfl
  · exact hkeep

theorem orphanTrace_unfolds : ∃ k, Unfolds (goroutine (applyPolicies webDetails)) orphanTrace
    (.call (GcOp.removeUnlessPinned webArchive) k) := by
  have h0 : Unfolds (goroutine (applyPolicies webDetails)) []
      (goroutine (applyPolicies webDetails)) := .nil _
  have h1 := Unfolds.snoc h0 dropOrphans
  have h2 := Unfolds.snoc h1 (some [webArchive])
  have h3 := Unfolds.snoc h2 (.ok webDetails)
  have h4 := Unfolds.snoc h3 none
  have h5 := Unfolds.snoc h4 .notFound
  exact ⟨_, Unfolds.snoc h5 none⟩

/-- A run that is about to remove the archive. -/
theorem reaches_orphan (hact : ∀ e ∈ orphanTrace, GcOp.act plainHost faulty e.op s e.reply s)
    {k : Unit → Prog gcSig Unit}
    (hu : Unfolds (goroutine (applyPolicies webDetails)) orphanTrace
      (.call (GcOp.removeUnlessPinned webArchive) k)) :
    Reaches (gcWorld plainHost faulty) (fun _ _ => True) ⟨s, []⟩
      ⟨s, [⟨orphanTrace, .call (GcOp.removeUnlessPinned webArchive) k⟩]⟩ :=
  Reaches.replay [] hu hact (Or.inl (.applyPolicies webDetails)) (fun _ _ => trivial) .refl

/-- The run removes the archive: it was selected, and it has no marker. -/
theorem gc_unlinks_selected_orphan :
    ∃ b c t, Reaches (gcWorld plainHost FsOp.noFault) (fun _ _ => True) ⟨webFiles, []⟩ b ∧
      b.threads[0]? = some t ∧
      Step (gcWorld plainHost FsOp.noFault) b (.act 0 ⟨GcOp.removeUnlessPinned webArchive, ()⟩) c ∧
      webArchive ∉ c.shared ∧ Selected t.trace webArchive ∧ keepPath webArchive ∉ b.shared := by
  have hkeep : FsOp.act FsOp.noFault (.stat (keepPath webArchive)) webFiles none webFiles := by
    have hnot : keepPath webArchive ∉ webFiles := by decide +kernel
    refine ⟨Or.inl ?_, rfl⟩
    rw [FS.stat, AList.lookup_eq_none.mpr hnot]
    rfl
  obtain ⟨k, hu⟩ := orphanTrace_unfolds
  have hreach := reaches_orphan (orphanTrace_act (by decide +kernel) webArchive_recorded hkeep) hu
  have hremove : GcOp.act plainHost FsOp.noFault (.removeUnlessPinned webArchive) webFiles ()
      (exec (FsOp.answer 0) (removeArchiveUnlessPinned webArchive) webFiles).2 :=
    ⟨_, Runs.of_exec (FsOp.answer_act FsOp.noFault 0) _ _⟩
  have hstep := Step.act (W := gcWorld plainHost FsOp.noFault) (i := 0)
    (a := ⟨webFiles, [⟨orphanTrace, .call (GcOp.removeUnlessPinned webArchive) k⟩]⟩) rfl hremove
  have hin : webArchive ∈ webFiles := by decide +kernel
  have hout : webArchive
      ∉ (exec (FsOp.answer 0) (removeArchiveUnlessPinned webArchive) webFiles).2 := by
    decide +kernel
  obtain ⟨hselected, hnone⟩ := (gc_unlinks_selected (fun _ h => h) hreach rfl
    (.applyPolicies webDetails) hu hstep).1 webArchive hin hout
  exact ⟨_, _, _, hreach, rfl, hstep, hout, hselected, hnone⟩

/-! ### A marker that cannot be looked at -/

/-- The directory with the archive and its marker. -/
def pinnedWeb : FS := FS.put webFiles (keepPath webArchive) (.bytes []) 0

/-- The `os.Stat` of the marker fails, and nothing else does. -/
def markerFault (op : fsSig.Op) : Prop := op = .stat (keepPath webArchive)

/-- **A pinned archive is unlinked.**  `isCheckpointPinned` takes every error of `os.Stat` for a
    missing marker, before the lock and under it. -/
theorem gc_unlinks_pinned :
    ∃ b c, Reaches (gcWorld plainHost markerFault) (fun _ _ => True) ⟨pinnedWeb, []⟩ b ∧
      Step (gcWorld plainHost markerFault) b (.act 0 ⟨GcOp.removeUnlessPinned webArchive, ()⟩) c ∧
      webArchive ∈ b.shared ∧ keepPath webArchive ∈ b.shared ∧ webArchive ∉ c.shared := by
  have hkeep : FsOp.act markerFault (.stat (keepPath webArchive)) pinnedWeb none pinnedWeb :=
    ⟨Or.inr ⟨rfl, rfl⟩, rfl⟩
  have hin : webArchive ∈ pinnedWeb := by decide +kernel
  have hmarker : keepPath webArchive ∈ pinnedWeb := by decide +kernel
  obtain ⟨k, hu⟩ := orphanTrace_unfolds
  have hrecorded : recordedIdentity plainHost pinnedWeb webArchive = .ok webDetails :=
    (recordedIdentity_of_lookup (AList.lookup_insert_ne (by decide))).trans webArchive_recorded
  have hreach := reaches_orphan (orphanTrace_act (by decide +kernel) hrecorded hkeep) hu
  have hremove : GcOp.act plainHost markerFault (.removeUnlessPinned webArchive) pinnedWeb ()
      (pinnedWeb.erase webArchive) := by
    have hunlink : FsOp.act markerFault (.remove webArchive) pinnedWeb true
        (pinnedWeb.erase webArchive) := Or.inl ⟨rfl, hin, rfl⟩
    exact ⟨_, .call hkeep (.call hunlink (.pure () _))⟩
  have hstep := Step.act (W := gcWorld plainHost markerFault) (i := 0)
    (a := ⟨pinnedWeb, [⟨orphanTrace, .call (GcOp.removeUnlessPinned webArchive) k⟩]⟩) rfl hremove
  exact ⟨_, _, hreach, hstep, hin, hmarker, fun h => (AList.mem_erase.mp h).1 rfl⟩

end CheckpointRestore.Retention
