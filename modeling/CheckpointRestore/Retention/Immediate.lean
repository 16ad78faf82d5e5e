import CheckpointRestore.Retention.Sequential

namespace CheckpointRestore.Retention

open Go Interaction Pinning Resource

/-!
# `applyPoliciesImmediately` on its own

All archives of the directory are listed, the identities they record are collected in a map,
and the policies are applied to each of them in the order in which the map is visited.

* `categorized` — the map; `immediately` — the passes, in a given order of its keys, up to a panic;
* `immediately_runs` — in any order of the keys this is a run of `applyPoliciesImmediately`;
* `categorized_of_listed` — an archive that is listed and read has its identity visited, unless
  names contain `/`.
-/

/-- The key of an identity in the map. -/
def entryKey (details : CheckpointDetails) : String :=
  details.ns ++ "/" ++ details.pod ++ "/" ++ details.container

variable {details : CheckpointDetails}

section Immediate
variable (node : Node) (lookups : Lookups) (policies : PolicySnapshot)

/-- One round of `categorizeCheckpoints`. -/
def categorize (s : FS) (entries : AList (fun _ : String => CheckpointDetails))
    (checkpointFile : String) : AList (fun _ : String => CheckpointDetails) :=
  match recordedIdentity node.host s checkpointFile with
  | .error _ => entries
  | .ok details => entries.insert (entryKey details) details

/-- The map of `applyPoliciesImmediately`. -/
def categorized (s : FS) : AList (fun _ : String => CheckpointDetails) :=
  ((Filepath.glob s.keys (allPattern policies)).getD []).foldl (categorize node s) ∅

/-- The pass for one key of the map. -/
def visitEntry (entries : AList (fun _ : String => CheckpointDetails)) (key : String) (s : FS) :
    Option Unit × FS :=
  match entries.lookup key with
  | some details => passOutcome node (fun _ => lookups) policies details (policies.visits details) s
  | none => (some (), s)

/-- `applyPoliciesImmediately`, the map visited in the order given: whether it returned, and the
    files it leaves. -/
def immediatelyOutcome (order : List String) (s : FS) : Option Unit × FS :=
  untilPanic (visitEntry node lookups policies (categorized node policies s)) order s

/-- The files `applyPoliciesImmediately` leaves. -/
def immediately (order : List String) (s : FS) : FS :=
  (immediatelyOutcome node lookups policies order s).2

variable {node} in
theorem categorize_ok {s : FS} {file : String}
    (h : recordedIdentity node.host s file = .ok details)
    (entries : AList (fun _ : String => CheckpointDetails)) :
    categorize node s entries file = entries.insert (entryKey details) details := by
  rw [categorize, h]

theorem exec_categorizeCheckpoints (checkpointFiles : List String) (s : FS) :
    exec (answer node lookups) (categorizeCheckpoints checkpointFiles) s
      = (checkpointFiles.foldl (categorize node s) ∅, s) := by
  have hround : ∀ entries file, exec (answer node lookups) (categorizeCheckpoint entries file) s
      = (categorize node s entries file, s) := by
    intro entries file
    have hread : exec (answer node lookups) (Gc.readRef file) s
        = (recordedIdentity node.host s file, s) := rfl
    unfold categorizeCheckpoint categorize
    rw [exec_bind, hread]
    cases recordedIdentity node.host s file <;> rfl
  have hloop : ∀ files entries,
      exec (answer node lookups) (List.foldlM categorizeCheckpoint entries files) s
        = (files.foldl (categorize node s) entries, s) := by
    intro files
    induction files with
    | nil => exact fun entries => rfl
    | cons file rest ih =>
      intro entries
      rw [List.foldlM_cons, exec_bind, hround]
      exact ih _
  exact hloop checkpointFiles ∅

end Immediate

/-- **Every order of the map is a run** of `applyPoliciesImmediately`. -/
theorem immediately_runs (node : Node) (lookups : Lookups) (policies : PolicySnapshot) (s : FS)
    {order : List String} (horder : order.Perm (categorized node policies s).keys) :
    ∃ tr, Runs (GcOp.act node.host FsOp.noFault) (applyPoliciesImmediately policies).run s tr
      (immediatelyOutcome node lookups policies order s).1
      (immediately node lookups policies order s) := by
  have hglob : Runs (GcOp.act node.host FsOp.noFault) (Gc.glob (allPattern policies)) s
      [⟨GcOp.glob (allPattern policies), Filepath.glob s.keys (allPattern policies)⟩]
      (Filepath.glob s.keys (allPattern policies)) s := Runs.perform ⟨rfl, rfl⟩
  -- with nothing listed the map is empty, and so is every order of it
  have hempty : categorized node policies s = ∅ →
      immediatelyOutcome node lookups policies order s = (some (), s) := by
    intro hmap
    rw [hmap] at horder
    have hnil : order = [] := List.perm_nil.mp horder
    rw [hnil]
    rfl
  unfold applyPoliciesImmediately immediately
  refine hglob.exists_bind_lift ?_
  cases hlisted : Filepath.glob s.keys (allPattern policies) with
  | none =>
    have hmap : categorized node policies s = ∅ := by rw [categorized, hlisted]; rfl
    rw [hempty hmap]
    exact ⟨[], .pure (some ()) s⟩
  | some checkpointFiles =>
    cases checkpointFiles with
    | nil =>
      have hmap : categorized node policies s = ∅ := by rw [categorized, hlisted]; rfl
      rw [hempty hmap]
      exact ⟨[], .pure (some ()) s⟩
    | cons file rest =>
      have hcategorize := Runs.of_exec (answer_act node lookups)
        (categorizeCheckpoints (file :: rest)) s
      rw [exec_categorizeCheckpoints] at hcategorize
      have hmap : (file :: rest).foldl (categorize node s) ∅ = categorized node policies s := by
        rw [categorized, hlisted]
        rfl
      rw [hmap] at hcategorize
      refine hcategorize.exists_bind_lift ?_
      have hrange : Runs (GcOp.act node.host FsOp.noFault)
          (Gc.rangeMap (categorized node policies s).keys) s
          [⟨GcOp.rangeMap (categorized node policies s).keys, order⟩] order s :=
        Runs.perform ⟨horder, rfl⟩
      refine hrange.exists_bind_lift (Runs.forM_panic (fun key s' => ?_) order s)
      unfold visitEntry
      cases (categorized node policies s).lookup key with
      | none => exact ⟨[], .pure (some ()) s'⟩
      | some details => exact pass_runs node (fun _ => lookups) policies details s'

/-! ### Identities the map keeps -/

/-- The names of an identity, as its key lists them. -/
def entryNames (details : CheckpointDetails) : List (List Char) :=
  [details.ns.toList, details.pod.toList, details.container.toList]

/-- No name contains `/`. -/
def SlashFree (details : CheckpointDetails) : Prop := ∀ name ∈ entryNames details, '/' ∉ name

theorem toList_entryKey (details : CheckpointDetails) :
    (entryKey details).toList = ['/'].intercalate (entryNames details) := by
  simp [entryKey, entryNames, List.intercalate]

/-- The slashes of a key are two and those of the names. -/
theorem slashFree_iff : SlashFree details ↔ (entryKey details).toList.count '/' = 2 := by
  simp [entryKey, SlashFree, entryNames, ← List.count_eq_zero]
  omega

/-- Names without `/` are read back from their key. -/
theorem entryKey_inj {other : CheckpointDetails} (hfree : SlashFree details)
    (h : entryKey details = entryKey other) : details = other := by
  have hfree' : SlashFree other := by
    rw [slashFree_iff, ← h]
    exact slashFree_iff.mp hfree
  have hsplit := congrArg (fun key => key.toList.splitOn '/') h
  simp only [toList_entryKey] at hsplit
  rw [List.splitOn_intercalate _ hfree (by simp [entryNames]),
    List.splitOn_intercalate _ hfree' (by simp [entryNames])] at hsplit
  cases details
  cases other
  simpa [entryNames, String.toList_inj] using hsplit

section Entries
variable {node : Node} {policies : PolicySnapshot} {s : FS}

/-- An entry stays, for only archives of its identity have its key. -/
theorem categorize_kept (hfree : SlashFree details) {files : List String}
    {entries : AList (fun _ : String => CheckpointDetails)}
    (h : entries.lookup (entryKey details) = some details) :
    (files.foldl (categorize node s) entries).lookup (entryKey details) = some details := by
  induction files generalizing entries with
  | nil => exact h
  | cons file rest ih =>
    refine ih ?_
    unfold categorize
    cases recordedIdentity node.host s file with
    | error err => exact h
    | ok other =>
      by_cases hkey : entryKey details = entryKey other
      · rw [hkey, AList.lookup_insert, entryKey_inj hfree hkey]
      · exact (AList.lookup_insert_ne hkey).trans h

/-- The loop makes an entry for every archive it reads. -/
theorem categorize_found {archive : String}
    (href : recordedIdentity node.host s archive = .ok details) (hfree : SlashFree details)
    {files : List String} (hin : archive ∈ files)
    {entries : AList (fun _ : String => CheckpointDetails)} :
    (files.foldl (categorize node s) entries).lookup (entryKey details) = some details := by
  induction files generalizing entries with
  | nil => exact absurd hin List.not_mem_nil
  | cons file rest ih =>
    rcases List.mem_cons.mp hin with rfl | hrest
    · rw [List.foldl_cons]
      refine categorize_kept hfree ?_
      rw [categorize_ok href]
      exact AList.lookup_insert _
    · exact ih hrest

/-- **Every identity that is listed and read is visited**, if its names contain no `/`. -/
theorem categorized_of_listed {archive : String} (hin : archive ∈ s)
    (hmatch : Filepath.globMatch (allPattern policies) archive = true)
    (href : recordedIdentity node.host s archive = .ok details) (hfree : SlashFree details) :
    (categorized node policies s).lookup (entryKey details) = some details := by
  have hvalid := Filepath.globValid_of_globMatch hmatch
  have hglob : ∃ files, Filepath.glob s.keys (allPattern policies) = some files :=
    ⟨_, if_pos hvalid⟩
  obtain ⟨files, hfiles⟩ := hglob
  rw [categorized, hfiles]
  exact categorize_found href hfree ((Filepath.mem_glob hfiles).mpr ⟨AList.mem_keys.mp hin, hmatch⟩)

end Entries

end CheckpointRestore.Retention
