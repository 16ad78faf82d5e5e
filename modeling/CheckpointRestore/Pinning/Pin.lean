import Mathlib.Data.String.Basic
import Mathlib.Data.List.Sort
import CheckpointRestore.Pinning.Marker

namespace CheckpointRestore.Pinning

open Interaction

/-!
# Pinning and unpinning — the sections under `podRestorePinMu`

`pinCheckpoint`, `unpinCheckpoint` and `removeArchiveUnlessPinned` as programs over the system
calls.  What each does to the marker is a function of the marker's content (`afterPin`,
`afterUnpin`); everything but the marker and its temporary file is left alone (`Frame`).

* `cwp_pinLocked`, `cwp_unpinCheckpoint`, `runs_removeArchiveUnlessPinned` — the specifications,
  the first two with crashes and, if `faulty`, with failing calls.
-/

/-! ### The programs -/

/-- The marker next to an archive. -/
def keepPath (path : String) : String := path ++ ".keep"

/-- The file a marker is written to first. -/
def tmpPath (path : String) : String := path ++ ".tmp"

/-- `writePodRestorePinMarker`: whether it succeeded. -/
def writePodRestorePinMarker (path : String) (marker : PodRestorePinMarker) :
    Prog fsSig Bool := do
  match ← Os.writeFile (tmpPath path) (markerData marker) with
  | false => return false
  | true =>
    match ← Os.rename (tmpPath path) path with
    | true => return true
    | false =>
      let _ ← Os.remove (tmpPath path)
      return false

/-- `sort.Strings`. -/
def sortStrings (ss : List String) : List String := ss.mergeSort (fun a b => decide (a ≤ b))

/-- The locked section of `pinCheckpoint`. -/
def pinLocked (path owner : String) : Prog fsSig Bool := do
  match ← Os.readFile (keepPath path) with
  | .notExist => writePodRestorePinMarker (keepPath path) ⟨podRestorePinManager, [owner]⟩
  | .failed => return false
  | .ok content =>
    match parsePodRestorePinMarker content with
    | none => return true
    | some marker =>
      if marker.owners.contains owner then return true
      else
        writePodRestorePinMarker (keepPath path)
          { marker with owners := sortStrings (marker.owners ++ [owner]) }

/-- `pinCheckpoint`. -/
def pinCheckpoint (path owner : String) : Prog fsSig Bool := do
  match ← Os.stat path with
  | none => return false
  | some _ => pinLocked path owner

/-- `removeString`. -/
def removeString (items : List String) (remove : String) : List String :=
  items.filter (fun item => item != remove)

/-- `unpinCheckpoint`; all of it is locked. -/
def unpinCheckpoint (path owner : String) : Prog fsSig Unit := do
  match ← Os.readFile (keepPath path) with
  | .notExist => return ()
  | .failed => return ()
  | .ok content =>
    match parsePodRestorePinMarker content with
    | none => return ()
    | some marker =>
      if (removeString marker.owners owner).length = marker.owners.length then return ()
      else if (removeString marker.owners owner).length > 0 then
        let _ ← writePodRestorePinMarker (keepPath path)
          { marker with owners := removeString marker.owners owner }
        return ()
      else
        let _ ← Os.remove (keepPath path)
        return ()

/-- `isCheckpointPinned`. -/
def isCheckpointPinned (archivePath : String) : Prog fsSig Bool := do
  return (← Os.stat (keepPath archivePath)).isSome

/-- `removeArchiveUnlessPinned`; all of it is locked. -/
def removeArchiveUnlessPinned (archive : String) : Prog fsSig Unit := do
  match ← isCheckpointPinned archive with
  | true => return ()
  | false =>
    let _ ← Os.remove archive
    return ()

/-! ### Paths -/

theorem keepPath_inj {p q : String} : keepPath p = keepPath q ↔ p = q := by
  unfold keepPath
  rw [← String.toList_inj, String.toList_append, String.toList_append, List.append_left_inj,
    String.toList_inj]

theorem keepPath_ne_tmpPath (p q : String) : keepPath p ≠ tmpPath q := by
  intro h
  have hlist := congrArg (fun s : String => (s.toList.reverse.drop 1).head?) h
  simp [keepPath, tmpPath] at hlist

/-! ### What they do to the marker -/

/-- The content of the marker of `path`. -/
def keepContent (fs : FS) (path : String) : Option Content :=
  (fs.lookup (keepPath path)).map File.content

/-- Nothing but the marker of `path` and its temporary file differs. -/
def Frame (path : String) (s s' : FS) : Prop :=
  ∀ q, q ≠ keepPath path → q ≠ tmpPath (keepPath path) → s'.lookup q = s.lookup q

/-- The marker after a pin by `owner`. -/
def afterPin (owner : String) : Option Content → Option Content
  | none => some (.bytes (markerData ⟨podRestorePinManager, [owner]⟩))
  | some content =>
    match parsePodRestorePinMarker content with
    | none => some content
    | some marker =>
      if marker.owners.contains owner then some content
      else some (.bytes (markerData
        { marker with owners := sortStrings (marker.owners ++ [owner]) }))

/-- The marker after an unpin by `owner`. -/
def afterUnpin (owner : String) : Option Content → Option Content
  | none => none
  | some content =>
    match parsePodRestorePinMarker content with
    | none => some content
    | some marker =>
      if (removeString marker.owners owner).length = marker.owners.length then some content
      else if (removeString marker.owners owner).length > 0 then
        some (.bytes (markerData { marker with owners := removeString marker.owners owner }))
      else none

theorem mem_sortStrings {ss : List String} {s : String} : s ∈ sortStrings ss ↔ s ∈ ss :=
  List.mem_mergeSort

theorem mem_removeString {items : List String} {remove x : String} :
    x ∈ removeString items remove ↔ x ∈ items ∧ x ≠ remove := by
  unfold removeString
  rw [List.mem_filter, bne_iff_ne]

/-- What a pin does to the marker.  It leaves alone a marker of somebody else and one that
    lists the owner; otherwise it writes the owners it found with its own added. -/
theorem afterPin_cases (owner : String) (c : Option Content) :
    (∃ content, c = some content ∧ afterPin owner c = c ∧
      ∀ marker, parsePodRestorePinMarker content = some marker → owner ∈ marker.owners) ∨
    ∃ owners, owner ∉ owners ∧
      (c = none ∧ owners = [] ∨ ∃ content, c = some content ∧
        parsePodRestorePinMarker content = some ⟨podRestorePinManager, owners⟩) ∧
      afterPin owner c = some (.bytes (markerData
        ⟨podRestorePinManager, sortStrings (owners ++ [owner])⟩)) := by
  cases c with
  | none =>
    have hsorted : sortStrings ([] ++ [owner]) = [owner] := List.mergeSort_singleton owner
    exact .inr ⟨[], List.not_mem_nil, .inl ⟨rfl, rfl⟩, by rw [hsorted, afterPin]⟩
  | some content =>
    rw [afterPin]
    cases hparse : parsePodRestorePinMarker content with
    | none =>
      refine .inl ⟨content, rfl, rfl, fun marker hmarker => ?_⟩
      exact absurd (hparse.symm.trans hmarker) (by simp)
    | some marker =>
      obtain ⟨managedBy, owners⟩ := marker
      obtain rfl : managedBy = podRestorePinManager := parse_managedBy hparse
      dsimp only
      split_ifs with hin
      · refine .inl ⟨content, rfl, rfl, fun marker hmarker => ?_⟩
        obtain rfl := Option.some.inj (hparse.symm.trans hmarker)
        exact List.contains_iff_mem.mp hin
      · have hnew : owner ∉ owners := fun hmem => hin (List.contains_iff_mem.mpr hmem)
        exact .inr ⟨owners, hnew, .inr ⟨content, rfl, hparse⟩, rfl⟩

/-- What an unpin does to the marker.  It leaves alone a marker that does not list the owner;
    otherwise it writes the other owners, or removes the marker if there are none. -/
theorem afterUnpin_cases (owner : String) (c : Option Content) :
    (afterUnpin owner c = c ∧ ∀ content marker, c = some content →
      parsePodRestorePinMarker content = some marker → owner ∉ marker.owners) ∨
    ∃ content owners, c = some content ∧
      parsePodRestorePinMarker content = some ⟨podRestorePinManager, owners⟩ ∧
      (removeString owners owner ≠ [] ∧ afterUnpin owner c = some (.bytes (markerData
          ⟨podRestorePinManager, removeString owners owner⟩)) ∨
        removeString owners owner = [] ∧ afterUnpin owner c = none) := by
  cases c with
  | none => exact .inl ⟨rfl, fun content marker hcontent => absurd hcontent (by simp)⟩
  | some content =>
    rw [afterUnpin]
    cases hparse : parsePodRestorePinMarker content with
    | none =>
      refine .inl ⟨rfl, fun content' marker hcontent hmarker => ?_⟩
      obtain rfl := Option.some.inj hcontent
      exact absurd (hparse.symm.trans hmarker) (by simp)
    | some marker =>
      obtain ⟨managedBy, owners⟩ := marker
      obtain rfl : managedBy = podRestorePinManager := parse_managedBy hparse
      dsimp only
      split_ifs with hlen hpos
      · -- nothing was filtered out
        have hall : removeString owners owner = owners :=
          List.filter_sublist.eq_of_length hlen
        refine .inl ⟨rfl, fun content' marker hcontent hmarker hmem => ?_⟩
        obtain rfl := Option.some.inj hcontent
        obtain rfl := Option.some.inj (hparse.symm.trans hmarker)
        rw [← hall] at hmem
        exact (mem_removeString.mp hmem).2 rfl
      · exact .inr ⟨content, owners, rfl, hparse, .inl ⟨List.ne_nil_of_length_pos hpos, rfl⟩⟩
      · have hnil : removeString owners owner = [] :=
          List.length_eq_zero_iff.mp (Nat.eq_zero_of_not_pos hpos)
        exact .inr ⟨content, owners, rfl, hparse, .inr ⟨hnil, rfl⟩⟩

theorem Frame.refl (path : String) (s : FS) : Frame path s s := fun _ _ _ => rfl

theorem Frame.put (path : String) (s : FS) (content : Content) (t : ℤ) :
    Frame path s (s.put (tmpPath (keepPath path)) content t) :=
  fun _ _ htmp => AList.lookup_insert_ne htmp

theorem keepContent_put (path : String) (s : FS) (content : Content) (t : ℤ) :
    keepContent (s.put (tmpPath (keepPath path)) content t) path = keepContent s path := by
  unfold keepContent FS.put
  rw [AList.lookup_insert_ne (keepPath_ne_tmpPath _ _)]

/-- Removing the temporary file. -/
theorem Frame.erase_tmp {path : String} {s s' : FS} (h : Frame path s s') :
    Frame path s (s'.erase (tmpPath (keepPath path))) := by
  intro q hkeep htmp
  rw [AList.lookup_erase_ne htmp]
  exact h q hkeep htmp

theorem keepContent_erase_tmp (path : String) (s : FS) :
    keepContent (s.erase (tmpPath (keepPath path))) path = keepContent s path := by
  unfold keepContent
  rw [AList.lookup_erase_ne (keepPath_ne_tmpPath _ _)]

/-- The marker of every other path is left alone. -/
theorem keepContent_of_frame {path q : String} {s s' : FS} (h : Frame path s s') (hq : q ≠ path) :
    keepContent s' q = keepContent s q := by
  unfold keepContent
  rw [h _ (fun heq => hq (keepPath_inj.mp heq)) (keepPath_ne_tmpPath _ _)]

/-- Removing the marker. -/
theorem erase_keep (path : String) (s : FS) :
    Frame path s (s.erase (keepPath path)) ∧ keepContent (s.erase (keepPath path)) path = none := by
  refine ⟨fun q hkeep _ => AList.lookup_erase_ne hkeep, ?_⟩
  unfold keepContent
  rw [AList.lookup_erase]
  rfl

/-- The marker is a file. -/
theorem keepContent_of_lookup {path : String} {s : FS} {file : Option File}
    (h : s.lookup (keepPath path) = file) : keepContent s path = file.map File.content := by
  unfold keepContent
  rw [h]

/-! ### Specifications -/

section Specs
variable {faulty : fsSig.Op → Prop} {s : FS}

/-- The states a crash can leave when the marker goes over to the content `after`. -/
def Between (path : String) (s : FS) (after : Option Content) (s' : FS) : Prop :=
  Frame path s s' ∧ (keepContent s' path = keepContent s path ∨ keepContent s' path = after)

theorem Between.start (path : String) (s : FS) (after : Option Content) :
    Between path s after s :=
  ⟨Frame.refl path s, Or.inl rfl⟩

/-- Renaming the temporary file onto the marker. -/
theorem rename_tmp {path : String} {s₁ : FS} (h : Frame path s s₁) (file : File) :
    Frame path s ((s₁.erase (tmpPath (keepPath path))).insert (keepPath path) file) ∧
    keepContent ((s₁.erase (tmpPath (keepPath path))).insert (keepPath path) file) path
      = some file.content := by
  refine ⟨?_, ?_⟩
  · intro q hkeep htmp
    rw [AList.lookup_insert_ne hkeep]
    exact h.erase_tmp q hkeep htmp
  · unfold keepContent
    rw [AList.lookup_insert]
    rfl

/-- The marker goes over to the new content in one step, or stays. -/
theorem cwp_writePodRestorePinMarker (path : String) (marker : PodRestorePinMarker) :
    cwp (FsOp.act faulty) FsOp.tear (writePodRestorePinMarker (keepPath path) marker)
      (fun ok s' => Frame path s s' ∧
        (ok = true ∧ keepContent s' path = some (.bytes (markerData marker)) ∨
          (∃ op, faulty op) ∧ ok = false ∧ keepContent s' path = keepContent s path))
      (Between path s (some (.bytes (markerData marker)))) s := by
  set after := some (Content.bytes (markerData marker)) with hafter
  -- only the temporary file has been touched
  have htmp : ∀ content t, Between path s after
      (s.put (tmpPath (keepPath path)) content t) := fun content t =>
    ⟨Frame.put path s content t, Or.inl (keepContent_put path s content t)⟩
  unfold writePodRestorePinMarker
  rw [cwp_bind]
  refine cwp_perform (Between.start path s after) ?_ ?_
  · rintro s' ⟨n, t, rfl⟩
    exact htmp _ t
  · rintro r s₁ (⟨rfl, t, rfl⟩ | ⟨hfaulty, rfl, rfl | ⟨n, t, rfl⟩⟩)
    · refine ⟨htmp _ t, ?_⟩
      dsimp only
      rw [cwp_bind]
      refine cwp_perform (htmp _ t) (fun _ h => absurd h id) ?_
      rintro r s₂ (⟨rfl, file, hfile, rfl⟩ | ⟨hfail, rfl, rfl⟩)
      · -- the temporary file holds what was written
        have hnew : (s.put (tmpPath (keepPath path)) (.bytes (markerData marker)) t).lookup
            (tmpPath (keepPath path)) = some ⟨.bytes (markerData marker), t⟩ :=
          AList.lookup_insert _
        obtain rfl := Option.some.inj (hnew.symm.trans hfile)
        obtain ⟨hframe, hkeep⟩ := rename_tmp
          (Frame.put path s (.bytes (markerData marker)) t) ⟨.bytes (markerData marker), t⟩
        exact ⟨⟨hframe, Or.inr hkeep⟩, cwp_pure ⟨hframe, Or.inr hkeep⟩
          ⟨hframe, Or.inl ⟨rfl, hkeep⟩⟩⟩
      · have hfaulty : ∃ op, faulty op := by
          rcases hfail with hfaulty | hmissing
          · exact ⟨_, hfaulty⟩
          · exact absurd ((AList.mem_insert _).mpr (Or.inl rfl)) hmissing
        refine ⟨htmp _ t, ?_⟩
        dsimp only
        rw [cwp_bind]
        refine cwp_perform (htmp _ t) (fun _ h => absurd h id) ?_
        rintro r s₃ (⟨-, -, rfl⟩ | ⟨-, -, rfl⟩)
        · have hframe := (Frame.put path s (.bytes (markerData marker)) t).erase_tmp
          have hkeep := (keepContent_erase_tmp path _).trans
            (keepContent_put path s (.bytes (markerData marker)) t)
          exact ⟨⟨hframe, Or.inl hkeep⟩, cwp_pure ⟨hframe, Or.inl hkeep⟩
            ⟨hframe, Or.inr ⟨hfaulty, rfl, hkeep⟩⟩⟩
        · exact ⟨htmp _ t, cwp_pure (htmp _ t)
            ⟨Frame.put path s _ t, Or.inr ⟨hfaulty, rfl, keepContent_put path s _ t⟩⟩⟩
    · exact ⟨Between.start path s₁ after, cwp_pure (Between.start path s₁ after)
        ⟨Frame.refl path s₁, Or.inr ⟨⟨_, hfaulty⟩, rfl, rfl⟩⟩⟩
    · exact ⟨htmp _ t, cwp_pure (htmp _ t)
        ⟨Frame.put path s _ t, Or.inr ⟨⟨_, hfaulty⟩, rfl, keepContent_put path s _ t⟩⟩⟩

/-- A pin that returns `true` has brought the marker to `afterPin`; one that fails has left it
    alone. -/
theorem cwp_pinLocked (path owner : String) :
    cwp (FsOp.act faulty) FsOp.tear (pinLocked path owner)
      (fun ok s' => Frame path s s' ∧
        (ok = true ∧ keepContent s' path = afterPin owner (keepContent s path) ∨
          (∃ op, faulty op) ∧ ok = false ∧ keepContent s' path = keepContent s path))
      (Between path s (afterPin owner (keepContent s path))) s := by
  have hstart := Between.start path s (afterPin owner (keepContent s path))
  unfold pinLocked
  rw [cwp_bind]
  refine cwp_perform hstart (fun _ h => absurd h id) ?_
  rintro r s' ⟨rfl, hread⟩
  refine ⟨hstart, ?_⟩
  cases hlookup : s'.lookup (keepPath path) with
  | none =>
    rw [hlookup] at hread
    have hafter : afterPin owner (keepContent s' path)
        = some (.bytes (markerData ⟨podRestorePinManager, [owner]⟩)) := by
      rw [keepContent_of_lookup hlookup]
      rfl
    rcases hread with rfl | ⟨hfaulty, rfl⟩
    · dsimp only
      rw [hafter]
      exact cwp_writePodRestorePinMarker path _
    · exact cwp_pure hstart ⟨Frame.refl path s', Or.inr ⟨⟨_, hfaulty⟩, rfl, rfl⟩⟩
  | some file =>
    rw [hlookup] at hread
    have hcontent : keepContent s' path = some file.content := keepContent_of_lookup hlookup
    rcases hread with rfl | ⟨hfaulty, rfl⟩
    · dsimp only
      rw [hcontent, afterPin] at hstart ⊢
      cases hparse : parsePodRestorePinMarker file.content with
      | none =>
        rw [hparse] at hstart
        exact cwp_pure hstart ⟨Frame.refl path s', Or.inl ⟨rfl, hcontent⟩⟩
      | some marker =>
        rw [hparse] at hstart
        dsimp only at hstart ⊢
        split_ifs at hstart ⊢
        · exact cwp_pure hstart ⟨Frame.refl path s', Or.inl ⟨rfl, hcontent⟩⟩
        · -- the owner joins the marker
          rw [← hcontent]
          exact cwp_writePodRestorePinMarker path _
    · exact cwp_pure hstart ⟨Frame.refl path s', Or.inr ⟨⟨_, hfaulty⟩, rfl, rfl⟩⟩

/-- An unpin brings the marker to `afterUnpin`, or leaves it alone where a call fails. -/
theorem cwp_unpinCheckpoint (path owner : String) :
    cwp (FsOp.act faulty) FsOp.tear (unpinCheckpoint path owner)
      (fun _ s' => Frame path s s' ∧
        (keepContent s' path = afterUnpin owner (keepContent s path) ∨
          (∃ op, faulty op) ∧ keepContent s' path = keepContent s path))
      (Between path s (afterUnpin owner (keepContent s path))) s := by
  have hstart := Between.start path s (afterUnpin owner (keepContent s path))
  unfold unpinCheckpoint
  rw [cwp_bind]
  refine cwp_perform hstart (fun _ h => absurd h id) ?_
  rintro r s' ⟨rfl, hread⟩
  refine ⟨hstart, ?_⟩
  cases hlookup : s'.lookup (keepPath path) with
  | none =>
    rw [hlookup] at hread
    have hnone : keepContent s' path = none := keepContent_of_lookup hlookup
    rcases hread with rfl | ⟨hfaulty, rfl⟩
    · exact cwp_pure hstart ⟨Frame.refl path s', Or.inl (by rw [hnone]; rfl)⟩
    · exact cwp_pure hstart ⟨Frame.refl path s', Or.inr ⟨⟨_, hfaulty⟩, rfl⟩⟩
  | some file =>
    rw [hlookup] at hread
    have hcontent : keepContent s' path = some file.content := keepContent_of_lookup hlookup
    rcases hread with rfl | ⟨hfaulty, rfl⟩
    · dsimp only
      rw [hcontent, afterUnpin] at hstart ⊢
      cases hparse : parsePodRestorePinMarker file.content with
      | none =>
        rw [hparse] at hstart
        exact cwp_pure hstart ⟨Frame.refl path s', Or.inl hcontent⟩
      | some marker =>
        rw [hparse] at hstart
        dsimp only at hstart ⊢
        split_ifs at hstart ⊢ with hlen hpos
        · exact cwp_pure hstart ⟨Frame.refl path s', Or.inl hcontent⟩
        · -- other owners are left, and the marker is written without this one
          rw [cwp_bind]
          refine cwp_mono ?_ (fun s' h => h) (cwp_writePodRestorePinMarker path _)
          rintro ok s'' hb ⟨hframe, ⟨-, hkeep⟩ | ⟨hfaulty, -, hkeep⟩⟩
          · exact cwp_pure hb ⟨hframe, Or.inl hkeep⟩
          · exact cwp_pure hb ⟨hframe, Or.inr ⟨hfaulty, hkeep.trans hcontent⟩⟩
        · -- it was the last owner, and the marker is removed
          rw [cwp_bind]
          refine cwp_perform hstart (fun _ h => absurd h id) ?_
          rintro r s'' (⟨-, -, rfl⟩ | ⟨hfail, -, rfl⟩)
          · obtain ⟨hframe, hkeep⟩ := erase_keep path s'
            exact ⟨⟨hframe, Or.inr hkeep⟩,
              cwp_pure ⟨hframe, Or.inr hkeep⟩ ⟨hframe, Or.inl hkeep⟩⟩
          · have hfaulty : ∃ op, faulty op := by
              rcases hfail with hfaulty | hmissing
              · exact ⟨_, hfaulty⟩
              · exact absurd (AList.lookup_isSome.mp (by rw [hlookup]; rfl)) hmissing
            exact ⟨hstart, cwp_pure hstart ⟨Frame.refl path s'', Or.inr ⟨hfaulty, hcontent⟩⟩⟩
    · exact cwp_pure hstart ⟨Frame.refl path s', Or.inr ⟨⟨_, hfaulty⟩, rfl⟩⟩

/-- The collector removes an archive only if it has no marker at that moment, or if it could not
    look at the marker. -/
theorem runs_removeArchiveUnlessPinned {archive : String} {s' : FS} {tr : List (Event fsSig)}
    (h : Runs (FsOp.act faulty) (removeArchiveUnlessPinned archive) s tr () s') :
    s' = s ∨ (keepPath archive ∈ s → faulty (.stat (keepPath archive))) ∧ s' = s.erase archive := by
  unfold removeArchiveUnlessPinned isCheckpointPinned at h
  obtain ⟨_, _, pinned, t, -, hpinned, hrest⟩ := Runs.of_bind h
  obtain ⟨_, _, info, _, -, hstat, hreturn⟩ := Runs.of_bind hpinned
  obtain ⟨-, rfl, rfl⟩ := Runs.of_pure hreturn
  obtain ⟨-, hinfo, rfl⟩ := Runs.of_perform hstat
  cases info with
  | some info => exact Or.inl (Runs.of_pure hrest).2.2
  | none =>
    -- the marker is missing, or its `os.Stat` has failed
    have hkeep : keepPath archive ∈ t → faulty (.stat (keepPath archive)) := by
      intro hin
      rcases hinfo with hnone | ⟨hfaulty, -⟩
      · exact absurd (FS.stat_isSome.mpr hin) (by simp [← hnone])
      · exact hfaulty
    obtain ⟨_, _, ok, _, -, hremove, hend⟩ := Runs.of_bind hrest
    obtain ⟨-, -, rfl⟩ := Runs.of_pure hend
    obtain ⟨-, ⟨-, -, rfl⟩ | ⟨-, -, rfl⟩⟩ := Runs.of_perform hremove
    · exact Or.inr ⟨hkeep, rfl⟩
    · exact Or.inl rfl

end Specs

end CheckpointRestore.Pinning
