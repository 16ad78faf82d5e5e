import CheckpointRestore.Retention.Fixpoint

namespace CheckpointRestore.Retention

open Go Interaction Pinning Resource

/-!
# The newest archives that fit

What one level leaves, said without its three paths: the pinned archives, and of the others that
are not too large by themselves the newest, as many as the limits admit.

* `Fits`, `LeastDrop` — the limits hold; the least number of oldest archives to drop for that;
* `KeepsNewest` — what the level is for;
* `SortSlice` — what is assumed of `sort.Slice`;
* `handleLevel_keepsNewest` — a level that does not panic keeps exactly the newest archives that
  fit;
* `limits_panic` — two checkpoints, of which none fits and one is left when the operator dies.
-/

/-! ### What a level is for -/

/-- The limits on the number and on the total size hold. -/
def Fits (policy : Policy) (s : FS) (archives : List String) : Prop :=
  (archives.length : ℤ) ≤ policy.maxCheckpoints ∧
    ¬ policy.maxTotalSize.Below (totalSize s archives)

/-- The archives with a marker. -/
def pinnedOf (s : FS) (archives : List String) : List String := archives.filter (marked s)

/-- The least number of archives to drop from the front, or all of them if no number will do. -/
structure LeastDrop (policy : Policy) (s : FS) (pinned order : List String) (n : ℕ) : Prop where
  needed : ∀ m < n, ¬ Fits policy s (pinned ++ order.drop m)
  enough : n = order.length ∨ n < order.length ∧ Fits policy s (pinned ++ order.drop n)

/-- `t` is left of `s` when the newest archives of the list that fit are kept: `order` are the
    archives without a marker that are not too large, oldest first, and `n` of them go. -/
structure KeepsNewest (policy : Policy) (archives : List String) (s t : FS) (order : List String)
    (n : ℕ) : Prop where
  nodup : order.Nodup
  mem : ∀ archive, archive ∈ order ↔ archive ∈ archives ∧ marked s archive = false ∧
    ¬ policy.maxCheckpointSize.Below (archiveSize s archive)
  oldest : order.Pairwise (fun a b => modTimeBefore s b a = false)
  least : LeastDrop policy s (pinnedOf s archives) order n
  kept : ∀ path, path ∈ t ↔ path ∈ s ∧
    (path ∈ archives → marked s path = true ∨ path ∈ order.drop n)

/-- No archive that is kept is older than one that is dropped. -/
theorem KeepsNewest.not_older {policy : Policy} {archives : List String} {s t : FS}
    {order : List String} {n : ℕ} (h : KeepsNewest policy archives s t order n) {a b : String}
    (ha : a ∈ order.drop n) (hb : b ∈ order.take n) : modTimeBefore s a b = false := by
  have hsorted := h.oldest
  rw [← List.take_append_drop n order, List.pairwise_append] at hsorted
  exact hsorted.2.2 b hb a ha

/-! ### `sort.Slice` -/

/-- A strict weak order on the elements of a slice. -/
structure StrictWeakOn (less : String → String → Bool) (slice : List String) : Prop where
  asymm : ∀ a ∈ slice, ∀ b ∈ slice, less a b = true → less b a = false
  negTrans : ∀ a ∈ slice, ∀ b ∈ slice, ∀ c ∈ slice,
    less a b = false → less b c = false → less a c = false

/-- `sort.Slice` sorts by a strict weak order. -/
def SortSlice (node : Node) : Prop :=
  ∀ less slice, StrictWeakOn less slice →
    (node.sort less slice).Pairwise (fun a b => less b a = false)

section ModTime
variable {s : FS} {slice : List String} {a b : String}

/-- The modification times decide, where both files are there. -/
theorem modTimeBefore_eq {x y : FileInfo} (ha : s.stat a = some x) (hb : s.stat b = some y) :
    modTimeBefore s a b = decide (x.modTime < y.modTime) := by
  unfold modTimeBefore
  rw [ha, hb]

theorem exists_stat (ha : a ∈ s) : ∃ x, s.stat a = some x := by
  obtain ⟨file, hfile⟩ := Option.isSome_iff_exists.mp (AList.lookup_isSome.mpr ha)
  unfold FS.stat
  rw [hfile]
  exact ⟨_, rfl⟩

theorem strictWeakOn_modTimeBefore (h : ∀ a ∈ slice, a ∈ s) :
    StrictWeakOn (modTimeBefore s) slice := by
  constructor
  · intro a ha b hb hless
    obtain ⟨x, hx⟩ := exists_stat (h a ha)
    obtain ⟨y, hy⟩ := exists_stat (h b hb)
    rw [modTimeBefore_eq hx hy, decide_eq_true_iff] at hless
    rw [modTimeBefore_eq hy hx, decide_eq_false_iff_not]
    omega
  · intro a ha b hb c hc hab hbc
    obtain ⟨x, hx⟩ := exists_stat (h a ha)
    obtain ⟨y, hy⟩ := exists_stat (h b hb)
    obtain ⟨z, hz⟩ := exists_stat (h c hc)
    rw [modTimeBefore_eq hx hy, decide_eq_false_iff_not] at hab
    rw [modTimeBefore_eq hy hz, decide_eq_false_iff_not] at hbc
    rw [modTimeBefore_eq hx hz, decide_eq_false_iff_not]
    omega

end ModTime

/-! ### One order for both rotations -/

theorem takeBySize_initial (sizes : AList (fun _ : String => ℤ)) (archives : List String)
    (excess : ℤ) : takeBySize sizes archives excess <+: archives := by
  induction archives generalizing excess with
  | nil => exact List.prefix_refl []
  | cons archive rest ih =>
    unfold takeBySize
    dsimp only
    split_ifs
    · exact ⟨rest, rfl⟩
    · exact (List.prefix_cons_inj archive).mpr (ih _)

/-- Before every archive that `deleteBySize` deletes the total is over the limit. -/
theorem deletedBySize_over {maxTotalSize : Quantity} {s : FS} {toDelete : List String} {total : ℤ}
    (hle : totalSize s toDelete ≤ total) (htotal : total < 2 ^ 63)
    (hover : maxTotalSize.cmp (.new total) = .lt) :
    ∀ m < (deletedBySize maxTotalSize (archiveSize s) toDelete (.new total)).length,
      maxTotalSize.cmp (.new (total - totalSize s (toDelete.take m))) = .lt := by
  induction toDelete generalizing total with
  | nil => exact fun m hm => absurd hm (Nat.not_lt_zero m)
  | cons archive rest ih =>
    rw [totalSize_cons] at hle
    have hsize := archiveSize_nonneg s archive
    have hrest := totalSize_nonneg s rest
    intro m hm
    cases m with
    | zero => simpa [totalSize] using hover
    | succ m =>
      rw [deletedBySize_cons maxTotalSize rest (by omega) htotal] at hm
      split_ifs at hm with hdone
      · exact absurd hm (by simp)
      · rw [List.take_succ_cons, totalSize_cons, ← sub_sub]
        exact ih (by omega) (by omega) (by simpa using hdone) m (by simpa using hm)

section Order
variable (node : Node) (policy : Policy) (archives : List String) (s : FS)

/-- The candidates, oldest first. -/
def oldestFirst : List String :=
  node.sort (modTimeBefore (unlinkAll (tooLarge policy s archives) s))
    (candidates policy s archives)

theorem oldestFirst_perm :
    (oldestFirst node policy archives s).Perm (candidates policy s archives) :=
  node.sort_perm _ _

variable {node policy archives s}

theorem oldestFirst_pairwise (hsort : SortSlice node)
    (harch : ∀ archive ∈ archives, IsArchive archive) (hin : ∀ archive ∈ archives, archive ∈ s) :
    (oldestFirst node policy archives s).Pairwise (fun a b => modTimeBefore s b a = false) := by
  have hpruned : Pruned s (unlinkAll (tooLarge policy s archives) s) :=
    pruned_unlinkAll (fun a h => harch a (List.filter_subset_self _ h)) s
  have hthere : ∀ a ∈ candidates policy s archives, a ∈ unlinkAll (tooLarge policy s archives) s :=
    fun a ha => mem_unlinkAll_tooLarge harch hin ha
  have hsorted := hsort _ _ (strictWeakOn_modTimeBefore hthere)
  refine hsorted.imp_of_mem (fun {a b} ha hb hab => ?_)
  have hagree := (hpruned.agree hthere).modTimeBefore b
    ((oldestFirst_perm node policy archives s).subset hb)
    a ((oldestFirst_perm node policy archives s).subset ha)
  exact hagree.symm.trans hab

/-- How many archives are too many. -/
def excessCount (policy : Policy) (s : FS) (archives : List String) : ℕ :=
  ((counted policy s archives).length - policy.maxCheckpoints).toNat

/-- The count path takes the oldest candidates. -/
theorem byCount_eq : (byCount node policy archives s).1
    = (oldestFirst node policy archives s).take (excessCount policy s archives) := by
  unfold byCount excessCount oldestFirst
  split_ifs with hover
  · rfl
  · rw [Int.toNat_of_nonpos (by omega), List.take_zero]

/-- The size path finds the same order, unless its sort panics: the count path has removed nothing,
    or there is one candidate at most. -/
theorem secondSort_eq (harch : ∀ archive ∈ archives, IsArchive archive)
    (hin : ∀ archive ∈ archives, archive ∈ s)
    (hover : policy.maxTotalSize.cmp (countedTotal policy archives s) = .lt)
    (hreturns : limitsPanic node policy archives s = false) :
    secondSort node policy archives s = some (oldestFirst node policy archives s) := by
  have hpanics := hreturns
  unfold limitsPanic at hpanics
  rw [decide_eq_true hover, Bool.true_and] at hpanics
  obtain ⟨sorted, hsorted⟩ :=
    Option.isSome_iff_exists.mp (Option.isNone_eq_false_iff.mp hpanics)
  have hperm : sorted.Perm (oldestFirst node policy archives s) :=
    ((Node.sortByTime_perm hsorted).trans (byCount_perm node policy archives s)).trans
      (oldestFirst_perm node policy archives s).symm
  by_cases hmany : policy.maxCheckpoints < (counted policy s archives).length
  · have hfew : (oldestFirst node policy archives s).length < 2 := by
      rw [(oldestFirst_perm node policy archives s).length_eq]
      by_contra htwo
      have htrue := (limitsPanic_iff node harch hin).mpr ⟨hover, hmany, not_lt.mp htwo⟩
      rw [hreturns] at htrue
      exact Bool.false_ne_true htrue
    rw [hsorted, Option.some_inj]
    rcases horder : oldestFirst node policy archives s with - | ⟨archive, - | ⟨next, rest⟩⟩
    · exact List.perm_nil.mp (horder ▸ hperm)
    · exact List.perm_singleton.mp (horder ▸ hperm)
    · rw [horder] at hfew
      exact absurd hfew (by simp)
  · have hnone : byCount node policy archives s = ([], candidates policy s archives) :=
      if_neg hmany
    have hthere : ∀ archive ∈ candidates policy s archives,
        archive ∈ unlinkAll (tooLarge policy s archives) s :=
      fun archive ha => mem_unlinkAll_tooLarge harch hin ha
    rw [secondSort, hnone, List.append_nil, sortByTime_of_mem node hthere]
    rfl

/-- The size path takes the oldest candidates too. -/
theorem bySize_eq (harch : ∀ archive ∈ archives, IsArchive archive)
    (hin : ∀ archive ∈ archives, archive ∈ s) (hfits : totalSize s archives < 2 ^ 63)
    (hreturns : limitsPanic node policy archives s = false) : bySize node policy archives s =
      if policy.maxTotalSize.cmp (.new (totalSize s (counted policy s archives))) = .lt then
        rotated policy archives s (oldestFirst node policy archives s)
      else [] := by
  rw [← countedTotal_eq hfits, bySize]
  split_ifs with hover
  · rw [secondSort_eq harch hin hover hreturns]
    rfl
  · rfl

/-! ### Both rotations together -/

/-- What counts against the limits: the pinned archives and the candidates. -/
theorem counted_perm : (counted policy s archives).Perm
    (pinnedOf s archives ++ candidates policy s archives) := by
  have hpinned : pinnedOf s archives = (counted policy s archives).filter (marked s) := by
    unfold pinnedOf counted
    rw [List.filter_filter]
    refine List.filter_congr (fun archive _ => ?_)
    cases marked s archive <;> simp
  have hrest : candidates policy s archives
      = (counted policy s archives).filter (fun archive => !marked s archive) := by
    unfold candidates counted
    rw [List.filter_filter]
    refine List.filter_congr (fun archive _ => ?_)
    cases marked s archive <;> simp
  rw [hpinned, hrest]
  exact (List.filter_append_perm _ _).symm

theorem totalSize_append (xs ys : List String) :
    totalSize s (xs ++ ys) = totalSize s xs + totalSize s ys := by
  unfold totalSize
  rw [List.map_append, List.sum_append]

/-- What is left when `m` of the candidates are dropped, in numbers. -/
theorem left_of_drop {order : List String} (hperm : order.Perm (candidates policy s archives))
    (m : ℕ) : (pinnedOf s archives ++ order.drop m).length
        = (counted policy s archives).length - min m order.length ∧
      totalSize s (pinnedOf s archives ++ order.drop m)
        = totalSize s (counted policy s archives) - totalSize s (order.take m) := by
  have hcounted : (counted policy s archives).Perm (pinnedOf s archives ++ order) :=
    counted_perm.trans (hperm.symm.append_left _)
  constructor
  · rw [hcounted.length_eq, List.length_append, List.length_append, List.length_drop]
    omega
  · have hsplit : totalSize s order = totalSize s (order.take m) + totalSize s (order.drop m) := by
      rw [← totalSize_append, List.take_append_drop]
    rw [totalSize_perm hcounted, totalSize_append, totalSize_append, hsplit]
    ring

/-- How many archives the size path takes from the front of the order. -/
def excessSizeCount (policy : Policy) (s : FS) (archives order : List String) : ℕ :=
  if policy.maxTotalSize.cmp (.new (totalSize s (counted policy s archives))) = .lt then
    (rotated policy archives s order).length
  else 0

theorem rotated_initial (order : List String) : rotated policy archives s order <+: order :=
  (deletedBySize_initial _ _ _ _).trans (takeBySize_initial _ _ _)

theorem bySize_take (harch : ∀ archive ∈ archives, IsArchive archive)
    (hin : ∀ archive ∈ archives, archive ∈ s) (hfits : totalSize s archives < 2 ^ 63)
    (hreturns : limitsPanic node policy archives s = false) : bySize node policy archives s =
      (oldestFirst node policy archives s).take
        (excessSizeCount policy s archives (oldestFirst node policy archives s)) := by
  rw [bySize_eq harch hin hfits hreturns, excessSizeCount]
  split_ifs
  · exact List.prefix_iff_eq_take.mp (rotated_initial _)
  · rfl

/-- Before every archive that the size path takes, the total is over the limit. -/
theorem below_of_lt_excessSizeCount {order : List String} (hfits : totalSize s archives < 2 ^ 63)
    (hperm : order.Perm (candidates policy s archives)) {m : ℕ}
    (hm : m < excessSizeCount policy s archives order) :
    policy.maxTotalSize.cmp (.new (totalSize s (counted policy s archives)
      - totalSize s (order.take m))) = .lt := by
  unfold excessSizeCount at hm
  split_ifs at hm with hover
  · rw [rotated, countedTotal_eq hfits] at hm
    set total := totalSize s (counted policy s archives)
    set toDelete := takeBySize (sizesOf s (counted policy s archives) ∅) order
      ((Quantity.new total).sub policy.maxTotalSize).value
    have htaken : toDelete <+: order := takeBySize_initial _ _ _
    have htotal : total < 2 ^ 63 :=
      lt_of_le_of_lt (totalSize_le_of_sublist List.filter_sublist) hfits
    have hle : totalSize s toDelete ≤ total := by
      refine (totalSize_le_of_sublist htaken.sublist).trans ?_
      rw [totalSize_perm hperm]
      exact totalSize_le_of_sublist candidates_subset_counted
    have hover' := deletedBySize_over (s := s) hle htotal hover m hm
    have hshort :=
      ((deletedBySize_initial policy.maxTotalSize (archiveSize s) _ _).length_le).trans_lt' hm
    rwa [List.prefix_iff_eq_take.mp htaken, List.take_take, min_eq_left hshort.le] at hover'
  · exact absurd hm (Nat.not_lt_zero m)

/-- The size path gets to the end of the order, or stops within the limit. -/
theorem excessSizeCount_stops {order : List String}
    (hlimit : NonNegLimit policy.maxTotalSize) (hfits : totalSize s archives < 2 ^ 63)
    (hperm : order.Perm (candidates policy s archives)) :
    excessSizeCount policy s archives order = order.length ∨
      policy.maxTotalSize.cmp (.new (totalSize s (counted policy s archives)
        - totalSize s (order.take (excessSizeCount policy s archives order)))) ≠ .lt := by
  unfold excessSizeCount
  split_ifs with hover
  · rw [← List.prefix_iff_eq_take.mp (rotated_initial order)]
    refine (rotated_stops hlimit.1 hlimit.2 hfits hperm hover).imp_left (fun hall => ?_)
    rw [hall]
  · refine Or.inr ?_
    simpa [totalSize] using hover

/-- **The larger of the two numbers is the least that will do.** -/
theorem leastDrop_rotations {order : List String} (hlimit : NonNegLimit policy.maxTotalSize)
    (hfits : totalSize s archives < 2 ^ 63) (hperm : order.Perm (candidates policy s archives)) :
    LeastDrop policy s (pinnedOf s archives) order
      (max (min (excessCount policy s archives) order.length)
        (excessSizeCount policy s archives order)) := by
  have hbelow : ∀ m, policy.maxTotalSize.Below (totalSize s (pinnedOf s archives ++ order.drop m)) ↔
      policy.maxTotalSize.cmp (.new (totalSize s (counted policy s archives)
        - totalSize s (order.take m))) = .lt := by
    intro m
    rw [← (left_of_drop hperm m).2, Quantity.cmp_new_lt_iff hlimit.1 (totalSize_nonneg _ _)]
  have hle : excessSizeCount policy s archives order ≤ order.length := by
    unfold excessSizeCount
    split_ifs
    · exact (rotated_initial order).length_le
    · exact Nat.zero_le _
  have hfew : order.length ≤ (counted policy s archives).length :=
    hperm.length_eq.trans_le candidates_subset_counted.length_le
  have hexcess : excessCount policy s archives
      = ((counted policy s archives).length - policy.maxCheckpoints).toNat := rfl
  constructor
  · rintro m hm ⟨hcount, htotal⟩
    rw [(left_of_drop hperm m).1] at hcount
    rcases lt_max_iff.mp hm with hmany | hsize
    · omega
    · exact htotal ((hbelow m).mpr (below_of_lt_excessSizeCount hfits hperm hsize))
  · set n := max (min (excessCount policy s archives) order.length)
      (excessSizeCount policy s archives order) with hn
    by_cases hall : n = order.length
    · exact .inl hall
    · have hlt : n < order.length := by omega
      refine .inr ⟨hlt, ?_, fun hover => ?_⟩
      · rw [(left_of_drop hperm n).1]
        omega
      · -- the size path has stopped within the limit, and fewer archives stay within it
        rw [hbelow] at hover
        rcases excessSizeCount_stops hlimit hfits hperm with hend | hstop
        · omega
        · refine cmp_totalSize_mono hlimit.1 ?_ ?_ hstop hover
          · rw [← (left_of_drop hperm n).2]
            exact totalSize_nonneg s _
          · have htake : (order.take (excessSizeCount policy s archives order)).Sublist
                (order.take n) := (List.take_prefix_take_left (by omega)).sublist
            have hmono := totalSize_le_of_sublist (s := s) htake
            omega

theorem oversize_iff (hsize : policy.maxCheckpointSize.Representable) {archive : String} :
    oversize policy s archive = true ↔ policy.maxCheckpointSize.Below (archiveSize s archive) := by
  rw [oversize, decide_eq_true_iff, Quantity.cmp_new_lt_iff hsize (archiveSize_nonneg s archive)]

/-- The candidates are neither pinned nor too large. -/
theorem mem_oldestFirst (hsize : policy.maxCheckpointSize.Representable) {archive : String} :
    archive ∈ oldestFirst node policy archives s ↔ archive ∈ archives ∧ marked s archive = false ∧
      ¬ policy.maxCheckpointSize.Below (archiveSize s archive) := by
  rw [(oldestFirst_perm node policy archives s).mem_iff, candidates, List.mem_filter,
    ← oversize_iff hsize]
  simp [and_comm]

/-- Both rotations together take archives from the front. -/
theorem mem_limitRemovals_iff (harch : ∀ archive ∈ archives, IsArchive archive)
    (hin : ∀ archive ∈ archives, archive ∈ s) (hfits : totalSize s archives < 2 ^ 63)
    (hreturns : limitsPanic node policy archives s = false)
    {order : List String} (horder : order = oldestFirst node policy archives s) {path : String} :
    path ∈ limitRemovals node policy archives s ↔
      path ∈ tooLarge policy s archives ∨ path ∈ order.take
        (max (min (excessCount policy s archives) order.length)
          (excessSizeCount policy s archives order)) := by
  subst horder
  set order := oldestFirst node policy archives s
  set k := excessCount policy s archives
  set j := excessSizeCount policy s archives order
  have hcount : (byCount node policy archives s).1 = order.take (min k order.length) := by
    rw [byCount_eq, ← List.take_eq_take_min]
  rw [limitRemovals, List.mem_append, List.mem_append, hcount,
    bySize_take harch hin hfits hreturns, or_assoc]
  refine or_congr_right ⟨fun h => ?_, fun h => ?_⟩
  · rcases h with h | h
    · exact (List.take_prefix_take_left (le_max_left _ _)).subset h
    · exact (List.take_prefix_take_left (le_max_right _ _)).subset h
  · rcases max_choice (min k order.length) j with heq | heq
    · rw [heq] at h
      exact .inl h
    · rw [heq] at h
      exact .inr h

/-- What is not removed of the archives is pinned or among the newest. -/
theorem kept_iff (hsize : policy.maxCheckpointSize.Representable) {order : List String}
    (horder : order = oldestFirst node policy archives s) (hnodup : order.Nodup) {n : ℕ}
    {path : String} :
    ¬ (path ∈ tooLarge policy s archives ∨ path ∈ order.take n) ↔
      (path ∈ archives → marked s path = true ∨ path ∈ order.drop n) := by
  subst horder
  constructor
  · intro hout hpath
    by_cases hmark : marked s path = true
    · exact .inl hmark
    · -- an archive without a marker that is left was not too large and is not among the oldest
      rw [not_or] at hout
      have hsmall : ¬ oversize policy s path = true := fun hlarge =>
        hout.1 (List.mem_filter.mpr ⟨hpath, by simp [hlarge, hmark]⟩)
      rw [oversize_iff hsize] at hsmall
      have hcandidate : path ∈ oldestFirst node policy archives s :=
        (mem_oldestFirst hsize).mpr ⟨hpath, by simpa using hmark, hsmall⟩
      rw [← List.take_append_drop n (oldestFirst node policy archives s),
        List.mem_append] at hcandidate
      exact .inr (hcandidate.resolve_left hout.2)
  · rintro hkept (hlarge | hold)
    · obtain ⟨hpath, hcond⟩ := List.mem_filter.mp hlarge
      simp only [Bool.and_eq_true, Bool.not_eq_true'] at hcond
      rcases hkept hpath with hmark | hdrop
      · exact absurd (hmark.symm.trans hcond.2) (by simp)
      · exact ((mem_oldestFirst hsize).mp (List.mem_of_mem_drop hdrop)).2.2
          ((oversize_iff hsize).mp hcond.1)
    · obtain ⟨hpath, hmark, -⟩ := (mem_oldestFirst hsize).mp (List.mem_of_mem_take hold)
      rcases hkept hpath with hmark' | hdrop
      · exact absurd (hmark'.symm.trans hmark) (by simp)
      · have hdisjoint := hnodup
        rw [← List.take_append_drop n (oldestFirst node policy archives s), List.nodup_append']
          at hdisjoint
        exact hdisjoint.2.2 hold hdrop

end Order

/-! ### The level -/

/-- **One level keeps exactly the newest archives that fit.**  If the limits are positive and the
    archives add up to an `int64`, and unless archives have to go for their number while the total
    is over its limit, a level that does not take its archives for orphans returns and leaves the
    pinned ones and, of the others that are not too large, all but the least number of oldest ones
    that have to go. -/
theorem handleLevel_keepsNewest (node : Node) (lookups : Lookups) (policies : PolicySnapshot)
    (details : CheckpointDetails) (level : Level) (policy : Policy) (s : FS)
    (hsort : SortSlice node) (hactive : policy.active = true)
    (hsize : policy.maxCheckpointSize.Representable) (hlimit : NonNegLimit policy.maxTotalSize)
    (horphans : takenForOrphans node lookups details level policy s = false)
    (hfits : totalSize s (filtered node policies details level s) < 2 ^ 63)
    (hnot_both : policy.maxCheckpoints
        < (counted policy s (filtered node policies details level s)).length →
      policy.maxTotalSize.Below
        (totalSize s (counted policy s (filtered node policies details level s))) →
      (candidates policy s (filtered node policies details level s)).length < 2) :
    (levelOutcome node lookups policies details level policy s).1 = some () ∧
    ∃ order n, KeepsNewest policy (filtered node policies details level s) s
      (handleLevel node lookups policies details level policy s) order n ∧
      ∀ a ∈ order.drop n, ∀ b ∈ order.take n, modTimeBefore s a b = false := by
  set archives := filtered node policies details level s with harchives
  set order := oldestFirst node policy archives s with horder
  have harch : ∀ archive ∈ archives, IsArchive archive :=
    fun archive h => isArchive_of_mem_filtered node h
  have hin : ∀ archive ∈ archives, archive ∈ s := fun archive h => ((mem_filtered node).mp h).2.1
  have hreturns : limitsPanic node policy archives s = false := by
    rw [← Bool.not_eq_true, limitsPanic_iff node harch hin, countedTotal_eq hfits,
      Quantity.cmp_new_lt_iff hlimit.1 (totalSize_nonneg s _)]
    rintro ⟨hbelow, hmany, htwo⟩
    exact absurd (hnot_both hmany hbelow) (not_lt.mpr htwo)
  have hperm : order.Perm (candidates policy s archives) := oldestFirst_perm node policy archives s
  have hnodup : order.Nodup :=
    hperm.nodup_iff.mpr ((filtered_nodup node policies details level s).filter _)
  have hoff : levelPanics node lookups policies details level policy s = false := by
    rw [levelPanics, ← harchives, hreturns, Bool.and_false]
  have hremovals : levelRemovals node lookups policies details level policy s
      = limitRemovals node policy archives s := by
    rw [levelRemovals, if_pos hactive, horphans]
    rfl
  have hkeeps : KeepsNewest policy archives s
      (handleLevel node lookups policies details level policy s) order
      (max (min (excessCount policy s archives) order.length)
        (excessSizeCount policy s archives order)) := by
    refine ⟨hnodup, fun archive => mem_oldestFirst hsize, oldestFirst_pairwise hsort harch hin,
      leastDrop_rotations hlimit hfits hperm, fun path => ?_⟩
    rw [mem_handleLevel, hremovals, mem_limitRemovals_iff harch hin hfits hreturns horder,
      kept_iff hsize horder hnodup]
  refine ⟨?_, order, _, hkeeps, fun a ha b hb => hkeeps.not_older ha hb⟩
  rw [levelOutcome_eq, hoff]
  rfl

/-! ### An insertion sort -/

section InsertionSort
variable {less : String → String → Bool}

/-- Inserting into a sorted slice, by a strict weak order on the elements. -/
theorem orderedInsert_pairwise {a : String} {slice : List String}
    (hweak : StrictWeakOn less (a :: slice))
    (hsorted : slice.Pairwise (fun a b => less b a = false)) :
    (slice.orderedInsert (fun a b => less b a = false) a).Pairwise
      (fun a b => less b a = false) := by
  induction slice with
  | nil => exact List.pairwise_singleton _ _
  | cons b rest ih =>
    rw [List.pairwise_cons] at hsorted
    have hmem : ∀ c ∈ rest, c ∈ a :: b :: rest := fun c hc =>
      List.mem_cons_of_mem _ (List.mem_cons_of_mem _ hc)
    by_cases hab : less b a = false
    · rw [List.orderedInsert_cons, if_pos hab, List.pairwise_cons, List.pairwise_cons]
      refine ⟨fun c hc => ?_, hsorted⟩
      rcases List.mem_cons.mp hc with rfl | hc
      · exact hab
      · exact hweak.negTrans c (hmem c hc) b (by simp) a (by simp) (hsorted.1 c hc) hab
    · rw [List.orderedInsert_cons, if_neg hab, List.pairwise_cons]
      refine ⟨fun c hc => ?_, ih ⟨fun x hx y hy => ?_, fun x hx y hy z hz => ?_⟩ hsorted.2⟩
      · rcases List.mem_cons.mp ((List.perm_orderedInsert _ a rest).subset hc) with rfl | hc
        · exact hweak.asymm b (by simp) c (by simp) (by simpa using hab)
        · exact hsorted.1 c hc
      all_goals
        have hsub : ∀ w ∈ a :: rest, w ∈ a :: b :: rest := fun w hw =>
          (List.mem_cons.mp hw).elim (fun h => h ▸ List.mem_cons_self) (hmem w)
      · exact hweak.asymm x (hsub x hx) y (hsub y hy)
      · exact hweak.negTrans x (hsub x hx) y (hsub y hy) z (hsub z hz)

/-- The insertion sort does what is assumed of `sort.Slice`. -/
theorem sortSlice_stableNode : SortSlice stableNode := by
  intro less slice hweak
  show (slice.insertionSort _).Pairwise _
  induction slice with
  | nil => exact List.Pairwise.nil
  | cons a rest ih =>
    have hsub : ∀ {b : String}, b ∈ rest.insertionSort (fun a b => less b a = false) → b ∈ rest :=
      fun hb => (List.perm_insertionSort _ rest).subset hb
    have hmem : ∀ b ∈ a :: rest.insertionSort (fun a b => less b a = false), b ∈ a :: rest :=
      fun b hb => (List.mem_cons.mp hb).elim (fun h => h ▸ List.mem_cons_self)
        (fun h => List.mem_cons_of_mem a (hsub h))
    refine orderedInsert_pairwise ⟨fun x hx y hy => ?_, fun x hx y hy z hz => ?_⟩
      (ih ⟨fun x hx y hy => ?_, fun x hx y hy z hz => ?_⟩)
    · exact hweak.asymm x (hmem x hx) y (hmem y hy)
    · exact hweak.negTrans x (hmem x hx) y (hmem y hy) z (hmem z hz)
    · exact hweak.asymm x (List.mem_cons_of_mem a hx) y (List.mem_cons_of_mem a hy)
    · exact hweak.negTrans x (List.mem_cons_of_mem a hx) y (List.mem_cons_of_mem a hy) z
        (List.mem_cons_of_mem a hz)

end InsertionSort

/-! ### Levels on files -/

/-- Of two checkpoints the level keeps the newer one. -/
theorem handleLevel_keepsNewest_keepOne : SortSlice stableNode ∧
    keepOne.toPolicy.active = true ∧ keepOne.toPolicy.maxCheckpointSize.Representable ∧
    NonNegLimit keepOne.toPolicy.maxTotalSize ∧
    ∃ order n, KeepsNewest keepOne.toPolicy bothFiles.keys bothFiles
      (handleLevel stableNode running (podPolicy keepOne) webDetails .pod keepOne.toPolicy
        bothFiles) order n := by
  have hlimit : NonNegLimit keepOne.toPolicy.maxTotalSize :=
    nonNegLimit_new (n := 2 ^ 40) (by norm_num) (by norm_num)
  have hsmall : ¬ keepOne.toPolicy.maxTotalSize.Below
      (totalSize bothFiles (counted keepOne.toPolicy bothFiles bothFiles.keys)) := by
    rw [← Quantity.cmp_new_lt_iff hlimit.1 (totalSize_nonneg _ _)]
    decide +kernel
  have hresult := handleLevel_keepsNewest stableNode running (podPolicy keepOne) webDetails .pod
    keepOne.toPolicy bothFiles sortSlice_stableNode (by decide) trivial hlimit rfl
  have hfiltered : filtered stableNode (podPolicy keepOne) webDetails .pod bothFiles
      = bothFiles.keys := by
    decide +kernel
  rw [hfiltered] at hresult
  obtain ⟨-, order, n, hkeeps, -⟩ := hresult (by decide +kernel) (fun _ h => absurd h hsmall)
  exact ⟨sortSlice_stableNode, by decide, trivial, hlimit, order, n, hkeeps⟩

/-- If an archive without a marker is kept, what is kept fits. -/
theorem KeepsNewest.fits {policy : Policy} {archives : List String} {s t : FS} {order : List String}
    {n : ℕ} (h : KeepsNewest policy archives s t order n) {a : String} (ha : a ∈ archives)
    (hmark : marked s a = false) (hkept : a ∈ t) :
    ∃ kept, Fits policy s kept ∧ ∀ b ∈ archives, marked s b = false → b ∈ t → b ∈ kept := by
  have hdrop : ∀ b ∈ archives, marked s b = false → b ∈ t → b ∈ order.drop n := by
    intro b hb hfree hin
    rcases ((h.kept b).mp hin).2 hb with hm | hd
    · exact absurd (hm.symm.trans hfree) (by simp)
    · exact hd
  rcases h.least.enough with hall | ⟨-, hfits⟩
  · have hnone := hdrop a ha hmark hkept
    rw [hall, List.drop_length] at hnone
    exact absurd hnone List.not_mem_nil
  · exact ⟨_, hfits, fun b hb hfree hin => List.mem_append_right _ (hdrop b hb hfree hin)⟩

/-- **The limits panic.**  Of two checkpoints that are too many and too large, with limits of one
    checkpoint and one byte, the older is removed for their number.  The sort for the size then
    compares with a missing file, and the level panics with a checkpoint left, where none fits. -/
theorem limits_panic :
    pressed.toPolicy.active = true ∧ pressed.toPolicy.maxCheckpointSize.Representable ∧
    NonNegLimit pressed.toPolicy.maxTotalSize ∧
    takenForOrphans stableNode running webDetails .pod pressed.toPolicy bothFiles = false ∧
    filtered stableNode (podPolicy pressed) webDetails .pod bothFiles = bothFiles.keys ∧
    totalSize bothFiles bothFiles.keys < 2 ^ 63 ∧
    (levelOutcome stableNode running (podPolicy pressed) webDetails .pod pressed.toPolicy
      bothFiles).1 = none ∧
    laterArchive ∈ handleLevel stableNode running (podPolicy pressed) webDetails .pod
      pressed.toPolicy bothFiles ∧
    ¬ ∃ order n, KeepsNewest pressed.toPolicy bothFiles.keys bothFiles
      (handleLevel stableNode running (podPolicy pressed) webDetails .pod pressed.toPolicy
        bothFiles) order n := by
  have hleft : laterArchive ∈ handleLevel stableNode running (podPolicy pressed) webDetails .pod
      pressed.toPolicy bothFiles := by
    decide +kernel
  have hlimit : NonNegLimit pressed.toPolicy.maxTotalSize :=
    nonNegLimit_new (n := 1) (by norm_num) (by norm_num)
  refine ⟨by decide, trivial, hlimit, rfl, by decide +kernel, by decide +kernel,
    by decide +kernel, hleft, ?_⟩
  rintro ⟨order, n, hkeeps⟩
  have hin : laterArchive ∈ bothFiles.keys := by decide +kernel
  have hmark : marked bothFiles laterArchive = false := by decide +kernel
  obtain ⟨kept, ⟨-, hfits⟩, hkept⟩ := hkeeps.fits hin hmark hleft
  -- what is kept has a checkpoint of 10240 bytes in it
  have hmem : [laterArchive].Subperm kept :=
    List.singleton_subperm_iff.mpr (hkept _ hin hmark hleft)
  have hsize : archiveSize bothFiles laterArchive = 10240 := by decide +kernel
  have hlarge := totalSize_le_of_subperm (s := bothFiles) hmem
  have hone : pressed.toPolicy.maxTotalSize.Below 10240 :=
    (Quantity.cmp_new_lt_iff hlimit.1 (by norm_num)).mp (by decide +kernel)
  rw [totalSize, List.map_singleton, List.sum_singleton, hsize] at hlarge
  exact hfits (hone.mono hlarge)

end CheckpointRestore.Retention
