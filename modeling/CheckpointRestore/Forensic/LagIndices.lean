import CheckpointRestore.Forensic.CacheLag

namespace CheckpointRestore.Forensic

open Go Interaction

/-!
# Record indices through a lagging cache

The indices of a round and the decision to stop come from the version read first, while the
records and the count of the round go onto the version that is re-read.  The two fit as long as
a running version that is read first has as many records and snapshots as the newest one.

* `Indexed`, `Limited` — every index is a position, and the count stays within the limit;
* `Current` — the first reads that keep it so;
* `indices_of_current` — both laws, in every run of such reconciles;
* `stale_read_repeats_index` — a stale first read repeats an index and passes the limit.
-/

/-! ### What a round appends -/

/-- The index of every record is its position, as an `int32` holds it. -/
def Indexed (records : List Record) : Prop :=
  ∀ (i : ℕ) (record : Record), records[i]? = some record → record.index = wrap32 i

/-- The number of snapshots is within the limit, and an open chain has not reached it. -/
structure Limited (limit : ℤ) (st : Status) : Prop where
  nonneg : 0 ≤ st.snapshotCount
  le : st.snapshotCount ≤ limit
  below : st.phase.terminal = false → st.snapshotCount < limit

theorem Indexed.append {records new : List Record} (h : Indexed records)
    (hnew : ∀ (i : ℕ) (record : Record), new[i]? = some record →
      record.index = wrap32 (records.length + i)) :
    Indexed (records ++ new) := by
  intro i record hi
  rcases lt_or_ge i records.length with hlt | hge
  · rw [List.getElem?_append_left hlt] at hi
    exact h i record hi
  · rw [List.getElem?_append_right hge] at hi
    rw [hnew _ record hi]
    congr 1
    omega

/-- Storing keeps the indices. -/
theorem Indexed.stored {st : Status} (h : Indexed st.records) : Indexed st.stored.records := by
  intro i record hi
  change (st.records.map _)[i]? = some record at hi
  rw [List.getElem?_map, Option.map_eq_some_iff] at hi
  obtain ⟨r, hr, rfl⟩ := hi
  exact h i r hr

variable {c : Chain}

/-- A captured round is numbered on from the records of the version that was read. -/
theorem Captured.index {round : Round} (h : Captured c round) :
    ∀ (i : ℕ) (record : Record), round.newRecords[i]? = some record →
      record.index = wrap32 (c.status.records.length + i) := by
  -- each record takes the number of those before it
  have hsnoc : ∀ (round : Round) (record : Record),
      (∀ (i : ℕ) (r : Record), round.newRecords[i]? = some r →
        r.index = wrap32 (c.status.records.length + i)) →
      record.index = wrap32 (c.status.records.length + round.newRecords.length) →
      ∀ (i : ℕ) (r : Record), (round.newRecords ++ [record])[i]? = some r →
        r.index = wrap32 (c.status.records.length + i) := by
    intro round record hround hrecord i r hi
    rcases lt_or_ge i round.newRecords.length with hlt | hge
    · rw [List.getElem?_append_left hlt] at hi
      exact hround i r hi
    · rw [List.getElem?_append_right hge] at hi
      have hlt : i - round.newRecords.length < 1 := (List.getElem?_eq_some_iff.mp hi).1
      obtain rfl := List.mem_singleton.mp (List.mem_of_getElem? hi)
      obtain rfl : i = round.newRecords.length := by omega
      exact hrecord
  induction h with
  | start => exact fun i record hi => absurd hi (by simp [Round.start])
  | @add round _ _ target path t ih =>
    exact hsnoc round (newRecord c round target path t) ih (by simp only [newRecord])
  | @addFailed round _ _ target path t e ih =>
    exact hsnoc round (newRecord c round target path t) ih (by simp only [newRecord])
  | @addHashed round _ _ target path t hash _ ih =>
    exact hsnoc round { newRecord c round target path t with
      previousSHA256Hash := round.previousHash, sha256Hash := hash } ih (by simp only [newRecord])

section Mutation
variable {c : Chain} {tr : List (Event sig)} {mutate : ℤ → ℤ → Status → Status}
  {after : Option (List PodInfo × ℤ)} {st : Status}

/-- A change keeps the indices of a status with as many records as the version read first. -/
theorem Mutation.indexed (h : Mutation c tr mutate after)
    (hlength : c.status.records.length = st.records.length) (hst : Indexed st.records)
    (t₁ t₂ : ℤ) : Indexed (mutate t₁ t₂ st).records := by
  cases h with
  | unsupported => exact hst
  | maxDuration => exact hst
  | @roundFailed _ _ _ _ msg _ =>
    obtain ⟨conditions, completionTime, heq⟩ := Status.roundFailed_eq st msg (givesUp c) t₁ t₂
    rw [heq]
    exact hst
  | @roundDone _ _ _ round hr t reason message _ =>
    obtain ⟨conditions, errorMessage, heq⟩ :=
      Status.roundDone_eq st t round (hashingEnabled c) reason message t₁ t₂
    rw [heq]
    exact hst.append (by rw [← hlength]; exact hr.captured.index)
  | @roundContinue _ _ _ round hr t _ =>
    obtain ⟨conditions, errorMessage, heq⟩ :=
      Status.roundContinue_eq st t round (hashingEnabled c) t₁ t₂
    rw [heq]
    exact hst.append (by rw [← hlength]; exact hr.captured.index)

/-- A change keeps a status with as many snapshots as the version read first within the limit. -/
theorem Mutation.limited (h : Mutation c tr mutate after) {limit : ℤ}
    (hmax : c.spec.capture.maxSnapshots = some limit) (hhigh : limit < 2 ^ 31)
    (hbelow : c.status.snapshotCount < limit)
    (hcount : c.status.snapshotCount = st.snapshotCount) (hst : Limited limit st) (t₁ t₂ : ℤ) :
    Limited limit (mutate t₁ t₂ st) := by
  have hnonneg := hst.nonneg
  -- the count after a round, on either version
  have hafter : ∀ round : Round, (st.countRound 0 round.captured).snapshotCount
      = countAfter c round := by
    intro round
    show (if round.captured > 0 then wrap32 (st.snapshotCount + 1) else st.snapshotCount) = _
    rw [← hcount]
    rfl
  have hrange : ∀ round : Round, 0 ≤ countAfter c round ∧ countAfter c round ≤ limit := by
    intro round
    unfold countAfter
    rw [wrap32_eq (by omega) (by omega)]
    split <;> omega
  cases h with
  | unsupported =>
    exact ⟨hst.nonneg, hst.le, fun hopen => absurd hopen (by
      simp [Status.failUnsupported, Status.setReady, Phase.terminal])⟩
  | maxDuration =>
    exact ⟨hst.nonneg, hst.le, fun hopen => absurd hopen (by
      simp [Status.maxDurationReached, Status.setReady, Phase.terminal])⟩
  | @roundFailed _ _ _ _ msg _ =>
    obtain ⟨conditions, completionTime, heq⟩ := Status.roundFailed_eq st msg (givesUp c) t₁ t₂
    rw [heq]
    exact ⟨hst.nonneg, hst.le, fun _ => by rw [← hcount]; exact hbelow⟩
  | @roundDone _ _ _ round hr t reason message _ =>
    obtain ⟨conditions, errorMessage, heq⟩ :=
      Status.roundDone_eq st t round (hashingEnabled c) reason message t₁ t₂
    have hsnapshots : (st.roundDone t round (hashingEnabled c) reason message t₁ t₂).snapshotCount
        = countAfter c round := by rw [heq]; exact hafter round
    refine ⟨by rw [hsnapshots]; exact (hrange round).1, by rw [hsnapshots]; exact (hrange round).2,
      fun hopen => ?_⟩
    rw [heq] at hopen
    exact absurd hopen (by simp [Phase.terminal])
  | @roundContinue _ _ _ round hr t hcomp =>
    obtain ⟨conditions, errorMessage, heq⟩ :=
      Status.roundContinue_eq st t round (hashingEnabled c) t₁ t₂
    have hsnapshots : (st.roundContinue t round (hashingEnabled c) t₁ t₂).snapshotCount
        = countAfter c round := by rw [heq]; exact hafter round
    refine ⟨by rw [hsnapshots]; exact (hrange round).1, by rw [hsnapshots]; exact (hrange round).2,
      fun _ => ?_⟩
    rw [hsnapshots]
    exact countAfter_lt_of_completion hcomp hmax

end Mutation

/-! ### The invariant -/

/-- The version has as many records and as many snapshots as the newest one. -/
def Agrees (c newest : Chain) : Prop :=
  c.status.records.length = newest.status.records.length ∧
    c.status.snapshotCount = newest.status.snapshotCount

/-- The side condition of the runs in which the indices are positions: the first read of a
    reconcile returns no running version that is behind the newest one. -/
def Current (b : Pool sig Outcome Store) (l : Label sig Outcome) : Prop :=
  Latest b l ∧ StartsWith Agrees b l

/-- What holds of the stored versions. -/
structure IndexInv (versions : List Chain) : Prop where
  indexed : ∀ c ∈ versions, Indexed c.status.records
  limited : ∀ limit, 1 ≤ limit → limit < 2 ^ 31 →
    (∀ c ∈ versions, c.spec.capture.maxSnapshots = some limit) →
    ∀ c ∈ versions, Limited limit c.status

variable {tr : List (Event sig)} {newest : Chain} {p : Prog sig Outcome}

section Steps
variable {s : Store} {ts : List (Thread sig Outcome)} {versions : List Chain}

/-- Another version is stored. -/
theorem IndexInv.concat (h : IndexInv versions) (hindexed : Indexed c.status.records)
    (hlimited : ∀ limit, 1 ≤ limit → limit < 2 ^ 31 →
      (∀ c ∈ versions, c.spec.capture.maxSnapshots = some limit) → Limited limit c.status) :
    IndexInv (versions ++ [c]) := by
  constructor
  · intro c' hc'
    rcases List.mem_append.mp hc' with hc' | hc'
    · exact h.indexed c' hc'
    · obtain rfl := List.mem_singleton.mp hc'
      exact hindexed
  · intro limit hlow hhigh hmax c' hc'
    have hold : ∀ c ∈ versions, c.spec.capture.maxSnapshots = some limit :=
      fun c hc => hmax c (List.mem_append_left _ hc)
    rcases List.mem_append.mp hc' with hc' | hc'
    · exact h.limited limit hlow hhigh hold c' hc'
    · obtain rfl := List.mem_singleton.mp hc'
      exact hlimited limit hlow hhigh hold

/-- An edit by another writer: the status stays. -/
theorem IndexInv.edit {s' : Store} (h : IndexInv s.versions) (he : edit s s') :
    IndexInv s'.versions := by
  obtain ⟨newest, c, hlast, hstatus, hrv, rfl⟩ := he
  have hmem : newest ∈ s.versions := List.mem_of_getLast? hlast
  refine h.concat ?_ ?_
  · rw [hstatus]
    exact h.indexed newest hmem
  · intro limit hlow hhigh hmax
    rw [hstatus]
    exact h.limited limit hlow hhigh hmax newest hmem

/-- A status that goes through fits: it changes the newest version, which agrees with the one
    that was read first. -/
theorem IndexInv.fits (h : IndexInv s.versions) (hread : ReadInv Agrees ⟨s, ts ++ [⟨tr, p⟩]⟩)
    (hspec : Specified tr (Op.statusUpdate c)) (hlast : s.versions.getLast? = some newest)
    (hrv : c.resourceVersion = newest.resourceVersion) :
    Indexed c.status.records ∧ ∀ limit, 1 ≤ limit → limit < 2 ^ 31 →
      (∀ c ∈ s.versions, c.spec.capture.maxSnapshots = some limit) → Limited limit c.status := by
  obtain ⟨hnot, c₀, hbegan, hwrites⟩ := hspec
  have hstored : ∀ v, ⟨Op.get, GetReply.found v⟩ ∈ tr → v ∈ s.versions :=
    hread.read ⟨tr, p⟩ (List.mem_append_right _ (List.mem_singleton.mpr rfl))
  have hmem : newest ∈ s.versions := List.mem_of_getLast? hlast
  -- a stored version with the newest number is the newest one
  have hnewest : ∀ v ∈ s.versions, v.resourceVersion = newest.resourceVersion → v = newest := by
    intro v hv hnumber
    rcases rel_newest hread.numbered hlast hv with rfl | hlt
    · rfl
    · omega
  cases hwrites with
  | toPending hp _ t₁ t₂ | toRunning hp _ t₁ =>
    obtain rfl := hnewest c₀ (hstored c₀ hbegan.mem) hrv
    refine ⟨h.indexed c₀ hmem, fun limit hlow hhigh hmax => ?_⟩
    have hc₀ := h.limited limit hlow hhigh hmax c₀ hmem
    exact ⟨hc₀.nonneg, hc₀.le, fun _ => hc₀.below (by rw [hp]; rfl)⟩
  | @update hp latest mutate after hu t₁ t₂ =>
    obtain ⟨pre, rest, rfl, -, hlatest, hm⟩ := hu
    obtain rfl := hnewest latest (hstored latest (List.mem_append_right _ hlatest)) hrv
    obtain ⟨hlength, hcount⟩ := hread.start ⟨pre ++ rest, p⟩ c₀ latest
      List.getLast?_concat ⟨hbegan, hnot⟩ hp hlast
    refine ⟨hm.indexed hlength (h.indexed latest hmem) t₁ t₂, fun limit hlow hhigh hmax => ?_⟩
    have hc₀ := hstored c₀ hbegan.mem
    have hbelow := (h.limited limit hlow hhigh hmax c₀ hc₀).below (by rw [hp]; rfl)
    have hlimited := hm.limited (hmax c₀ hc₀) hhigh hbelow hcount
      (h.limited limit hlow hhigh hmax latest hmem) t₁ t₂
    exact ⟨hlimited.nonneg, hlimited.le, hlimited.below⟩

end Steps

/-! ### Whole runs -/

/-- The step lemma. -/
theorem IndexInv.step {b b' : Pool sig Outcome Store} {l : Label sig Outcome}
    (hread : ReadInv Agrees b) (h : IndexInv b.shared.versions) (hs : LagStep b l b') :
    IndexInv b'.shared.versions := by
  cases hs with
  | spawn => exact h
  | edit he => exact h.edit he
  | quiet hversions =>
    show IndexInv (Store.versions _)
    rw [hversions]
    exact h
  | write hspec hlast hrv =>
    obtain ⟨hindexed, hlimited⟩ := h.fits hread hspec hlast hrv
    refine h.concat hindexed.stored (fun limit hlow hhigh hmax => ?_)
    have hst := hlimited limit hlow hhigh hmax
    exact ⟨hst.nonneg, hst.le, hst.below⟩

/-- A new chain. -/
theorem IndexInv.init {c₀ : Chain} (h0 : c₀.status = Status.zero) : IndexInv [c₀] := by
  constructor
  · intro c hc
    obtain rfl := List.mem_singleton.mp hc
    rw [h0]
    exact fun i record hi => absurd hi (by simp [Status.zero])
  · intro limit hlow _ _ c hc
    obtain rfl := List.mem_singleton.mp hc
    rw [h0]
    exact ⟨le_rfl, by show 0 ≤ limit; omega, fun _ => by show 0 < limit; omega⟩

/-- **Indices are positions and the limit holds**, in every run in which no reconcile starts from
    a running version that is behind the newest one. -/
theorem indices_of_current {c₀ : Chain} (h0 : c₀.status = Status.zero)
    {b : Pool sig Outcome Store} (h : Reaches lagWorld Current ⟨⟨[c₀], 0⟩, []⟩ b) :
    (∀ c ∈ b.shared.versions, Indexed c.status.records) ∧
    ∀ limit, 1 ≤ limit → limit < 2 ^ 31 →
      (∀ c ∈ b.shared.versions, c.spec.capture.maxSnapshots = some limit) →
      ∀ c ∈ b.shared.versions, c.status.snapshotCount ≤ limit := by
  have hread : ∀ b, Reaches lagWorld Current ⟨⟨[c₀], 0⟩, []⟩ b → ReadInv Agrees b :=
    fun b => readInv_of_reaches Agrees (fun _ _ _ hst hagrees => by rwa [Agrees, hst])
  have hinv : IndexInv b.shared.versions := h.invariant (I := fun b => IndexInv b.shared.versions)
    (IndexInv.init h0)
    (fun b l c hr hI hok hs => hI.step (hread b hr) (lagStep_of_step hr hok.1 hs))
  exact ⟨hinv.indexed, fun limit hlow hhigh hmax c hc =>
    (hinv.limited limit hlow hhigh hmax c hc).le⟩

/-- Four reconciles that read the newest version, with two snapshots allowed. -/
theorem indices_of_current_twoRecords :
    (∃ c ∈ (deletingStore 2 4).versions, c.status.records.length = 2) ∧
    (∀ c ∈ (deletingStore 2 4).versions, Indexed c.status.records) ∧
    ∀ c ∈ (deletingStore 2 4).versions, c.status.snapshotCount ≤ 2 := by
  have hrun : Reaches lagWorld Current ⟨⟨[deletingChain 2], 0⟩, []⟩
      ⟨deletingStore 2 4, deletingThreads 2 4⟩ := deletingRun Agrees (fun _ _ => ⟨rfl, rfl⟩) 2 4
  obtain ⟨hindexed, hlimited⟩ := indices_of_current rfl hrun
  exact ⟨by decide, hindexed, hlimited 2 (by decide) (by decide) (by decide)⟩

/-- A stale first read repeats an index and passes the limit of one snapshot. -/
theorem stale_read_repeats_index : ∃ b : Pool sig Outcome Store,
    Reaches lagWorld Latest ⟨⟨[deletingChain 1], 0⟩, []⟩ b ∧
    (∀ c ∈ b.shared.versions, c.spec.capture.maxSnapshots = some 1) ∧
    ∃ c ∈ b.shared.versions, ¬ Indexed c.status.records ∧ c.status.snapshotCount = 2 := by
  refine ⟨_, staleRun, by decide, staleStore.versions.getLast?.getD (deletingChain 1), by decide,
    fun h => ?_, by decide⟩
  have hindex := h 1 _ rfl
  exact absurd hindex (by decide)

end CheckpointRestore.Forensic
