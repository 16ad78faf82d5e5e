import CheckpointRestore.Forensic.Faulty

namespace CheckpointRestore.Forensic

open Go Interaction

/-!
# The integrity condition

`IntegrityVerified` is set from the round that was captured last, while the records of all rounds
accumulate.

* `Truthful` — the condition is true only if every record is hashed;
* `Reported` — the rounds that keep it so: one that captures anything must itself miss a checksum
  if a record without hash is stored, and must not go unhashed while the condition is true;
* `truthful_of_reported` — it then holds of every status that is stored in a run;
* `clean_round_verifies` — one failed checksum, then a round without failures.
-/

/-! ### What the status says -/

/-- `IntegrityVerified` is true. -/
def Verified (st : Status) : Prop :=
  ∃ reason, verdict st.conditions "IntegrityVerified" = some (.true, reason)

/-- It is true only if every record is hashed. -/
def Truthful (st : Status) : Prop :=
  Verified st → ∀ record ∈ st.records, record.sha256Hash ≠ ""

/-- Storing changes neither side. -/
theorem Truthful.stored {st : Status} (h : Truthful st) : Truthful st.stored := by
  intro hverified record hrecord
  obtain ⟨reason, hreason⟩ := hverified
  obtain ⟨r, hr, rfl⟩ := List.mem_map.mp hrecord
  exact h ⟨reason, by rw [← hreason, Status.stored_verdict]⟩ r hr

/-- Only the condition and the records matter. -/
theorem Truthful.congr {st st' : Status} (h : Truthful st)
    (hverdict : verdict st'.conditions "IntegrityVerified"
      = verdict st.conditions "IntegrityVerified")
    (hrecords : st'.records = st.records) : Truthful st' := by
  intro hverified
  unfold Verified at hverified
  rw [hverdict] at hverified
  rw [hrecords]
  exact h hverified

/-- In a round without failed checksums every record is hashed. -/
theorem Captured.hashed {c : Chain} {round : Round} (h : Captured c round)
    (hon : hashingEnabled c = true) (hok : round.integrityFailed = false) :
    ∀ record ∈ round.newRecords, record.sha256Hash ≠ "" := by
  induction h with
  | start => exact fun record hrecord => absurd hrecord List.not_mem_nil
  | add _ hoff => exact absurd (hon.symm.trans hoff) (by simp)
  | addFailed => exact absurd hok (by simp [Round.addFailed])
  | addHashed _ _ _ _ _ hne ih =>
    intro record hrecord
    rcases List.mem_append.mp hrecord with hrecord | hrecord
    · exact ih hok record hrecord
    · obtain rfl := List.mem_singleton.mp hrecord
      exact hne

/-! ### One reconcile -/

/-- The condition after a round. -/
def integrityAfter (c : Chain) (round : Round) : Option (ConditionStatus × String) :=
  if round.newRecords ≠ [] ∧ hashingEnabled c = true then
    some (if round.integrityFailed then (.false, "HashGenerationFailed")
      else (.true, "HashGenerationSucceeded"))
  else verdict c.status.conditions "IntegrityVerified"

section Turn
variable {c c' : Chain} {tr : List (Event sig)}

/-- A change leaves the condition and the records alone, or is that of a round. -/
theorem Mutation.integrity {mutate : ℤ → ℤ → Status → Status} {after : Option (List PodInfo × ℤ)}
    (h : Mutation c tr mutate after) (t₁ t₂ : ℤ) :
    (verdict (mutate t₁ t₂ c.status).conditions "IntegrityVerified"
          = verdict c.status.conditions "IntegrityVerified" ∧
        (mutate t₁ t₂ c.status).records = c.status.records) ∨
      supported c ∧ Decided tr c false ∧ ∃ listed round, Rounded c tr listed round ∧
        verdict (mutate t₁ t₂ c.status).conditions "IntegrityVerified" = integrityAfter c round ∧
        (mutate t₁ t₂ c.status).records = c.status.records ++ round.newRecords := by
  cases h with
  | unsupported => exact Or.inl ⟨Status.verdict_setReady_of_ne _ (by decide) _ _ _ _, rfl⟩
  | maxDuration => exact Or.inl ⟨Status.verdict_setReady_of_ne _ (by decide) _ _ _ _, rfl⟩
  | roundFailed =>
    unfold Status.roundFailed
    cases givesUp c with
    | true => exact Or.inl ⟨Status.verdict_setReady_of_ne _ (by decide) _ _ _ _, rfl⟩
    | false => exact Or.inl ⟨Status.verdict_setReady_of_ne _ (by decide) _ _ _ _, rfl⟩
  | @roundDone hs hd listed round hr t reason message hcomp =>
    obtain ⟨conditions, errorMessage, heq⟩ :=
      Status.roundDone_eq c.status t round (hashingEnabled c) reason message t₁ t₂
    refine Or.inr ⟨hs, hd, listed, round, hr, ?_, by rw [heq]⟩
    rw [Status.verdict_roundDone]
    simp [integrityAfter]
  | @roundContinue hs hd listed round hr t hcomp =>
    obtain ⟨conditions, errorMessage, heq⟩ :=
      Status.roundContinue_eq c.status t round (hashingEnabled c) t₁ t₂
    refine Or.inr ⟨hs, hd, listed, round, hr, ?_, by rw [heq]⟩
    obtain ⟨ready, hverdict, rfl | ⟨htype, -⟩⟩ := Status.verdict_roundContinue c.status t round
      (hashingEnabled c) t₁ t₂ "IntegrityVerified"
    · rw [hverdict]
      simp [integrityAfter]
    · exact absurd htype (by decide)

/-- The rounds that keep the condition truthful, by what is stored before and by what the cluster
    answers. -/
def Reported (_ : List Reconciled) (c : Chain) (tr : List (Event sig)) : Prop :=
  RecordedRound ⟨c, tr⟩ →
    ∀ listed, Listed tr listed → targets c (listed.filter PodInfo.running) ≠ [] →
      (hashingEnabled c = true → (∃ record ∈ c.status.records, record.sha256Hash = "") →
        ChecksumFailed tr) ∧
      (hashingEnabled c = false → ¬ Verified c.status)

/-- A round that is reported keeps the condition truthful. -/
theorem Rounded.truthful {listed : List PodInfo} {round : Round} (h : Rounded c tr listed round)
    (hreported : ∀ listed, Listed tr listed → targets c (listed.filter PodInfo.running) ≠ [] →
      (hashingEnabled c = true → (∃ record ∈ c.status.records, record.sha256Hash = "") →
        ChecksumFailed tr) ∧ (hashingEnabled c = false → ¬ Verified c.status))
    (hc : Truthful c.status) {st : Status}
    (hverdict : verdict st.conditions "IntegrityVerified" = integrityAfter c round)
    (hrecords : st.records = c.status.records ++ round.newRecords) : Truthful st := by
  by_cases hnew : round.newRecords = []
  · refine hc.congr ?_ (by rw [hrecords, hnew, List.append_nil])
    rw [hverdict, integrityAfter, if_neg (by simp [hnew])]
  -- the round has captured something
  have htargets : targets c (listed.filter PodInfo.running) ≠ [] := by
    intro hnone
    have hpods := h.pods
    rw [hnone, List.map_nil, List.map_eq_nil_iff] at hpods
    exact hnew hpods
  obtain ⟨hon, hoff⟩ := hreported listed ((h.only listed).mpr rfl) htargets
  rintro ⟨reason, hreason⟩
  rw [hverdict, integrityAfter] at hreason
  cases hhash : hashingEnabled c with
  | false =>
    rw [if_neg (by simp [hhash])] at hreason
    exact absurd ⟨reason, hreason⟩ (hoff hhash)
  | true =>
    rw [if_pos ⟨hnew, hhash⟩, Option.some.injEq] at hreason
    have hok : round.integrityFailed = false := by
      by_contra hfailed
      rw [if_pos (by simpa using hfailed)] at hreason
      exact absurd (congrArg Prod.fst hreason) (by simp)
    rw [hrecords]
    intro record hrecord
    rcases List.mem_append.mp hrecord with hold | hnew
    · intro hunhashed
      have hfailed := h.integrity.mpr (hon hhash ⟨record, hold, hunhashed⟩)
      exact absurd (hok.symm.trans hfailed) (by simp)
    · exact h.captured.hashed hhash hok record hnew

/-- The step lemma. -/
theorem Turn.truthful (h : Turn c tr c') {past : List Reconciled} (hok : Reported past c tr)
    (hc : Truthful c.status) : Truthful c'.status := by
  cases h with
  | idle _ heq => rwa [heq]
  | toPending _ _ _ t₁ t₂ heq =>
    rw [heq]
    exact (hc.congr (Status.verdict_setReady_of_ne _ (by decide) _ _ _ _) rfl).stored
  | toRunning _ _ _ t₁ heq =>
    rw [heq]
    exact (hc.congr (Status.verdict_setReady_of_ne _ (by decide) _ _ _ _) rfl).stored
  | update hw hp hm t₁ t₂ heq =>
    rw [heq]
    rcases hm.integrity t₁ t₂ with ⟨hverdict, hrecords⟩ | ⟨hs, hd, listed, round, hr, hverdict,
      hrecords⟩
    · exact (hc.congr hverdict hrecords).stored
    · exact (hr.truthful (hok ⟨hp, hs, hd, hr.unfailed, hw⟩) hc hverdict hrecords).stored

end Turn

/-! ### Runs -/

/-- **The integrity condition is truthful** in every status that is stored in a run whose rounds
    are all reported, during the reconciles and after them. -/
theorem truthful_of_reported {c₀ c c' : Chain} {past : List Reconciled} {tr : List (Event sig)}
    {o : Outcome} (h0 : Truthful c₀.status) (h : History Reported c₀ past c)
    (hok : Reported past c tr) (hr : Runs faultyAct reconcile c tr o c')
    {pre post : List (Event sig)} (htr : tr = pre ++ post) :
    Truthful (replay c pre).status := by
  have hc : Truthful c.status :=
    h.invariant (I := fun _ c => Truthful c.status) h0
      (fun past c tr c' hI hok hturn => hturn.truthful hok hI) (fun _ _ _ _ hI => hI)
  rcases stored_of_runs hr htr with hstored | hstored
  · rwa [hstored]
  · rw [hstored]
    exact (reconcile_turn hr).truthful hok hc

/-- Hash two snapshots. -/
def twoHashesChain : Chain :=
  evidenceChain { interval := none, maxSnapshots := some 2, maxDuration := none } "sha256" .none

/-- One pod at a time in seconds, with the outcome of the helper pod. -/
def helperAt (seconds : ℕ) (logs : Except String Logs) : Cluster where
  tick := seconds * 10 ^ 9
  pods := [{ name := "web", nodeName := "n1", running := true, containers := ["app"] }]
  checkpoint container := .ok ("/var/lib/kubelet/checkpoints/" ++ container ++ ".tar")
  logs _ := logs

/-- The helper pod prints the checksum. -/
def checksum : Except String Logs := .ok ⟨["a1b2  app.tar"], none⟩

/-- Two phase changes, a round whose helper pod leaves `logs`, and a minute later a round with a
    checksum. -/
def twoRounds (logs : Except String Logs) : List Cluster :=
  [helperAt 0 logs, helperAt 0 logs, helperAt 0 logs, helperAt 60 checksum]

/-- Without a stored record that is not hashed, a round of a hashing chain is reported. -/
theorem reported_of_hashed {past : List Reconciled} {c : Chain} {tr : List (Event sig)}
    (hon : hashingEnabled c = true) (h : ∀ record ∈ c.status.records, record.sha256Hash ≠ "") :
    Reported past c tr := by
  intro _ listed _ _
  refine ⟨fun _ hex => ?_, fun hoff => absurd (hon.symm.trans hoff) (by simp)⟩
  obtain ⟨record, hrecord, hunhashed⟩ := hex
  exact absurd hunhashed (h record hrecord)

/-- Two rounds with checksums. -/
theorem truthful_of_reported_twoRounds :
    let c := (reconciles twoHashesChain ((twoRounds checksum).take 3)).2
    Verified c.status ∧ Truthful (replay c ((helperAt 60 checksum).turnTrace c)).status := by
  refine ⟨⟨_, rfl⟩, truthful_of_reported (fun _ record hrecord => absurd hrecord List.not_mem_nil)
    (History.reconciles twoHashesChain ((twoRounds checksum).take 3) ?_)
    (reported_of_hashed rfl (by decide)) ((helperAt 60 checksum).runs _) (List.append_nil _).symm⟩
  intro i cl hcl
  rcases i with _ | _ | _ | i
  · exact reported_of_hashed rfl (by decide)
  · exact reported_of_hashed rfl (by decide)
  · exact reported_of_hashed rfl (by decide)
  · exact absurd hcl (by simp [twoRounds])

/-- A failed checksum, then a round without failures: the condition is true and a record has no
    hash. -/
theorem clean_round_verifies : ∃ past c,
    History (fun _ _ tr => ∀ e ∈ tr, served e = true) twoHashesChain past c ∧
    Verified c.status ∧ ∃ record ∈ c.status.records, record.sha256Hash = "" :=
  ⟨_, _, History.reconciles twoHashesChain (twoRounds (.error "helper pod timed out"))
    (fun _ cl _ => cl.served_turnTrace _), ⟨_, rfl⟩, by decide⟩

end CheckpointRestore.Forensic
