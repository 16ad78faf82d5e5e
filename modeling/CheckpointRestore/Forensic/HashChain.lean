import CheckpointRestore.Forensic.Sequential

namespace CheckpointRestore.Forensic

open Go Interaction

/-!
# The hash chain of a forensic capture

Every hashed record is to link to the nearest hashed record before it.  Inside a round the
link is carried by a local variable; a new round seeds it from the last persisted record,
hashed or not.  So the chain is unbroken as long as every round starts with a last record
that is hashed, or with no hashed record at all (`Linkable`), and it breaks otherwise.

* `HashChained` — the chain property, over positions;
* `captured_hashChained` — a round that starts linkable extends the chain;
* `hashChained_of_linkable` — the property in every run whose rounds all start linkable;
* `hashChain_breaks` — a run in which one failed checksum breaks the chain.
-/

/-! ### Chained records -/

/-- The hash of the last hashed record, empty if there is none. -/
def lastHash (records : List Record) : String :=
  match (records.filter (fun r => r.sha256Hash ≠ "")).getLast? with
  | none => ""
  | some r => r.sha256Hash

/-- Every hashed record carries the hash of the nearest hashed record before it, and the
    first one carries the empty string. -/
def HashChained (records : List Record) : Prop :=
  ∀ (i : ℕ) (r : Record), records[i]? = some r → r.sha256Hash ≠ "" →
    r.previousSHA256Hash = lastHash (records.take i)

/-- A new round finds the right link: the last record is hashed, or no record is. -/
def Linkable (records : List Record) : Prop :=
  (∃ r, records.getLast? = some r ∧ r.sha256Hash ≠ "") ∨ ∀ r ∈ records, r.sha256Hash = ""

theorem lastHash_concat (records : List Record) (r : Record) :
    lastHash (records ++ [r]) = if r.sha256Hash ≠ "" then r.sha256Hash else lastHash records := by
  by_cases h : r.sha256Hash = "" <;> simp [lastHash, h]

/-- Appending one record: it has to link if it is hashed. -/
theorem hashChained_concat {records : List Record} {r : Record} (h : HashChained records)
    (hr : r.sha256Hash ≠ "" → r.previousSHA256Hash = lastHash records) :
    HashChained (records ++ [r]) := by
  intro i x hi hx
  by_cases hlt : i < records.length
  · rw [List.getElem?_append_left hlt] at hi
    rw [List.take_append_of_le_length hlt.le]
    exact h i x hi hx
  · -- the position of the new record
    have hlen : i < (records ++ [r]).length := (List.getElem?_eq_some_iff.mp hi).1
    have hi' : i = records.length := by
      rw [List.length_append, List.length_singleton] at hlen
      omega
    subst hi'
    rw [List.getElem?_concat_length, Option.some.injEq] at hi
    subst hi
    rw [List.take_left']
    · exact hr hx
    · rfl

/-- A change that keeps the hashes keeps the chain. -/
theorem hashChained_map {records : List Record} {f : Record → Record}
    (hf : ∀ r, (f r).sha256Hash = r.sha256Hash ∧ (f r).previousSHA256Hash = r.previousSHA256Hash)
    (h : HashChained records) : HashChained (records.map f) := by
  have hlast : ∀ l : List Record, lastHash (l.map f) = lastHash l := by
    intro l
    induction l using List.reverseRecOn with
    | nil => rfl
    | append_singleton l r ih =>
      rw [List.map_append, List.map_singleton, lastHash_concat, lastHash_concat, ih, (hf r).1]
  intro i r hi hr
  rw [List.getElem?_map, Option.map_eq_some_iff] at hi
  obtain ⟨r₀, hi, rfl⟩ := hi
  rw [(hf r₀).1] at hr
  rw [(hf r₀).2, ← List.map_take, hlast]
  exact h i r₀ hi hr

/-- Storing truncates times only. -/
theorem hashChained_stored {st : Status} (h : HashChained st.records) :
    HashChained st.stored.records :=
  hashChained_map (fun _ => ⟨rfl, rfl⟩) h

/-! ### One round -/

/-- The seed of a linkable round is the last hash. -/
theorem start_previousHash {chain : Chain} (h : Linkable chain.status.records) :
    (Round.start chain).previousHash = lastHash chain.status.records := by
  show (match chain.status.records.getLast? with
    | none => ""
    | some record => record.sha256Hash) = _
  rcases List.eq_nil_or_concat chain.status.records with hnil | ⟨init, r, hr⟩
  · rw [hnil]; rfl
  · rw [List.concat_eq_append] at hr
    rw [hr] at h ⊢
    rw [List.getLast?_concat, lastHash_concat]
    split_ifs with hhash
    · rfl
    · -- the last record is not hashed, so none is
      rw [not_not] at hhash
      rcases h with ⟨r', hr', hne⟩ | hall
      · rw [List.getLast?_concat, Option.some.injEq] at hr'
        exact absurd (hr' ▸ hhash) hne
      · show r.sha256Hash = _
        rw [hhash]
        have hfilter : init.filter (fun r => r.sha256Hash ≠ "") = [] := by
          rw [List.filter_eq_nil_iff]
          intro x hx
          simpa using hall x (by simp [hx])
        rw [lastHash, hfilter]
        rfl

/-- **A linkable round extends the chain.**  By induction on the captured records: the local
    variable always holds the last hash of everything recorded so far. -/
theorem captured_hashChained {chain : Chain} {round : Round} (hr : Captured chain round)
    (hlink : Linkable chain.status.records) (h : HashChained chain.status.records) :
    HashChained (chain.status.records ++ round.newRecords) ∧
      round.previousHash = lastHash (chain.status.records ++ round.newRecords) := by
  induction hr with
  | start =>
    show HashChained (chain.status.records ++ []) ∧ _ = lastHash (chain.status.records ++ [])
    rw [List.append_nil]
    exact ⟨h, start_previousHash hlink⟩
  | @add round _ hoff target path t ih =>
    show HashChained (chain.status.records ++ (round.newRecords ++ [_])) ∧
      round.previousHash = lastHash (chain.status.records ++ (round.newRecords ++ [_]))
    rw [← List.append_assoc, lastHash_concat, if_neg (by simp [newRecord])]
    exact ⟨hashChained_concat ih.1 (fun hne => absurd rfl hne), ih.2⟩
  | @addFailed round _ hon target path t e ih =>
    show HashChained (chain.status.records ++ (round.newRecords ++ [_])) ∧
      round.previousHash = lastHash (chain.status.records ++ (round.newRecords ++ [_]))
    rw [← List.append_assoc, lastHash_concat, if_neg (by simp [newRecord])]
    exact ⟨hashChained_concat ih.1 (fun hne => absurd rfl hne), ih.2⟩
  | @addHashed round _ hon target path t hash hne ih =>
    show HashChained (chain.status.records ++ (round.newRecords ++ [_])) ∧
      hash = lastHash (chain.status.records ++ (round.newRecords ++ [_]))
    rw [← List.append_assoc, lastHash_concat, if_pos hne]
    exact ⟨hashChained_concat ih.1 (fun _ => ih.2), rfl⟩

/-! ### Whole runs -/

/-- A reconcile of a running chain finds linkable records. -/
def StartsLinkable (w : World) : Prop :=
  w.chain.status.phase = .running → Linkable w.chain.status.records

/-- The step lemma. -/
theorem exit_hashChained {w w' : World} (h : HashChained w.chain.status.records)
    (hok : StartsLinkable w) (hexit : Exit w w') : HashChained w'.chain.status.records := by
  -- the exits that append no record
  have hkeep : ∀ st : Status, st.records = w.chain.status.records →
      HashChained st.stored.records := by
    intro st hst
    apply hashChained_stored
    rw [hst]
    exact h
  -- those that append a round
  have hround : ∀ (round : Round) (st : Status), w.chain.status.phase = .running →
      Captured w.chain round → st.records = w.chain.status.records ++ round.newRecords →
      HashChained st.stored.records := by
    intro round st hp hr hst
    apply hashChained_stored
    rw [hst]
    exact (captured_hashChained hr (hok hp) h).1
  cases hexit with
  | idle hc hl => rw [hc]; exact h
  | pending hp t₁ t₂ hc hl => rw [hc]; exact hkeep _ rfl
  | running hp t₁ hc hl => rw [hc]; exact hkeep _ rfl
  | unsupported hp hu t₁ t₂ hc hl =>
    rw [hc, Chain.update_records]
    exact hkeep _ rfl
  | maxDuration hp hs hd t₁ t₂ hc =>
    rw [hc, Chain.update_records]
    exact hkeep _ rfl
  | roundFailed hp hs msg t₁ t₂ hc hl =>
    obtain ⟨conditions, completionTime, heq⟩ :=
      Status.roundFailed_eq w.chain.status msg (givesUp w.chain) t₁ t₂
    rw [hc, Chain.update_records, heq]
    exact hkeep _ rfl
  | @roundDone hp hs round hr t reason message hcomp t₁ t₂ hc hl =>
    obtain ⟨conditions, errorMessage, heq⟩ := Status.roundDone_eq w.chain.status t round
      (hashingEnabled w.chain) reason message t₁ t₂
    rw [hc, Chain.update_records, heq]
    exact hround round _ hp hr rfl
  | @roundContinue hp hs round hr t hcomp t₁ t₂ hc hl =>
    obtain ⟨conditions, errorMessage, heq⟩ := Status.roundContinue_eq w.chain.status t round
      (hashingEnabled w.chain) t₁ t₂
    rw [hc, Chain.update_records, heq]
    exact hround round _ hp hr rfl

/-- **The hash chain is unbroken** in every state of every run whose reconciles of a running
    chain all start with a hashed last record or with no hashed record at all. -/
theorem hashChained_of_linkable {w₀ w : World} (h0 : w₀.chain.status = Status.zero)
    (h : SeqRun StartsLinkable w₀ w) : HashChained w.chain.status.records := by
  refine h.invariant (I := fun w => HashChained w.chain.status.records) ?_ ?_
  · rw [h0]
    intro i r hi
    exact absurd hi (by simp [Status.zero])
  · exact fun w w' hI hok hexit => exit_hashChained hI hok hexit

/-! ### Runs on a concrete chain -/

/-- A hashing chain of two rounds. -/
def hashingWorld : World where
  chain := evidenceChain { interval := some (10 * second), maxSnapshots := some 2,
                           maxDuration := none } "sha256" .none
  clock := 0
  listings := 0

/-- One pod with the containers `app` and `sidecar`; the helper pod for the second archive
    fails if `sidecarFails`. -/
def hashingCluster (sidecarFails : Bool) : Cluster where
  tick := 60000000000
  pods := [{ name := "web", nodeName := "n1", running := true, containers := ["app", "sidecar"] }]
  checkpoint container := .ok ("/var/lib/kubelet/checkpoints/" ++ container ++ ".tar")
  logs path :=
    if path = "/var/lib/kubelet/checkpoints/app.tar" then .ok ⟨["a1b2  app.tar"], none⟩
    else if sidecarFails then .error "helper pod timed out"
    else .ok ⟨["c3d4  sidecar.tar"], none⟩

/-- Four reconciles: two phase changes and two rounds. -/
def afterTwoRounds (sidecarFails : Bool) : World :=
  let c := hashingCluster sidecarFails
  c.reconcile (c.reconcile (c.reconcile (c.reconcile hashingWorld)))

/-- Four reconciles are a run, whatever the side condition their start states meet. -/
theorem afterTwoRounds_run {ok : World → Prop} (sidecarFails : Bool)
    (h1 : ok hashingWorld)
    (h2 : ok ((hashingCluster sidecarFails).reconcile hashingWorld))
    (h3 : ok ((hashingCluster sidecarFails).reconcile
      ((hashingCluster sidecarFails).reconcile hashingWorld)))
    (h4 : ok ((hashingCluster sidecarFails).reconcile ((hashingCluster sidecarFails).reconcile
      ((hashingCluster sidecarFails).reconcile hashingWorld)))) :
    SeqRun ok hashingWorld (afterTwoRounds sidecarFails) :=
  (((SeqRun.refl.cluster h1 _).cluster h2 _).cluster h3 _).cluster h4 _

/-- Two rounds whose checksums all succeed: every round starts linkable. -/
theorem hashChained_of_linkable_twoRounds :
    HashChained (afterTwoRounds false).chain.status.records ∧
    (afterTwoRounds false).chain.status.records.map Record.previousSHA256Hash
      = ["", "a1b2", "c3d4", "a1b2"] := by
  refine ⟨hashChained_of_linkable rfl (afterTwoRounds_run false ?_ ?_ ?_ ?_), by decide⟩
  · exact fun hp => absurd hp (by decide)
  · exact fun hp => absurd hp (by decide)
  · exact fun _ => Or.inr (by decide)
  · exact fun _ => Or.inl ⟨_, rfl, by decide⟩

/-- One failed checksum at the end of a round breaks the chain: the next round's first record
    is hashed, is not the first hashed record, and links to nothing. -/
theorem hashChain_breaks :
    ∃ w, SeqRun (fun _ => True) hashingWorld w ∧
      hashingWorld.chain.status = Status.zero ∧
      hashingWorld.chain.spec.hashAlgorithm = "sha256" ∧
      ¬ HashChained w.chain.status.records := by
  refine ⟨afterTwoRounds true, afterTwoRounds_run true trivial trivial trivial trivial, rfl, rfl,
    fun h => ?_⟩
  have hlink := h 2 _ rfl (by decide)
  exact absurd hlink (by decide)

end CheckpointRestore.Forensic
