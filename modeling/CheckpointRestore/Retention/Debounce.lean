import CheckpointRestore.Retention.Charge

namespace CheckpointRestore.Retention.Watcher

open Interaction

/-!
# The timers of the collector

A checkpoint archive is written with many events.  Each one starts the timer of its path again, and
the archive is looked at when none has come for a second.

* `Accepts`, `resetOf`, `Disarms` — the moves: an event is accepted, a timer is started again, and
  it fires or is stopped;
* `TimerAt` — the timer of one path against the run;
* `timerAt_of_path` — every run has it;
* `handled_after_silence` — a handler is started a second after the last event of its path;
* `no_event_lost` — an accepted event leads to a handler, unless the collector is stopped.
-/

/-- The timer of a path starts again. -/
def resetOf (i : ℕ) (path : String) : Move sig Task := .act (.events i) ⟨.reset i path, ()⟩

/-- The timer of a path fires, or all timers are stopped. -/
def Disarms (i : ℕ) (path : String) : Move sig Task → Prop
  | .env (some (.handler j p _)) => j = i ∧ p = path
  | .act _ ⟨.stopTimers j, _⟩ => j = i
  | _ => False

/-- The timer of a path changes. -/
def Touches (i : ℕ) (path : String) (m : Move sig Task) : Prop :=
  m = resetOf i path ∨ Disarms i path m

/-- An event of a path is accepted. -/
def Accepts (i : ℕ) (path : String) : Move sig Task → Prop
  | .act (.events j) ⟨.select _ _, .event (some event)⟩ =>
      j = i ∧ arms event = true ∧ event.name = path
  | _ => False

/-- The goroutine comes back to its `select`. -/
def ComesBack (i : ℕ) : Move sig Task → Prop
  | .act (.events j) ⟨.readQuit, _⟩ => j = i
  | _ => False

/-- The goroutine is about to start the timer of a path. -/
def WorksOn (path : String) : Option Phase → Prop
  | some (.looking p) | some (.creating p) | some (.arming p) => p = path
  | _ => False

/-- The timer of a path and the phase of its goroutine against a run: an armed timer was started
    last where it says, what the goroutine works on was accepted, and what was accepted is worked on
    or has its timer armed as long as nothing has disarmed it. -/
structure TimerAt (i : ℕ) (path : String) (tr : Trace)
    (timer : Option (Option ℤ)) (φ : Option Phase) : Prop where
  armed : ∀ t, timer = some (some t) → ∃ a : World,
    Since (fun x => Touches i path x.2) (a, resetOf i path) tr ∧ t = a.shared.now + waitFor
  fresh : φ = some (.creating path) → timer = none
  accepted : WorksOn path φ → ∃ x ∈ tr, Accepts i path x.2
  kept : ∀ pre x post, tr = pre ++ x :: post → Accepts i path x.2 →
    (∀ y ∈ post, ¬ Disarms i path y.2) →
    (WorksOn path φ ∧ ∀ y ∈ post, ¬ ComesBack i y.2) ∨ ∃ t, timer = some (some t)

section TimerAt
variable {i j : ℕ} {path : String} {tr : Trace}
  {timer timer' : Option (Option ℤ)} {φ φ' : Option Phase} {b : World}
  {m : Move sig Task}

/-- Nothing happens to the timer. -/
theorem TimerAt.idle (h : TimerAt i path tr timer φ) (htouches : ¬ Touches i path m)
    (haccepts : ¬ Accepts i path m) (hback : WorksOn path φ → ¬ ComesBack i m)
    (hfresh : φ' = some (.creating path) → φ = some (.creating path) ∨ timer = none)
    (hworks : WorksOn path φ' ↔ WorksOn path φ) : TimerAt i path (tr ++ [(b, m)]) timer φ' := by
  refine ⟨fun t ht => ?_, fun hφ => ?_, fun hφ => ?_, fun pre x post hsplit hx hpost => ?_⟩
  · obtain ⟨a, hsince, hat⟩ := h.armed t ht
    exact ⟨a, hsince.snoc htouches, hat⟩
  · exact (hfresh hφ).elim h.fresh id
  · obtain ⟨x, hx, hxa⟩ := h.accepted (hworks.mp hφ)
    exact ⟨x, List.mem_append_left _ hx, hxa⟩
  · rcases snoc_split hsplit with ⟨-, rfl, -⟩ | ⟨post', rfl, hbefore⟩
    · exact absurd hx haccepts
    · have hpost' := fun y hy => hpost y (List.mem_append_left [(b, m)] hy)
      refine (h.kept pre x post' hbefore hx hpost').imp_left (fun ⟨hφ, hall⟩ => ?_)
      refine ⟨hworks.mpr hφ, fun y hy => ?_⟩
      rcases List.mem_append.mp hy with hy | hy
      · exact hall y hy
      · rw [List.mem_singleton.mp hy]
        exact hback hφ

/-- The goroutine does not come back before it has started the timer. -/
theorem TimerAt.create (h : TimerAt i path tr timer (some (.creating path)))
    (htouches : ¬ Touches i path m) (haccepts : ¬ Accepts i path m) (hback : ¬ ComesBack i m) :
    TimerAt i path (tr ++ [(b, m)]) (some none) (some (.arming path)) := by
  have hidle : TimerAt i path (tr ++ [(b, m)]) timer (some (.arming path)) :=
    h.idle htouches haccepts (fun _ => hback) (by simp) .rfl
  refine ⟨by simp, by simp, hidle.accepted, fun pre x post hsplit hx hpost => ?_⟩
  rcases hidle.kept pre x post hsplit hx hpost with hworks | ⟨t, ht⟩
  · exact .inl hworks
  · exact absurd (ht.symm.trans (h.fresh rfl)) (by simp)

/-- The timer starts again. -/
theorem TimerAt.reset (t : ℤ) (ht : t = b.shared.now + waitFor) :
    TimerAt i path (tr ++ [(b, resetOf i path)]) (some (some t)) (some .head) := by
  refine ⟨fun t' ht' => ⟨b, since_snoc_self, ?_⟩, by simp, False.elim,
    fun _ _ _ _ _ _ => .inr ⟨t, rfl⟩⟩
  rw [← ht]
  exact (Option.some.inj (Option.some.inj ht')).symm

/-- An event is accepted. -/
theorem TimerAt.accept (h : TimerAt i path tr timer φ) (hφ : ¬ WorksOn path φ)
    (hm : Accepts i path m) (htouches : ¬ Touches i path m) :
    TimerAt i path (tr ++ [(b, m)]) timer (some (.looking path)) := by
  refine ⟨fun t ht => ?_, by simp, fun _ => ⟨(b, m), by simp, hm⟩,
    fun pre x post hsplit hx hpost => ?_⟩
  · obtain ⟨a, hsince, hat⟩ := h.armed t ht
    exact ⟨a, hsince.snoc htouches, hat⟩
  · rcases snoc_split hsplit with ⟨-, -, rfl⟩ | ⟨post', rfl, hbefore⟩
    · exact .inl ⟨rfl, fun y hy => absurd hy List.not_mem_nil⟩
    · have hpost' := fun y hy => hpost y (List.mem_append_left [(b, m)] hy)
      exact (h.kept pre x post' hbefore hx hpost').imp_left (fun ⟨hworks, _⟩ => absurd hworks hφ)

/-- The timer fires or is stopped. -/
theorem TimerAt.disarm (h : TimerAt i path tr timer φ) (hm : Disarms i path m)
    (haccepts : ¬ Accepts i path m) (htimer : ∀ t, timer' ≠ some (some t))
    (hfresh : φ' = some (.creating path) → timer' = none)
    (hworks : WorksOn path φ' → WorksOn path φ) :
    TimerAt i path (tr ++ [(b, m)]) timer' φ' := by
  refine ⟨fun t ht => absurd ht (htimer t), hfresh, fun hφ => ?_,
    fun pre x post hsplit hx hpost => ?_⟩
  · obtain ⟨x, hx, hxa⟩ := h.accepted (hworks hφ)
    exact ⟨x, List.mem_append_left _ hx, hxa⟩
  · rcases snoc_split hsplit with ⟨-, rfl, -⟩ | ⟨post', rfl, -⟩
    · exact absurd hx haccepts
    · exact absurd hm (hpost (b, m) (by simp))

end TimerAt

/-- All timers against a run. -/
def Timers (tr : Trace) (s : Shared) (ph : PhaseMap) : Prop :=
  ∀ i path, TimerAt i path tr ((s.locals i).timers path) (ph (.events i))

section Timers
variable {tr : Trace} {b : World}
  {s s' : Shared} {ph ph' : PhaseMap} {φ : Phase} {op : sig.Op} {r : sig.Reply op}
  {t : Task} {m : Move sig Task} {i j : ℕ} {path : String}

/-- A move that is not about the timers of a collector. -/
structure Unrelated (j : ℕ) (m : Move sig Task) : Prop where
  touches : ∀ path, ¬ Touches j path m
  accepts : ∀ path, ¬ Accepts j path m
  back : ¬ ComesBack j m

/-- Only its goroutine over the channels deals with them. -/
theorem unrelated (ht : t ≠ .events j) (hp : Permits t φ op) : Unrelated j (.act t ⟨op, r⟩) := by
  refine ⟨fun path htouches => ?_, fun path haccepts => ?_, fun hback => ?_⟩
  · rcases htouches with hreset | hdisarms
    · cases hreset
      exact ht rfl
    · cases hp with
      | stopTimers i => exact ht (congrArg Task.events hdisarms)
      | _ => exact hdisarms
  · cases hp with
    | select i q =>
      rcases (r : Received) with _ | (_ | event) | (_ | err)
      case event.some => exact ht (congrArg Task.events haccepts.1)
      all_goals exact haccepts
    | _ => exact haccepts
  · cases hp with
    | readQuit i => exact ht (congrArg Task.events hback)
    | _ => exact hback

theorem TimerAt.unrelated {timer : Option (Option ℤ)} {φ : Option Phase}
    (h : TimerAt j path tr timer φ) (hm : Unrelated j m) :
    TimerAt j path (tr ++ [(b, m)]) timer φ :=
  h.idle (hm.touches path) (hm.accepts path) (fun _ => hm.back) .inl .rfl

/-- A move that is not about timers: a goroutine may be started. -/
theorem Timers.idle (h : Timers tr s ph) (hm : ∀ j, Unrelated j m)
    (htimers : ∀ j, (s'.locals j).timers = (s.locals j).timers)
    (hevents : ∀ j, ph' (.events j) = ph (.events j) ∨
      ph' (.events j) = some .head ∧ ph (.events j) = none) : Timers (tr ++ [(b, m)]) s' ph' := by
  intro j path
  rw [htimers]
  rcases hevents j with hsame | ⟨hhead, hnone⟩
  · rw [hsame]
    exact (h j path).unrelated (hm j)
  · have hj := h j path
    rw [hnone] at hj
    rw [hhead]
    exact hj.idle ((hm j).touches path) ((hm j).accepts path) (fun _ => (hm j).back) (by simp) .rfl

theorem phase_of_touches (hp : Permits (.events i) φ op)
    (h : Touches i path (.act (.events i) ⟨op, r⟩)) : φ = .arming path ∨ φ = .stopping := by
  rcases h with hreset | hdisarms
  · cases hreset
    cases hp
    exact .inl rfl
  · cases hp with
    | stopTimers => exact .inr rfl
    | _ => exact hdisarms.elim

/-- A step of the goroutine, for the timer of one path of its own collector. -/
theorem TimerAt.events (h : TimerAt i path tr ((s.locals i).timers path) (some φ))
    (hp : Permits (.events i) φ op) (hact : act op s r s') (hb : b.shared = s) :
    TimerAt i path (tr ++ [(b, .act (.events i) ⟨op, r⟩)]) ((s'.locals i).timers path)
      (some (next φ ⟨op, r⟩)) := by
  have htouches (harming : φ ≠ .arming path) (hstopping : φ ≠ .stopping) :
      ¬ Touches i path (.act (.events i) ⟨op, r⟩) := fun htouches =>
    (phase_of_touches hp htouches).elim harming hstopping
  obtain ⟨hguard, rfl⟩ := hact
  cases hp with
  | select _ q =>
    have htouches := htouches (by simp) (by simp)
    rcases (r : Received) with _ | (_ | event) | (_ | err)
    case event.some =>
      -- an event that arms a timer is the loop's work until it is armed
      show TimerAt _ _ _ _ (some (if arms event then .looking event.name else .head))
      split_ifs with harms
      · by_cases hname : event.name = path
        · rw [hname]
          exact h.accept id ⟨rfl, harms, hname⟩ htouches
        · exact h.idle htouches (fun haccepts => hname haccepts.2.2) (fun hworks => hworks.elim)
            (by simp) (iff_of_false hname id)
      · exact h.idle htouches (fun haccepts => harms haccepts.2.1) (fun hworks => hworks.elim)
          (by simp) .rfl
    all_goals exact h.idle htouches id (fun hworks => hworks.elim) (by simp [next]) .rfl
  | lookupTimer _ p =>
    -- a timer is created only where none was found
    have htouches := htouches (by simp) (by simp)
    rcases hr : (r : Bool) with _ | _
    · subst hr
      refine h.idle htouches id (fun _ => id) (fun hφ => .inr ?_) .rfl
      obtain rfl : p = path := Phase.creating.inj (Option.some.inj hφ)
      rw [← Option.not_isSome_iff_eq_none, Bool.not_eq_true]
      exact hguard.symm
    · subst hr
      exact h.idle htouches id (fun _ => id) (by simp [next]) .rfl
  | newTimer _ p =>
    have htouches := htouches (by simp) (by simp)
    rw [effect]
    by_cases hpath : path = p
    · subst hpath
      rw [setTimer_self]
      exact h.create htouches id id
    · rw [setTimer_of_ne hpath]
      exact h.idle htouches id (fun _ => id) (by simp [next]) .rfl
  | reset _ p =>
    rw [effect]
    by_cases hpath : path = p
    · subst hpath
      rw [setTimer_self]
      exact .reset _ (by rw [hb])
    · rw [setTimer_of_ne hpath]
      exact h.idle (htouches (fun harming => hpath (Phase.arming.inj harming).symm) (by simp)) id
        (fun _ => id) (by simp [next]) (iff_of_false id (fun hworks => hpath (Eq.symm hworks)))
  | stopTimers =>
    -- the end of the loop stops every timer
    rw [effect, modify_self]
    exact h.disarm rfl id (by simp) (by simp) id
  | readQuit =>
    exact h.idle (htouches (by simp) (by simp)) id (fun hworks => hworks.elim) (by simp [next]) .rfl
  | stopContext | closeDone =>
    rw [effect, modify_self]
    exact h.idle (htouches (by simp) (by simp)) id (fun hworks => hworks.elim) (by simp [next]) .rfl

theorem Timers.act (h : Timers tr s ph) (hinv : Inv s ph) (hb : b.shared = s)
    (ht : ph t = some φ) (hp : Permits t φ op) (hact : act op s r s') :
    Timers (tr ++ [(b, .act t ⟨op, r⟩)]) s' (after ph t φ ⟨op, r⟩) := by
  cases t with
  | worker =>
    refine h.idle (fun _ => Watcher.unrelated (by simp) hp) (fun j => ?_) (fun j => .inl ?_)
    · rw [(worker_frame hp hact).1]
    · refine after_of_ne (by simp) (fun hs => ?_)
      cases hp <;> cases hs
  | collector i =>
    obtain ⟨-, -, hevents, -⟩ := after_collector (r := r) ph hp
    refine h.idle (fun _ => Watcher.unrelated (by simp) hp) (fun j => (collector_keeps hp hact j).1)
      (fun j => ?_)
    by_cases hj : j = i
    · subst hj
      have hfits := hinv.fits j
      rw [ht] at hfits
      cases hp with
      | goEvents => exact .inr ⟨after_spawned rfl, hfits.1⟩
      | _ => exact .inl (after_of_ne (by simp) (by simp [spawns]))
    · exact .inl (hevents j hj)
  | events i =>
    obtain ⟨hself, hothers, -, -⟩ := after_events (r := r) ph hp
    intro j path
    by_cases hj : j = i
    · subst hj
      have hj := h j path
      rw [ht] at hj
      rw [hself]
      exact hj.events hp hact hb
    · rw [hothers j hj, (events_frame hp hact).others j hj]
      exact (h j path).unrelated (Watcher.unrelated (by simpa using Ne.symm hj) hp)
  | podWatcher i | informer i | handler i p n | immediately n policies =>
    obtain ⟨rfl, hspawns⟩ := aside_frame (by trivial) hp hact
    refine h.idle (fun _ => Watcher.unrelated (by simp) hp) (fun _ => rfl) (fun j => .inl ?_)
    exact after_of_ne (by simp) (fun hu => hspawns _ hu)

theorem Timers.env {t : Option Task} (h : Timers tr s ph) (hs : Happens s t s') :
    Timers (tr ++ [(b, .env t)]) s' (started entry t ph) := by
  cases hs with
  | tick =>
    refine h.idle (fun _ => ⟨fun path htouches => ?_, fun _ => id, id⟩) (fun _ => rfl)
      (fun _ => .inl rfl)
    rcases htouches with hreset | hdisarms
    · cases hreset
    · exact hdisarms
  | @fire i path t htimer hdue =>
    intro j p
    rw [started_of_ne (by simp)]
    by_cases hjp : j = i ∧ p = path
    · obtain ⟨rfl, rfl⟩ := hjp
      show TimerAt _ _ _ (((s.setTimer j p none).locals j).timers p) _
      rw [setTimer_self]
      refine (h j p).disarm ⟨rfl, rfl⟩ id (by simp) (fun hφ => ?_) id
      exact absurd (htimer.symm.trans ((h j p).fresh hφ)) (by simp)
    · -- another timer
      have hsame : ((s.setTimer i path none).locals j).timers p = (s.locals j).timers p := by
        by_cases hj : j = i
        · subst hj
          exact setTimer_of_ne (fun hp => hjp ⟨rfl, hp⟩) _
        · rw [Shared.setTimer, modify_of_ne hj]
      show TimerAt _ _ _ (((s.setTimer i path none).locals j).timers p) _
      rw [hsame]
      refine (h j p).idle ?_ id (fun _ => id) .inl .rfl
      rintro (hreset | hdisarms)
      · cases hreset
      · exact hjp ⟨hdisarms.1.symm, hdisarms.2.symm⟩

end Timers

/-- A handler is started by a timer whose time has come. -/
theorem Happens.due {s s' : Shared} {i n : ℕ} {path : String}
    (h : Happens s (some (.handler i path n)) s') :
    ∃ t, (s.locals i).timers path = some (some t) ∧ t ≤ s.now := by
  cases h with
  | fire htimer hdue => exact ⟨_, htimer, hdue⟩

variable {vars : Variables} {now : ℤ} {c : World} {tr : Trace}

/-- Every run has its timers. -/
theorem timerAt_of_path (h : system.Path (setup vars now) tr c) :
    ∃ ph, phases.Tracks c.run ph ∧ Inv c.shared ph ∧ Timers tr c.shared ph := by
  refine h.tracked phases_followed (I := fun tr s ph => Inv s ph ∧ Timers tr s ph)
    (tracks_setup vars now) ⟨inv_setup vars now, fun i path => ?_⟩
    (fun _ _ _ _ _ _ _ _ hI ht hp hact => ⟨hI.1.act ht hp hact, hI.2.act hI.1 rfl ht hp hact⟩)
    (fun _ _ _ _ hI => ⟨hI.1, ?_⟩)
    (fun _ _ _ _ _ hI hs => ⟨hI.1.env hs, hI.2.env hs⟩)
  · rw [setupPhases_events]
    refine ⟨fun t ht => absurd ht (by simp [setup, Locals.initial]), by simp, False.elim,
      fun pre x post hsplit => ?_⟩
    exact absurd hsplit (by simp)
  · refine hI.2.idle (fun _ => ⟨fun path htouches => ?_, fun _ => id, id⟩) (fun _ => rfl)
      (fun _ => .inl rfl)
    rcases htouches with hreset | hdisarms
    · cases hreset
    · exact hdisarms

/-- **An archive is looked at after a second of silence.**  When the handler of a path is started,
    the timer of the path was started last a second or more before, for an event that was accepted;
    from then on the timer was not started again, did not fire and was not stopped. -/
theorem handled_after_silence {b : World}
    {pre post : Trace} {i n : ℕ} {path : String}
    (h : system.Path (setup vars now) (pre ++ (b, .env (some (.handler i path n))) :: post) c) :
    ∃ before a between, pre = before ++ (a, resetOf i path) :: between ∧
      a.shared.now + waitFor ≤ b.shared.now ∧ (∀ x ∈ between, ¬ Touches i path x.2) ∧
      ∃ x ∈ before, Accepts i path x.2 := by
  obtain ⟨d, hpre, hstep, -⟩ := h.split
  obtain ⟨ph, -, -, htimers⟩ := timerAt_of_path hpre
  cases hstep with
  | env hs =>
    obtain ⟨t, htimer, hdue⟩ := hs.due
    obtain ⟨a, ⟨before, between, hsplit, hbetween⟩, rfl⟩ := (htimers i path).armed _ htimer
    refine ⟨before, a, between, hsplit, hdue, hbetween, ?_⟩
    -- the goroutine starts the timer for what it has accepted
    obtain ⟨d', hbefore, hreset, -⟩ := (hsplit ▸ hpre).split
    obtain ⟨ph', htracks, -, htimers'⟩ := timerAt_of_path hbefore
    cases hreset with
    | act hrun _ =>
      obtain ⟨φ, hφ, hp, -⟩ := htracks.phase hrun
      refine (htimers' i path).accepted ?_
      rw [hφ]
      have hpermits : Permits (.events i) φ (.reset i path) := hp
      cases hpermits
      rfl

/-- A run in which an event is accepted and its handler is started a second later. -/
theorem exists_path_handled : ∃ pre x between b c,
    system.Path (setup .initial 0)
      ((pre ++ x :: between) ++ [(b, .env (some (.handler 0 "/c/a" 0)))]) c ∧
    system.Path (setup .initial 0) (pre ++ x :: between) b ∧ Accepts 0 "/c/a" x.2 ∧
    (∀ y ∈ between, ¬ Disarms 0 "/c/a" y.2) ∧
    c.run (.handler 0 "/c/a" 0) = some (body (.handler 0 "/c/a" 0)) ∧
    c.shared.ctxErr 0 = none := by
  have h₀ : system.Path (setup .initial 0) [] _ := .nil
  have h₁ := h₀.act (.collector 0) .lock () rfl ⟨rfl, rfl⟩
  have h₂ := h₁.act (.collector 0) (.newWatcher 0) none rfl ⟨trivial, rfl⟩
  have h₃ := h₂.act (.collector 0) (.goPodWatcher 0) () rfl ⟨trivial, rfl⟩
  have h₄ := h₃.act (.collector 0) (.goEvents 0) () rfl ⟨trivial, rfl⟩
  have h₅ := h₄.act (.collector 0) .snapshot _ rfl ⟨rfl, rfl⟩
  have h₆ := h₅.act (.collector 0) (.add 0 defaultDirectory) none rfl
    ⟨⟨none, rfl⟩, rfl⟩
  have h₇ := h₆.act (.events 0) .readQuit (0 : ℕ) rfl ⟨rfl, rfl⟩
  have h₈ := h₇.act (.events 0) (.select 0 0) (.event (some ⟨"/c/a", true, false⟩)) rfl
    ⟨⟨defaultDirectory, rfl⟩, rfl⟩
  have h₉ := h₈.act (.events 0) (.lookupTimer 0 "/c/a") false rfl ⟨rfl, rfl⟩
  have h₁₀ := h₉.act (.events 0) (.newTimer 0 "/c/a") () rfl ⟨trivial, rfl⟩
  have h₁₁ := h₁₀.act (.events 0) (.reset 0 "/c/a") () rfl ⟨trivial, rfl⟩
  have h₁₂ := h₁₁.snoc (.env (.tick (t := waitFor) (by decide)))
  have h₁₃ := h₁₂.snoc (.env (@Happens.fire _ 0 "/c/a" waitFor rfl (by decide)))
  refine ⟨[_, _, _, _, _, _, _], _, [_, _, _, _], _, _, h₁₃, h₁₂, ⟨rfl, by decide, rfl⟩,
    fun y hy => ?_, rfl, rfl⟩
  simp only [List.mem_cons, List.not_mem_nil, or_false] at hy
  rcases hy with rfl | rfl | rfl | rfl
  all_goals exact id

theorem handled_after_silence_first : ∃ pre b c,
    system.Path (setup .initial 0) (pre ++ [(b, .env (some (.handler 0 "/c/a" 0)))]) c ∧
    ∃ before a between, pre = before ++ (a, resetOf 0 "/c/a") :: between ∧
      a.shared.now + waitFor ≤ b.shared.now := by
  obtain ⟨pre, x, between, b, c, hpath, -⟩ := exists_path_handled
  obtain ⟨before, a, between', hsplit, hdue, -⟩ := handled_after_silence hpath
  exact ⟨_, b, c, hpath, before, a, between', hsplit, hdue⟩

/-- **No event is lost.**  An event that was accepted starts the handler of its path, or the timer
    of the path is armed for a second after it was started last, unless the timers were stopped or
    the goroutine has not come back to its `select` yet. -/
theorem no_event_lost {x : World × Move sig Task}
    {pre post : Trace} {i : ℕ} {path : String}
    (h : system.Path (setup vars now) (pre ++ x :: post) c) (hx : Accepts i path x.2)
    (hpost : ∀ y ∈ post, ¬ Disarms i path y.2) :
    (∀ y ∈ post, ¬ ComesBack i y.2) ∨ ∃ a : World,
      Since (fun y => Touches i path y.2) (a, resetOf i path) (pre ++ x :: post) ∧
      (c.shared.locals i).timers path = some (some (a.shared.now + waitFor)) := by
  obtain ⟨ph, -, -, htimers⟩ := timerAt_of_path h
  rcases (htimers i path).kept pre x post rfl hx hpost with ⟨-, hback⟩ | ⟨t, ht⟩
  · exact .inl hback
  · obtain ⟨a, hsince, rfl⟩ := (htimers i path).armed t ht
    exact .inr ⟨a, hsince, ht⟩

theorem no_event_lost_first : ∃ pre x post c, system.Path (setup .initial 0) (pre ++ x :: post) c ∧
    Accepts 0 "/c/a" x.2 ∧ ((∀ y ∈ post, ¬ ComesBack 0 y.2) ∨ ∃ a : World,
      (c.shared.locals 0).timers "/c/a" = some (some (a.shared.now + waitFor))) := by
  obtain ⟨pre, x, between, b, c, -, hpath, hx, hbetween, -⟩ := exists_path_handled
  refine ⟨pre, x, between, b, hpath, hx, ?_⟩
  exact (no_event_lost hpath hx hbetween).imp_right (fun ⟨a, _, htimer⟩ => ⟨a, htimer⟩)

end CheckpointRestore.Retention.Watcher
