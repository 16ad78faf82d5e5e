import CheckpointRestore.Retention.Debounce

namespace CheckpointRestore.Retention.Watcher

open Interaction

/-!
# Handlers of a collector that was replaced

A handler outlives the timer that started it: it reads the archive, with pauses, and applies the
policies at the end.  Its collector may be replaced meanwhile.

* `lookOf` — the handler's last look at its context;
* `Looks` — what a handler has seen, against the run;
* `applies_while_current` — policies are applied by a handler that has looked at its context since
  its last step, and no later collector was watching then.
-/

/-- A goroutine makes a move. -/
def Makes (t : Task) : Move sig Task → Prop
  | .act u _ => u = t
  | _ => False

/-- A handler looks at its context, which is not cancelled. -/
def lookOf (i : ℕ) (path : String) (n : ℕ) : Move sig Task :=
  .act (.handler i path n) ⟨.write i .ctxErr, (none : Option String)⟩

/-- The handlers against a run. -/
structure Looks (tr : Trace) (s : Shared) (ph : PhaseMap) : Prop where
  looked : ∀ i path n, ph (.handler i path n) = some .looked → ∃ a : World,
    Since (fun x => Makes (.handler i path n) x.2) (a, lookOf i path n) tr ∧
      (a.shared.locals i).cancelled = false
  watched : ∀ i path n, (ph (.handler i path n)).isSome → (s.locals i).watch ≠ .absent

section Looks
variable {tr : Trace} {b : World}
  {s s' : Shared} {ph ph' : PhaseMap} {φ : Phase} {op : sig.Op} {r : sig.Reply op}
  {t : Task} {m : Move sig Task} {i j n : ℕ} {path : String}

/-- A move of another goroutine. -/
theorem Looks.moves (h : Looks tr s ph) (hm : ∀ i path n, ¬ Makes (.handler i path n) m)
    (hph : ∀ i path n, ph' (.handler i path n) = ph (.handler i path n) ∨
      ph' (.handler i path n) = some .free ∧ (s'.locals i).watch ≠ .absent)
    (hwatch : ∀ j, (s.locals j).watch ≠ .absent → (s'.locals j).watch ≠ .absent) :
    Looks (tr ++ [(b, m)]) s' ph' := by
  refine ⟨fun i path n hlooked => ?_, fun i path n hsome => ?_⟩
  · rcases hph i path n with hsame | ⟨hfree, -⟩
    · obtain ⟨a, hsince, hcancelled⟩ := h.looked i path n (hsame ▸ hlooked)
      exact ⟨a, hsince.snoc (hm i path n), hcancelled⟩
    · exact absurd (hfree.symm.trans hlooked) (by simp)
  · rcases hph i path n with hsame | ⟨-, hwatched⟩
    · exact hwatch i (h.watched i path n (hsame ▸ hsome))
    · exact hwatched

/-- A move of a handler. -/
theorem Looks.handler (h : Looks tr s ph) (hb : b.shared = s)
    (ht : ph (.handler i path n) = some φ) (hp : Permits (.handler i path n) φ op)
    (hact : act op s r s') :
    Looks (tr ++ [(b, .act (.handler i path n) ⟨op, r⟩)]) s'
      (after ph (.handler i path n) φ ⟨op, r⟩) := by
  obtain ⟨rfl, hspawns⟩ := aside_frame (by trivial) hp hact
  cases hp with
  | write _ _ _ _ op _ =>
    have hself : after ph (.handler i path n) φ ⟨.write i op, r⟩ (.handler i path n)
        = some (next φ ⟨.write i op, r⟩) := after_self (by simp [spawns])
    have hothers : ∀ u, u ≠ .handler i path n →
        after ph (.handler i path n) φ ⟨.write i op, r⟩ u = ph u :=
      fun u hu => after_of_ne hu (by simp [spawns])
    refine ⟨fun i' path' n' hlooked => ?_, fun i' path' n' hsome => ?_⟩
    · by_cases hsame : Task.handler i' path' n' = .handler i path n
      · cases hsame
        rw [hself] at hlooked
        have hfree : ¬ some Phase.free = some .looked := by simp
        -- the step was a look at a context that is not cancelled
        cases op with
        | ctxErr =>
          rcases (r : Option String) with _ | err
          · refine ⟨b, since_snoc_self, ?_⟩
            have hctx : s'.ctxErr i = none := hact.1.2.symm
            rw [hb]
            unfold Shared.ctxErr at hctx
            split_ifs at hctx with hcancelled
            exact Bool.eq_false_iff.mpr hcancelled
          · exact absurd hlooked hfree
        | read | wait | apply => exact absurd hlooked hfree
      · rw [hothers _ hsame] at hlooked
        obtain ⟨a, hsince, hcancelled⟩ := h.looked i' path' n' hlooked
        exact ⟨a, hsince.snoc (fun hmakes => hsame (Eq.symm hmakes)), hcancelled⟩
    · by_cases hsame : Task.handler i' path' n' = .handler i path n
      · cases hsame
        exact h.watched i path n (by rw [ht]; rfl)
      · rw [hothers _ hsame] at hsome
        exact h.watched i' path' n' hsome

theorem Looks.act (h : Looks tr s ph) (hinv : Inv s ph) (hb : b.shared = s)
    (ht : ph t = some φ) (hp : Permits t φ op) (hact : act op s r s') :
    Looks (tr ++ [(b, .act t ⟨op, r⟩)]) s' (after ph t φ ⟨op, r⟩) := by
  -- no step starts a handler
  have hmoves (hne : ∀ i path n, Task.handler i path n ≠ t)
      (hwatch : ∀ j, (s.locals j).watch ≠ .absent → (s'.locals j).watch ≠ .absent) :
      Looks (tr ++ [(b, .act t ⟨op, r⟩)]) s' (after ph t φ ⟨op, r⟩) := by
    refine h.moves (fun i path n hmakes => hne i path n (Eq.symm hmakes)) (fun i path n => .inl ?_)
      hwatch
    refine after_of_ne (hne i path n) (fun hs => ?_)
    cases hp <;> cases hs
  cases t with
  | worker =>
    refine hmoves (by simp) (fun j => ?_)
    rw [(worker_frame hp hact).1]
    exact id
  | collector i => exact hmoves (by simp) (fun j => (collector_keeps hp hact j).2)
  | events i =>
    refine hmoves (by simp) (fun j => ?_)
    by_cases hj : j = i
    · subst hj
      have hfits := hinv.fits j
      rw [ht] at hfits
      rw [(events_lock hp hact hfits.attends.1).2.2]
      exact id
    · rw [(events_frame hp hact).others j hj]
      exact id
  | handler i path n => exact h.handler hb ht hp hact
  | podWatcher i | informer i | immediately n policies =>
    obtain ⟨rfl, -⟩ := aside_frame (by trivial) hp hact
    exact hmoves (by simp) (fun _ => id)

theorem Looks.env {t : Option Task} (h : Looks tr s ph) (hinv : Inv s ph)
    (hs : Happens s t s') : Looks (tr ++ [(b, .env t)]) s' (started entry t ph) := by
  cases hs with
  | tick => exact h.moves (fun _ _ _ => id) (fun _ _ _ => .inl rfl) (fun _ => id)
  | @fire i path t htimer hdue =>
    have hsame : ∀ j, ((s.setTimer i path none).locals j).watch = (s.locals j).watch := by
      intro j
      by_cases hj : j = i
      · rw [hj, Shared.setTimer, modify_self]
      · rw [Shared.setTimer, modify_of_ne hj]
    refine h.moves (fun _ _ _ => id) (fun i' path' n => ?_) (fun j hj => ?_)
    · by_cases hnew : Task.handler i' path' n = .handler i path s.fired
      · cases hnew
        -- its timer belonged to an open watcher
        obtain ⟨d, hopen⟩ := ((hinv.fits i).timer htimer).1
        refine .inr ⟨started_self .., fun habsent => ?_⟩
        exact absurd (((hsame i).trans hopen).symm.trans habsent) (by simp)
      · exact .inl (started_of_ne (fun heq => hnew (Option.some.inj heq).symm))
    · exact fun habsent => hj ((hsame j).symm.trans habsent)

end Looks

variable {vars : Variables} {now : ℤ} {c : World} {tr : Trace}

theorem looks_of_path (h : system.Path (setup vars now) tr c) :
    ∃ ph, phases.Tracks c.run ph ∧ Inv c.shared ph ∧ Looks tr c.shared ph := by
  have hnone : ∀ i path n, setupPhases (.handler i path n) = none := fun i path n => by
    rw [setupPhases, started_of_ne (by simp), started_of_ne (by simp)]
  refine h.tracked phases_followed (I := fun tr s ph => Inv s ph ∧ Looks tr s ph)
    (tracks_setup vars now)
    ⟨inv_setup vars now, ⟨fun i path n hlooked => ?_, fun i path n hsome => ?_⟩⟩
    (fun _ _ _ _ _ _ _ _ hI ht hp hact => ⟨hI.1.act ht hp hact, hI.2.act hI.1 rfl ht hp hact⟩)
    (fun _ _ _ _ hI => ⟨hI.1, hI.2.moves (fun _ _ _ => id) (fun _ _ _ => .inl rfl) (fun _ => id)⟩)
    (fun _ _ _ _ _ hI hs => ⟨hI.1.env hs, hI.2.env hI.1 hs⟩)
  · exact absurd ((hnone i path n).symm.trans hlooked) (by simp)
  · exact absurd hsome (by simp [hnone])

/-- **Policies are applied while the collector is current.**  When a handler applies the policies,
    its last step before was to look at the context of its collector: it was not cancelled, and no
    later collector had its watcher open. -/
theorem applies_while_current {b : World}
    {pre post : Trace} {i n : ℕ} {path : String} {details : Option CheckpointDetails} {r : Unit}
    (h : system.Path (setup vars now)
      (pre ++ (b, .act (.handler i path n) ⟨.write i (.apply details), r⟩) :: post) c) :
    ∃ before a between, pre = before ++ (a, lookOf i path n) :: between ∧
      (∀ x ∈ between, ¬ Makes (.handler i path n) x.2) ∧
      (a.shared.locals i).cancelled = false ∧
      ∀ j d, i < j → (a.shared.locals j).watch ≠ .opened d := by
  obtain ⟨d, hpre, hstep, -⟩ := h.split
  obtain ⟨ph, htracks, -, hlooks⟩ := looks_of_path hpre
  cases hstep with
  | act hrun _ =>
    obtain ⟨φ, hφ, hp, -⟩ := htracks.phase hrun
    have hpermits : Permits (.handler i path n) φ (.write i (.apply details)) := hp
    cases hpermits with
    | write _ _ _ _ _ hlooked =>
      obtain rfl := hlooked trivial
      obtain ⟨a, ⟨before, between, hsplit, hbetween⟩, hcancelled⟩ := hlooks.looked i path n hφ
      refine ⟨before, a, between, hsplit, hbetween, hcancelled, fun j d hij hopen => ?_⟩
      -- a collector before an open watcher is cancelled, or never had one of its own
      obtain ⟨d', hbefore, hlook, -⟩ := (hsplit ▸ hpre).split
      obtain ⟨ph', htracks', hinv, hlooks'⟩ := looks_of_path hbefore
      obtain ⟨hholds, hsome⟩ := (hinv.fits j).holds hopen
      obtain ⟨hfree, htold⟩ := hinv.before hholds hsome hij
      obtain ⟨-, -, habsent | ⟨-, hdone, -⟩⟩ := (hinv.fits i).gone hfree htold
      · cases hlook with
        | act hrun' _ =>
          obtain ⟨φ', hφ', -⟩ := htracks'.phase hrun'
          exact hlooks'.watched i path n (by rw [hφ']; rfl) habsent
      · exact absurd (hcancelled.symm.trans hdone) (by simp)

theorem applies_while_current_first : ∃ pre b c,
    system.Path (setup .initial 0)
      (pre ++ [(b, .act (.handler 0 "/c/a" 0) ⟨.write 0 (.apply none), ()⟩)]) c ∧
    ∃ before a between, pre = before ++ (a, lookOf 0 "/c/a" 0) :: between ∧
      (a.shared.locals 0).cancelled = false := by
  obtain ⟨pre, x, between, b, c, h₀, -, -, -, hrun, hctx⟩ := exists_path_handled
  have h₁ := h₀.act (.handler 0 "/c/a" 0) (.write 0 .ctxErr) (none : Option String) hrun
    ⟨⟨.inl hctx, hctx.symm⟩, rfl⟩
  have h₂ := h₁.act (.handler 0 "/c/a" 0) (.write 0 (.read "/c/a")) (none, none) rfl
    ⟨.inl hctx, rfl⟩
  have h₃ := h₂.act (.handler 0 "/c/a" 0) (.write 0 .ctxErr) (none : Option String) rfl
    ⟨⟨.inl hctx, hctx.symm⟩, rfl⟩
  have h₄ := h₃.act (.handler 0 "/c/a" 0) (.write 0 (.apply none)) () rfl ⟨.inl hctx, rfl⟩
  obtain ⟨before, a, between, hsplit, -, hcancelled, -⟩ := applies_while_current h₄
  exact ⟨_, _, _, h₄, before, a, between, hsplit, hcancelled⟩

end CheckpointRestore.Retention.Watcher
