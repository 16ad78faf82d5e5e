import CheckpointRestore.Lib.Prog

namespace Interaction

/-!
# Interaction programs — crashes

A program may be cut short: before any of its operations, or in the middle of one that is not
atomic.  `tear` says what an operation cut in the middle can leave behind.

* `Crashes` — the states a crash can leave;
* `cwp` — weakest preconditions with a crash condition: `Q` when the program returns, `R` in
  every state a crash can leave;
* `crashes_of_cwp`, `runs_of_cwp` — what a `cwp` fact says about crashes and about full runs.
-/

variable {S : Signature} {α β σ : Type}

section Crash
variable (act : (op : S.Op) → σ → S.Reply op → σ → Prop) (tear : (op : S.Op) → σ → σ → Prop)

/-- `Crashes act tear p s s'`: started in `s`, the program can be cut short in `s'`. -/
inductive Crashes : Prog S α → σ → σ → Prop
  | here (p : Prog S α) (s : σ) : Crashes p s s
  | torn {op : S.Op} {k : S.Reply op → Prog S α} {s s' : σ} (h : tear op s s') :
      Crashes (.call op k) s s'
  | later {op : S.Op} {k : S.Reply op → Prog S α} {s s' s'' : σ} {r : S.Reply op}
      (h : act op s r s') (hk : Crashes (k r) s' s'') : Crashes (.call op k) s s''

/-- Every result of the program satisfies `Q`, and every state it can be cut short in
    satisfies `R`. -/
def cwp : Prog S α → (α → σ → Prop) → (σ → Prop) → σ → Prop
  | .pure a, Q, R, s => R s ∧ Q a s
  | .call op k, Q, R, s =>
    R s ∧ (∀ s', tear op s s' → R s') ∧ ∀ r s', act op s r s' → cwp (k r) Q R s'

end Crash

variable {p : Prog S α} {s s' : σ}

section Rules
variable {act : (op : S.Op) → σ → S.Reply op → σ → Prop} {tear : (op : S.Op) → σ → σ → Prop}
  {Q : α → σ → Prop} {R : σ → Prop}

theorem cwp_crash (h : cwp act tear p Q R s) : R s := by
  cases p with
  | pure a => exact h.1
  | call op k => exact h.1

/-- A crash in the first part of a composition is a crash of the whole. -/
theorem Crashes.bind_left (h : Crashes act tear p s s') (f : α → Prog S β) :
    Crashes act tear (p >>= f) s s' := by
  induction h with
  | here p s => exact .here _ s
  | torn ht => exact .torn ht
  | later ha _ ih => exact .later ha ih

/-- A return satisfies both conditions. -/
theorem cwp_pure {a : α} (hR : R s) (hQ : Q a s) :
    cwp act tear (pure a : Prog S α) Q R s := ⟨hR, hQ⟩

/-- One operation: the crash condition before it, in the middle of it and after it. -/
theorem cwp_perform {op : S.Op} {Q : S.Reply op → σ → Prop} (hR : R s)
    (htear : ∀ s', tear op s s' → R s') (hact : ∀ r s', act op s r s' → R s' ∧ Q r s') :
    cwp act tear (.perform op) Q R s :=
  ⟨hR, htear, fun r s' h => hact r s' h⟩

/-- The rule of sequential composition. -/
theorem cwp_bind {f : α → Prog S β} {Q : β → σ → Prop} :
    cwp act tear (p >>= f) Q R s
      ↔ cwp act tear p (fun a s' => cwp act tear (f a) Q R s') R s := by
  induction p generalizing s with
  | pure a => exact ⟨fun h => ⟨cwp_crash h, h⟩, fun h => h.2⟩
  | call op k ih =>
    show (_ ∧ _ ∧ _) ↔ (_ ∧ _ ∧ _)
    refine and_congr_right (fun _ => and_congr_right (fun _ => ?_))
    refine forall_congr' (fun r => forall_congr' (fun s' => imp_congr_right (fun _ => ?_)))
    exact ih r

/-- The rule of consequence; the result also satisfies the crash condition. -/
theorem cwp_mono {Q' : α → σ → Prop} {R' : σ → Prop} (hQ : ∀ a s', R s' → Q a s' → Q' a s')
    (hR : ∀ s', R s' → R' s') (h : cwp act tear p Q R s) : cwp act tear p Q' R' s := by
  induction p generalizing s with
  | pure a => exact ⟨hR s h.1, hQ a s h.1 h.2⟩
  | call op k ih =>
    exact ⟨hR s h.1, fun s' ht => hR s' (h.2.1 s' ht), fun r s' ha => ih r (h.2.2 r s' ha)⟩

/-- A crash leaves a state that satisfies the crash condition. -/
theorem crashes_of_cwp (h : cwp act tear p Q R s) (hc : Crashes act tear p s s') : R s' := by
  induction hc with
  | here p s => exact cwp_crash h
  | torn ht => exact h.2.1 _ ht
  | later ha _ ih => exact ih (h.2.2 _ _ ha)

/-- A run to the end satisfies the postcondition. -/
theorem runs_of_cwp {tr : List (Event S)} {a : α} (h : cwp act tear p Q R s)
    (hr : Runs act p s tr a s') : Q a s' := by
  induction hr with
  | pure a s => exact h.2
  | call ha _ ih => exact ih (h.2.2 _ _ ha)

end Rules

end Interaction
