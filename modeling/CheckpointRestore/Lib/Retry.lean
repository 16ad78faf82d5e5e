import CheckpointRestore.Lib.Prog

namespace Interaction

/-!
# Interaction programs — bounded retries

A loop that tries something, looks at the outcome and tries again is described by the list of its
outcomes: there are not too many of them, and every one that has a successor asked for it.

* `Retried` — such lists, and what they say about an outcome that asks for nothing;
* `RetryAllowed` — the precondition of a loop that tries again only if it is asked to;
* `retried_of_unfolds` — the outcomes of a program that keeps to it, at any moment;
* `wp_countdown` — the rule for a loop by the attempts that are left, whose last attempt returns.
-/

variable {S : Signature} {α ρ : Type}

/-- The outcomes of at most `n` attempts, each of which is followed by another one only if it
    `Asks` for it. -/
structure Retried (Asks : ρ → Prop) (n : ℕ) (outcomes : List ρ) : Prop where
  bounded : outcomes.length ≤ n
  asked : outcomes.Pairwise (fun a _ => Asks a)

section Retried
variable {Asks : ρ → Prop} {n : ℕ} {outcomes : List ρ}

theorem Retried.nil : Retried Asks n [] := ⟨Nat.zero_le n, .nil⟩

/-- One more attempt, after outcomes that all ask for it. -/
theorem Retried.snoc (hlt : outcomes.length < n) (hasks : ∀ a ∈ outcomes, Asks a) (a : ρ) :
    Retried Asks n (outcomes ++ [a]) := by
  refine ⟨?_, List.pairwise_append.mpr ⟨?_, List.pairwise_singleton _ _, ?_⟩⟩
  · rw [List.length_append, List.length_singleton]
    exact hlt
  · exact List.pairwise_of_forall_mem_list (fun a ha _ _ => hasks a ha)
  · exact fun a ha _ _ => hasks a ha

/-- An outcome that asks for nothing is the last one. -/
theorem Retried.last (h : Retried Asks n outcomes) {before after : List ρ} {a : ρ}
    (heq : outcomes = before ++ a :: after) (ha : ¬ Asks a) : after = [] := by
  have hpairs := h.asked
  rw [heq, List.pairwise_append, List.pairwise_cons] at hpairs
  cases after with
  | nil => rfl
  | cons b after => exact absurd (hpairs.2.1.1 b List.mem_cons_self) ha

end Retried

/-- An event without an outcome adds none. -/
theorem filterMap_snoc_none {outcome : Event S → Option ρ} (tr : List (Event S)) {e : Event S}
    (h : outcome e = none) : (tr ++ [e]).filterMap outcome = tr.filterMap outcome := by
  rw [List.filterMap_append, List.filterMap_cons_none h, List.filterMap_nil, List.append_nil]

section Contract
variable (outcome : Event S → Option ρ) (Asks : ρ → Prop) (n : ℕ)

/-- Operations with an outcome are issued only while fewer than `n` outcomes are there, all of
    which ask for more. -/
def RetryAllowed (tr : List (Event S)) (op : S.Op) : Prop :=
  (∃ r, (outcome ⟨op, r⟩).isSome) →
    (tr.filterMap outcome).length < n ∧ ∀ a ∈ tr.filterMap outcome, Asks a

variable {outcome Asks n}

/-- The outcomes of a bounded retry, at any moment. -/
theorem retried_of_unfolds {p q : Prog S α} {Q : α → List (Event S) → Prop}
    {tr : List (Event S)} {V : Event S → Prop}
    (hp : wp (traceContract (RetryAllowed outcome Asks n) V) p Q []) (hu : Unfolds p tr q)
    (hV : ∀ e ∈ tr, V e) : Retried Asks n (tr.filterMap outcome) := by
  induction hu with
  | nil => exact .nil
  | @snoc tr op k hu r ih =>
    have hbefore : ∀ e ∈ tr, V e := fun e he => hV e (List.mem_append_left _ he)
    have hallowed : RetryAllowed outcome Asks n tr op := pre_of_unfolds hp hu hbefore
    cases houtcome : outcome ⟨op, r⟩ with
    | none =>
      rw [filterMap_snoc_none tr houtcome]
      exact ih hbefore
    | some a =>
      obtain ⟨hlt, hasks⟩ := hallowed ⟨r, by rw [houtcome]; rfl⟩
      rw [List.filterMap_append, List.filterMap_cons_some houtcome, List.filterMap_nil]
      exact .snoc hlt hasks a

end Contract

/-- The rule for a loop by the attempts that are left.  The last attempt returns by itself, so that
    what the loop does without attempts does not matter; `ι` is what one attempt hands to the
    next. -/
theorem wp_countdown {σ ι : Type} {C : Contract S σ} {Q : α → σ → Prop} {I : ℕ → σ → Prop}
    {p : ℕ → ι → Prog S α}
    (hround : ∀ {left s} i, I (left + 1) s →
      (left ≠ 0 → ∀ {s} i, I left s → wp C (p left i) Q s) → wp C (p (left + 1) i) Q s)
    {left : ℕ} (hleft : left ≠ 0) {s : σ} (i : ι) (hs : I left s) : wp C (p left i) Q s := by
  induction left generalizing s i with
  | zero => exact absurd rfl hleft
  | succ left ih => exact hround i hs (fun hne s i hnext => ih hne i hnext)

end Interaction
