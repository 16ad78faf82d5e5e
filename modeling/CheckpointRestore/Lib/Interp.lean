import CheckpointRestore.Lib.Prog

namespace Interaction

/-!
# Interpretations

A program over one signature becomes a program over another one when each of its operations is
replaced by a program: a call by the body of the callee, or an operation by one of a larger world.

* `Prog.interp` — the replacement;
* `wp_interp` — what a program owes over an abstract contract it owes over a concrete one, if every
  operation's program implements the abstract contract;
* `wp_interp_of_keeps` — the same for an invariant of the concrete level alone.
-/

variable {S T : Signature} {α V W : Type}

/-- Every operation is run as the program that `h` gives for it. -/
def Prog.interp (h : (op : S.Op) → Prog T (S.Reply op)) : Prog S α → Prog T α
  | .pure a => .pure a
  | .call op k => h op >>= fun r => (k r).interp h

section Interp
variable {h : (op : S.Op) → Prog T (S.Reply op)}

/-- Contracts of an abstract and a concrete level, whose states are related by `R`. -/
theorem wp_interp {C : Contract S V} {C' : Contract T W} {R : V → W → Prop}
    (himpl : ∀ op v w, R v w → C.pre op v →
      wp C' (h op) (fun r w' => ∃ v', C.post op v r v' ∧ R v' w') w)
    {p : Prog S α} {Q : α → V → Prop} {v : V} {w : W} (hp : wp C p Q v) (hR : R v w) :
    wp C' (p.interp h) (fun a w' => ∃ v', Q a v' ∧ R v' w') w := by
  induction p generalizing v w with
  | pure a => exact ⟨v, hp, hR⟩
  | call op k ih =>
    show wp C' (h op >>= fun r => (k r).interp h) _ w
    rw [wp_bind]
    refine wp_mono ?_ (himpl op v w hR hp.1)
    rintro r w' ⟨v', hpost, hR'⟩
    exact ih r (hp.2 r v' hpost) hR'

/-- What every operation's program keeps, the whole program keeps. -/
theorem wp_interp_of_keeps {C : Contract T W} {I : W → Prop}
    (hkeeps : ∀ op w, I w → wp C (h op) (fun _ w' => I w') w) (p : Prog S α) {w : W} (hw : I w) :
    wp C (p.interp h) (fun _ w' => I w') w := by
  induction p generalizing w with
  | pure a => exact hw
  | call op k ih =>
    show wp C (h op >>= fun r => (k r).interp h) _ w
    rw [wp_bind]
    exact wp_mono (fun r _ hw' => ih r hw') (hkeeps op w hw)

end Interp

end Interaction
