import CheckpointRestore.Api.CheckpointPath
import CheckpointRestore.Retention.Names

namespace CheckpointRestore

open Go Go.Filepath
open Retention (CheckpointDetails validIdentity IsTimestamp kubeletName)

/-!
# The namespace hint in a file name

The controller lets a `PodRestore` use an archive if the text behind the pod in the archive's file
name begins with the `PodRestore`'s namespace and a dash.  Namespace, container and timestamp are
joined by dashes and may contain dashes, so the text can be split in several ways.

* `DocumentedMatch` — the namespaces that the comment on the check lets pass;
* `Resplit` — a namespace that reaches into the container or the timestamp;
* `validateCheckpointNamespaceHint_ok_iff` — the check accepts both;
* `namespaceHint_documented_iff` — it is as strong as documented unless the namespace is such a
  resplit.
-/

/-- The archive's namespace, or a namespace that a dash continues to it. -/
def DocumentedMatch (ns recorded : String) : Prop :=
  ns = recorded ∨ Strings.hasPrefix recorded (ns ++ "-") = true

/-- The archive's namespace continued by a dash and the text that a later dash ends. -/
def Resplit (ref : CheckpointDetails) (timestamp ns : String) : Prop :=
  ∃ x, ns = ref.ns ++ "-" ++ x ∧
    Strings.hasPrefix (ref.container ++ "-" ++ timestamp ++ ".tar") (x ++ "-") = true

/-- The file of the name in some directory. -/
def InSomeDir (p name : String) : Prop := p = name ∨ ∃ dir, p = dir ++ "/" ++ name

/-! ### Splitting a text at a dash -/

/-- A text and a dash that begin two texts joined by a dash: they end in the first text, with it, or
    in the second. -/
theorem append_dash_iff {ns first second : List Char} :
    (∃ t, first ++ '-' :: second = ns ++ '-' :: t) ↔
      ns = first ∨ (∃ t, first = ns ++ '-' :: t) ∨
        ∃ x, ns = first ++ '-' :: x ∧ ∃ t, second = x ++ '-' :: t := by
  constructor
  · rintro ⟨t, h⟩
    rcases List.append_eq_append_iff.mp h with ⟨a, rfl, hrest⟩ | ⟨a, rfl, hrest⟩
    · cases a with
      | nil => exact Or.inl (by simp)
      | cons c a =>
        obtain ⟨rfl, rfl⟩ := List.cons.inj hrest
        exact Or.inr (Or.inr ⟨a, rfl, t, rfl⟩)
    · cases a with
      | nil => exact Or.inl (by simp)
      | cons c a =>
        obtain ⟨rfl, -⟩ := List.cons.inj hrest
        exact Or.inr (Or.inl ⟨a, rfl⟩)
  · rintro (rfl | ⟨t, rfl⟩ | ⟨x, rfl, t, rfl⟩)
    · exact ⟨second, rfl⟩
    · exact ⟨t ++ '-' :: second, by simp⟩
    · exact ⟨t, by simp⟩

/-- A text begins with another and a dash. -/
theorem hasPrefix_dash_iff {s ns : String} :
    Strings.hasPrefix s (ns ++ "-") = true ↔ ∃ t, s.toList = ns.toList ++ '-' :: t := by
  rw [Strings.hasPrefix, List.isPrefixOf_iff_prefix, String.toList_append]
  constructor
  · rintro ⟨t, ht⟩
    refine ⟨t, ?_⟩
    rw [← ht]
    simp
  · rintro ⟨t, ht⟩
    refine ⟨t, ?_⟩
    rw [ht]
    simp

/-! ### What the check accepts -/

section Hint
variable {ref : CheckpointDetails} {timestamp p : String}

/-- The base name of an archive's path. -/
theorem base_of_inSomeDir (href : validIdentity ref = true) (ht : IsTimestamp timestamp)
    (hp : InSomeDir p (kubeletName ref timestamp)) : base p = kubeletName ref timestamp := by
  obtain ⟨-, -, -, hslash⟩ := Retention.normal_kubeletName href ht
  have hne : (kubeletName ref timestamp).toList ≠ [] := by
    rw [Retention.toList_kubeletName]
    simp
  rw [base, ← String.toList_inj, String.toList_ofList]
  rcases hp with rfl | ⟨dir, rfl⟩
  · exact baseChars_of_notMem hslash hne
  · have htext : (dir ++ "/" ++ kubeletName ref timestamp).toList =
        dir.toList ++ '/' :: (kubeletName ref timestamp).toList := by
      simp
    rw [htext]
    exact baseChars_append hslash hne

/-- The check accepts the namespaces that are documented and the resplits. -/
theorem validateCheckpointNamespaceHint_ok_iff (href : validIdentity ref = true)
    (ht : IsTimestamp timestamp) (hp : InSomeDir p (kubeletName ref timestamp)) (ns : String) :
    validateCheckpointNamespaceHint p ns = .ok () ↔
      DocumentedMatch ns ref.ns ∨ Resplit ref timestamp ns := by
  obtain ⟨-, hpod, -⟩ := Retention.isNameChar_of_validIdentity href
  have hpod' : '_' ∉ ref.pod.toList := Retention.notMem_of_isNameChar (by decide) hpod
  have hname : kubeletName ref timestamp = "checkpoint-" ++ (ref.pod ++ String.ofList ['_'] ++
      (ref.ns ++ "-" ++ (ref.container ++ "-" ++ timestamp ++ ".tar"))) := by
    rw [← String.toList_inj, Retention.toList_kubeletName, Retention.nameTail]
    simp
  unfold validateCheckpointNamespaceHint
  rw [base_of_inSomeDir href ht hp, hname, Strings.cutPrefix_append]
  dsimp only
  rw [Strings.cut_append hpod']
  dsimp only
  have haccepted : ∀ (b : Bool) (e : PathError),
      (if !b then (.error e : Except PathError Unit) else .ok ()) = .ok () ↔ b = true := by
    intro b e
    cases b <;> simp
  rw [haccepted, hasPrefix_dash_iff]
  have htail : (ref.ns ++ "-" ++ (ref.container ++ "-" ++ timestamp ++ ".tar")).toList =
      ref.ns.toList ++ '-' :: (ref.container ++ "-" ++ timestamp ++ ".tar").toList := by
    simp
  rw [htail, append_dash_iff, String.toList_inj, ← hasPrefix_dash_iff, DocumentedMatch, or_assoc]
  refine or_congr_right (or_congr_right ?_)
  constructor
  · rintro ⟨x, hx, hrest⟩
    refine ⟨String.ofList x, ?_, hasPrefix_dash_iff.mpr ?_⟩
    · rw [← String.toList_inj, hx]
      simp
    · rwa [String.toList_ofList]
  · rintro ⟨x, hx, hrest⟩
    refine ⟨x.toList, ?_, hasPrefix_dash_iff.mp hrest⟩
    rw [hx]
    simp

/-- A resplit is longer than the archive's namespace. -/
theorem Resplit.not_documentedMatch {ns : String} (h : Resplit ref timestamp ns) :
    ¬ DocumentedMatch ns ref.ns := by
  obtain ⟨x, rfl, -⟩ := h
  rintro (heq | hprefix)
  · have hlen := congrArg (fun s => s.toList.length) heq
    simp at hlen
  · obtain ⟨t, ht⟩ := hasPrefix_dash_iff.mp hprefix
    have hlen := congrArg List.length ht
    simp at hlen

end Hint

/-- **The hint is as strong as documented**, that is, it accepts an archive of the kubelet exactly
    for the archive's namespace and for a namespace that a dash continues to it, unless the
    namespace is a resplit of the archive's name. -/
theorem namespaceHint_documented_iff {ref : CheckpointDetails} {timestamp p : String}
    (href : validIdentity ref = true) (ht : IsTimestamp timestamp)
    (hp : InSomeDir p (kubeletName ref timestamp)) (ns : String) :
    (validateCheckpointNamespaceHint p ns = .ok () ↔ DocumentedMatch ns ref.ns) ↔
      ¬ Resplit ref timestamp ns := by
  rw [validateCheckpointNamespaceHint_ok_iff href ht hp]
  constructor
  · intro h hresplit
    exact hresplit.not_documentedMatch (h.mp (Or.inr hresplit))
  · intro hnot
    exact or_iff_left hnot

/-- A container whose name is the rest of another namespace's. -/
def prodContainer : CheckpointDetails where
  ns := "team"
  pod := "web"
  container := "prod"

/-- The rule at work, for the archive's own namespace. -/
theorem namespaceHint_documented_team :
    validateCheckpointNamespaceHint
        ("/ckpt" ++ "/" ++ kubeletName prodContainer "2026-01-01T00:00:00Z") "team" = .ok () ↔
      DocumentedMatch "team" "team" := by
  refine (namespaceHint_documented_iff (by decide) Retention.isTimestamp_newYear
    (Or.inr ⟨"/ckpt", rfl⟩) "team").mpr ?_
  rintro ⟨x, hx, -⟩
  have hchars := congrArg String.toList hx
  simp [prodContainer] at hchars

/-- The archive of the container `prod` in `team` is accepted for `team-prod`, and even for
    `team-prod-2026-01`: neither is documented, and with them no container would be left. -/
theorem resplit_accepted :
    (validateCheckpointNamespaceHint
        ("/ckpt" ++ "/" ++ kubeletName prodContainer "2026-01-01T00:00:00Z") "team-prod" = .ok () ∧
      ¬ DocumentedMatch "team-prod" prodContainer.ns) ∧
    validateCheckpointNamespaceHint
        ("/ckpt" ++ "/" ++ kubeletName prodContainer "2026-01-01T00:00:00Z") "team-prod-2026-01"
        = .ok () ∧
      ¬ DocumentedMatch "team-prod-2026-01" prodContainer.ns := by
  unfold DocumentedMatch
  decide

end CheckpointRestore
