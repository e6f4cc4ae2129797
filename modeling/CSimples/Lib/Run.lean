import Mathlib.Data.List.Basic
import Mathlib.Data.List.Induction

/-!
# Runs of a state machine

Two shapes of machine are used. A *total* machine answers every action
(`step : σ → α → σ`); a run of it is a list of actions. A *partial* machine
refuses the actions that are not enabled (`step : σ → α → Option σ`), which is
the shape of several threads interleaving; its states are collected by `Reach`.
In both, an action may carry a condition on the state it is taken in.
-/

namespace CSimples.Run

variable {σ α : Type*}

/-! ### Total machines -/

section Total
variable (step : σ → α → σ)

/-- `P` holds at the start of the run and in every state it passes through. -/
def Along (P : σ → Prop) : σ → List α → Prop
  | s, [] => P s
  | s, a :: as => P s ∧ Along P (step s a) as

/-- Every action of the run is taken in a state that meets its condition. -/
def Meets (C : σ → α → Prop) : σ → List α → Prop
  | _, [] => True
  | s, a :: as => C s a ∧ Meets C (step s a) as

variable {step} {P Q : σ → Prop} {C : σ → α → Prop}

theorem along_head {s : σ} {as : List α} (h : Along step P s as) : P s := by
  cases as with
  | nil => exact h
  | cons a as => exact h.1

theorem along_mono (hpq : ∀ s, P s → Q s) {s : σ} {as : List α}
    (h : Along step P s as) : Along step Q s as := by
  induction as generalizing s with
  | nil => exact hpq s h
  | cons a as ih => exact ⟨hpq s h.1, ih h.2⟩

theorem along_iff_prefix {s : σ} {as : List α} :
    Along step P s as ↔ ∀ pre post, as = pre ++ post → P (pre.foldl step s) := by
  induction as generalizing s with
  | nil =>
    constructor
    · intro h pre post he
      obtain ⟨rfl, rfl⟩ := List.append_eq_nil_iff.mp he.symm
      exact h
    · intro h
      exact h [] [] rfl
  | cons a as ih =>
    constructor
    · intro h pre post he
      cases pre with
      | nil => exact h.1
      | cons b pre =>
        obtain ⟨rfl, rfl⟩ := List.cons_eq_cons.mp he
        exact ih.mp h.2 pre post rfl
    · intro h
      refine ⟨h [] (a :: as) rfl, ih.mpr ?_⟩
      intro pre post he
      exact h (a :: pre) post (by rw [he, List.cons_append])

theorem along_of_meets (hstep : ∀ s a, P s → C s a → P (step s a)) {s : σ} {as : List α}
    (h0 : P s) (hc : Meets step C s as) : Along step P s as := by
  induction as generalizing s with
  | nil => exact h0
  | cons a as ih => exact ⟨h0, ih (hstep s a h0 hc.1) hc.2⟩

theorem along_of_step (hstep : ∀ s a, P s → P (step s a)) {s : σ} (h0 : P s) (as : List α) :
    Along step P s as := by
  induction as generalizing s with
  | nil => exact h0
  | cons a as ih => exact ⟨h0, ih (hstep s a h0)⟩

theorem meets_of_meets {D : σ → α → Prop} (hstep : ∀ s a, P s → C s a → P (step s a))
    (hd : ∀ s a, P s → C s a → D s a) {s : σ} {as : List α} (h0 : P s)
    (hc : Meets step C s as) : Meets step D s as := by
  induction as generalizing s with
  | nil => trivial
  | cons a as ih => exact ⟨hd s a h0 hc.1, ih (hstep s a h0 hc.1) hc.2⟩

/-- A condition on the actions alone. -/
theorem meets_iff_forall {D : α → Prop} {s : σ} {as : List α} :
    Meets step (fun _ a => D a) s as ↔ ∀ a ∈ as, D a := by
  induction as generalizing s with
  | nil => exact iff_of_true trivial fun a ha => absurd ha List.not_mem_nil
  | cons a as ih => rw [Meets, ih, List.forall_mem_cons]

/-- Two conditions that agree wherever an invariant of all steps holds. -/
theorem meets_iff_meets {D : σ → α → Prop} (hstep : ∀ s a, P s → P (step s a))
    (hiff : ∀ s a, P s → (C s a ↔ D s a)) {s : σ} (h0 : P s) (as : List α) :
    Meets step C s as ↔ Meets step D s as := by
  constructor
  · exact meets_of_meets (fun s a h _ => hstep s a h) (fun s a h => (hiff s a h).mp) h0
  · exact meets_of_meets (fun s a h _ => hstep s a h) (fun s a h => (hiff s a h).mpr) h0

/-- When an invariant is kept by conditioned steps, and any other step breaks the
property at once, the condition is exactly what a whole run needs. -/
theorem along_iff_meets_of_inv {I : σ → Prop} (hgood : ∀ s, I s → P s)
    (hstep : ∀ s a, I s → C s a → I (step s a)) (hbad : ∀ s a, I s → ¬ C s a → ¬ P (step s a))
    {s : σ} (h0 : I s) (as : List α) : Along step P s as ↔ Meets step C s as := by
  induction as generalizing s with
  | nil => exact ⟨fun _ => trivial, fun _ => hgood s h0⟩
  | cons a as ih =>
    constructor
    · intro h
      have hc : C s a := by
        by_contra hne
        exact hbad s a h0 hne (along_head h.2)
      exact ⟨hc, (ih (hstep s a h0 hc)).mp h.2⟩
    · intro h
      exact ⟨hgood s h0, (ih (hstep s a h0 h.1)).mpr h.2⟩

theorem along_iff_meets (hstep : ∀ s a, P s → (P (step s a) ↔ C s a)) {s : σ}
    (h0 : P s) (as : List α) : Along step P s as ↔ Meets step C s as :=
  along_iff_meets_of_inv (fun _ h => h) (fun s a h hc => (hstep s a h).mpr hc)
    (fun s a h hne hp => hne ((hstep s a h).mp hp)) h0 as

end Total

/-! ### Partial machines -/

section Partial
variable (step : σ → α → Option σ)

/-- States reached from `s₀` by enabled actions that meet the condition `C`. -/
inductive Reach (C : σ → α → Prop) (s₀ : σ) : σ → Prop
  | start : Reach C s₀ s₀
  | next {s s' : σ} (a : α) : Reach C s₀ s → C s a → step s a = some s' → Reach C s₀ s'

variable {step} {C : σ → α → Prop}

theorem Reach.invariant {I : σ → Prop} {s₀ s : σ} (h : Reach step C s₀ s) (h0 : I s₀)
    (hstep : ∀ s a s', I s → C s a → step s a = some s' → I s') : I s := by
  induction h with
  | start => exact h0
  | next a _ hc hs ih => exact hstep _ a _ ih hc hs

/-- A list of enabled actions, one after another. -/
theorem Reach.of_run {s s' : σ} (as : List α) (hC : ∀ a ∈ as, ∀ s, C s a)
    (h : as.foldlM step s = some s') : Reach step C s s' := by
  induction as using List.reverseRecOn generalizing s' with
  | nil =>
    cases h
    exact .start
  | append_singleton as a ih =>
    rw [List.foldlM_append] at h
    obtain ⟨mid, hmid, h⟩ := Option.bind_eq_some_iff.mp h
    rw [List.foldlM_cons] at h
    obtain ⟨last, hlast, h⟩ := Option.bind_eq_some_iff.mp h
    cases h
    exact (ih (fun b hb => hC b (List.mem_append_left _ hb)) hmid).next a
      (hC a (List.mem_append_right _ (List.mem_singleton_self a)) mid) hlast

end Partial

end CSimples.Run
