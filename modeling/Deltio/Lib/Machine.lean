import Mathlib.Data.List.Basic
import Mathlib.Data.Option.Basic

namespace Deltio.Lib.Machine

variable {σ ε : Type*} (step : σ → ε → Option σ)

/-- The state after a sequence of events, if all of them can happen. -/
def run : σ → List ε → Option σ
  | s, [] => some s
  | s, e :: es => (step s e).bind fun t => run t es

/-- Every step that is taken meets the condition in the state before it. -/
def Along (C : σ → ε → Prop) : σ → List ε → Prop
  | _, [] => True
  | s, e :: es => ∀ t, step s e = some t → C s e ∧ Along C t es

lemma along_cons_of_some {C : σ → ε → Prop} {s u : σ} {e : ε} {es : List ε}
    (h : step s e = some u) : C s e ∧ Along step C u es ↔ Along step C s (e :: es) := by
  constructor
  · intro hu t ht
    rw [h] at ht
    cases ht
    exact hu
  · intro hs
    exact hs u h

instance decidableAlong {C : σ → ε → Prop} [∀ s e, Decidable (C s e)] :
    ∀ s es, Decidable (Along step C s es)
  | _, [] => isTrue trivial
  | s, e :: es =>
    match h : step s e with
    | none => isTrue fun t ht => by rw [h] at ht; cases ht
    | some u =>
      have := decidableAlong (C := C) u es
      decidable_of_iff _ (along_cons_of_some step h)

variable {step}

lemma run_cons {s t : σ} {e : ε} {es : List ε} :
    run step s (e :: es) = some t ↔ ∃ u, step s e = some u ∧ run step u es = some t :=
  Option.bind_eq_some_iff

/-- A condition on the events alone. -/
lemma along_of_forall {C : σ → ε → Prop} {es : List ε} (h : ∀ s, ∀ e ∈ es, C s e) (s : σ) :
    Along step C s es := by
  induction es generalizing s with
  | nil => trivial
  | cons e es ih =>
    intro t _
    exact ⟨h s e List.mem_cons_self, ih (fun s' e' he' => h s' e' (List.mem_cons_of_mem _ he')) t⟩

/-- An invariant of every step that meets the condition. -/
theorem Along.preserves {C : σ → ε → Prop} {I : σ → Prop} {s t : σ} {es : List ε}
    (h : Along step C s es) (hrun : run step s es = some t) (hs : I s)
    (hI : ∀ u e v, I u → C u e → step u e = some v → I v) : I t := by
  induction es generalizing s with
  | nil =>
    cases hrun
    exact hs
  | cons e es ih =>
    obtain ⟨u, hstep, hrun⟩ := run_cons.mp hrun
    obtain ⟨hc, hrest⟩ := h u hstep
    exact ih hrest hrun (hI s e u hs hc hstep)

/-- An invariant of every step. -/
theorem run_preserves {I : σ → Prop} {s t : σ} {es : List ε} (hrun : run step s es = some t)
    (hs : I s) (hI : ∀ u e v, I u → step u e = some v → I v) : I t :=
  (along_of_forall (C := fun _ _ => True) (fun _ _ _ => trivial) s).preserves hrun hs
    fun u e v hu _ => hI u e v hu

/-- A run is not longer than a number that every step that meets the condition makes smaller. -/
theorem Along.length_le {C : σ → ε → Prop} {I : σ → Prop} {size : σ → ℕ} {s t : σ} {es : List ε}
    (h : Along step C s es) (hrun : run step s es = some t) (hs : I s)
    (hI : ∀ u e v, I u → C u e → step u e = some v → I v)
    (hsize : ∀ u e v, I u → C u e → step u e = some v → size v < size u) :
    es.length ≤ size s := by
  induction es generalizing s with
  | nil => exact Nat.zero_le _
  | cons e es ih =>
    obtain ⟨u, hstep, hrun⟩ := run_cons.mp hrun
    obtain ⟨hc, hrest⟩ := h u hstep
    have hlength := ih hrest hrun (hI s e u hs hc hstep)
    have hlt := hsize s e u hs hc hstep
    rw [List.length_cons]
    omega

/-- What comes to hold by one event, and then stays, holds exactly if the event is in the
run.  The invariant `J` may be used for the single step. -/
theorem run_iff_mem {J D : σ → Prop} {x : ε} (hJ : ∀ u e v, J u → step u e = some v → J v)
    (hD : ∀ u e v, J u → step u e = some v → (D v ↔ D u ∨ x = e)) {s t : σ} {es : List ε}
    (hrun : run step s es = some t) (hs : J s) : D t ↔ D s ∨ x ∈ es := by
  induction es generalizing s with
  | nil =>
    cases hrun
    exact (or_iff_left List.not_mem_nil).symm
  | cons e es ih =>
    obtain ⟨u, hstep, hrun⟩ := run_cons.mp hrun
    rw [ih hrun (hJ s e u hs hstep), hD s e u hs hstep, List.mem_cons, or_assoc]

/-- If a step keeps the property exactly when it meets the condition, the
property holds along the run exactly when every step meets the condition.  The
invariant `J` may be used for the single step. -/
theorem forall_run_take_iff {C : σ → ε → Prop} {I J : σ → Prop}
    (hJ : ∀ u e v, J u → step u e = some v → J v)
    (hI : ∀ u e v, J u → I u → step u e = some v → (I v ↔ C u e)) {s : σ} (hs : J s) (hI₀ : I s)
    (es : List ε) :
    (∀ n t, run step s (es.take n) = some t → I t) ↔ Along step C s es := by
  induction es generalizing s with
  | nil =>
    refine iff_of_true (fun n t ht => ?_) trivial
    rw [List.take_nil] at ht
    cases ht
    exact hI₀
  | cons e es ih =>
    constructor
    · intro h u hstep
      have hu : I u := h 1 u (run_cons.mpr ⟨u, hstep, by rw [List.take_zero]; rfl⟩)
      refine ⟨(hI s e u hs hI₀ hstep).mp hu, (ih (hJ s e u hs hstep) hu).mp fun n t ht => ?_⟩
      exact h (n + 1) t (run_cons.mpr ⟨u, hstep, ht⟩)
    · intro h n t ht
      cases n with
      | zero =>
        cases ht
        exact hI₀
      | succ n =>
        obtain ⟨u, hstep, hrun⟩ := run_cons.mp ht
        obtain ⟨hc, hrest⟩ := h u hstep
        exact (ih (hJ s e u hs hstep) ((hI s e u hs hI₀ hstep).mpr hc)).mpr hrest n t hrun

end Deltio.Lib.Machine
