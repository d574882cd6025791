import Sigil.Library.Result
import Mathlib.Data.List.Induction

/-!
# Runs of a fallible step function

A run performs steps one after the other and fails with the first step that fails. An invariant may look at
the steps performed so far.
-/

namespace Sigil.Library

variable {ι σ ε : Type} (step : ι → σ → Except ε σ)

def run : List ι → σ → Except ε σ
  | [], s => pure s
  | i :: is, s => step i s >>= run is

/-- `P` holds in every state that a run passes, the first and the last included. -/
def Along (P : σ → Prop) : List ι → σ → Prop
  | [], s => P s
  | i :: is, s => P s ∧ ∀ s', step i s = .ok s' → Along P is s'

instance Along.decidable {P : σ → Prop} [DecidablePred P] : ∀ is s, Decidable (Along step P is s)
  | [], s => inferInstanceAs (Decidable (P s))
  | i :: is, s =>
      match h : step i s with
      | .error _ => decidable_of_iff (P s) (by simp [Along, h])
      | .ok s' =>
          have : Decidable (Along step P is s') := Along.decidable is s'
          decidable_of_iff (P s ∧ Along step P is s') (by simp [Along, h])

/-- `Q` holds of every transition of a run. -/
def Always (Q : ι → σ → σ → Prop) : List ι → σ → Prop
  | [], _ => True
  | i :: is, s => ∀ s', step i s = .ok s' → Q i s s' ∧ Always Q is s'

instance Always.decidable {Q : ι → σ → σ → Prop} [∀ i s s', Decidable (Q i s s')] :
    ∀ is s, Decidable (Always step Q is s)
  | [], _ => inferInstanceAs (Decidable True)
  | i :: is, s =>
      match h : step i s with
      | .error _ => isTrue (by simp [Always, h])
      | .ok s' =>
          have : Decidable (Always step Q is s') := Always.decidable is s'
          decidable_of_iff (Q i s s' ∧ Always step Q is s') (by simp [Always, h])

/-- A value that each step of a run rewrites, by its input and the state it is performed in. -/
def collect {β : Type} (rewrite : ι → σ → β → β) : List ι → σ → β → β
  | [], _, b => b
  | i :: is, s, b =>
      match step i s with
      | .error _ => b
      | .ok s' => collect rewrite is s' (rewrite i s b)

section
variable {step} {s s' : σ} {is js : List ι} {i : ι}

@[simp] theorem run_nil_eq_ok : run step [] s = .ok s' ↔ s = s' := pure_eq_ok

theorem run_cons_eq_ok : run step (i :: is) s = .ok s' ↔
    ∃ s₁, step i s = .ok s₁ ∧ run step is s₁ = .ok s' := bind_eq_ok

theorem run_append_eq_ok : run step (is ++ js) s = .ok s' ↔
    ∃ s₁, run step is s = .ok s₁ ∧ run step js s₁ = .ok s' := by
  induction is generalizing s with
  | nil => simp
  | cons i is ih =>
      simp only [List.cons_append, run_cons_eq_ok, ih]
      constructor
      · rintro ⟨s₁, h₁, s₂, h₂, h₃⟩
        exact ⟨s₂, ⟨s₁, h₁, h₂⟩, h₃⟩
      · rintro ⟨s₂, ⟨s₁, h₁, h₂⟩, h₃⟩
        exact ⟨s₁, h₁, s₂, h₂, h₃⟩

theorem run_concat_eq_ok : run step (is ++ [i]) s = .ok s' ↔
    ∃ s₁, run step is s = .ok s₁ ∧ step i s₁ = .ok s' := by
  simp [run_append_eq_ok, run_cons_eq_ok]

theorem Along.of_run {P : σ → Prop} (hP : Along step P (is ++ js) s) (h : run step is s = .ok s') : P s' := by
  induction is generalizing s with
  | nil =>
      obtain rfl := run_nil_eq_ok.mp h
      cases js with
      | nil => exact hP
      | cons j js => exact hP.1
  | cons i is ih =>
      obtain ⟨s₁, hi, h⟩ := run_cons_eq_ok.mp h
      exact ih (hP.2 s₁ hi) h

theorem along_iff {P : σ → Prop} : Along step P is s ↔
    ∀ before after s', is = before ++ after → run step before s = .ok s' → P s' := by
  constructor
  · rintro h before after s' rfl hrun
    exact h.of_run hrun
  · intro h
    induction is generalizing s with
    | nil => exact h [] [] s rfl (run_nil_eq_ok.mpr rfl)
    | cons i is ih =>
        refine ⟨h [] (i :: is) s rfl (run_nil_eq_ok.mpr rfl), fun s₁ hi => ih ?_⟩
        rintro before after s' rfl hrun
        exact h (i :: before) after s' rfl (run_cons_eq_ok.mpr ⟨s₁, hi, hrun⟩)

theorem always_iff {Q : ι → σ → σ → Prop} : Always step Q is s ↔
    ∀ before i after s₁ s₂, is = before ++ i :: after → run step before s = .ok s₁ → step i s₁ = .ok s₂ →
      Q i s₁ s₂ := by
  induction is generalizing s with
  | nil => simp [Always]
  | cons j is ih =>
      constructor
      · intro h before i after s₁ s₂ hsplit hrun hi
        cases before with
        | nil =>
            cases hsplit
            cases run_nil_eq_ok.mp hrun
            exact (h s₂ hi).1
        | cons k before =>
            cases hsplit
            obtain ⟨s₀, hk, hrun⟩ := run_cons_eq_ok.mp hrun
            exact ih.mp (h s₀ hk).2 before i after s₁ s₂ rfl hrun hi
      · intro h s₀ hj
        refine ⟨h [] j is s s₀ rfl (run_nil_eq_ok.mpr rfl) hj, ih.mpr ?_⟩
        rintro before i after s₁ s₂ rfl hrun hi
        exact h (j :: before) i after s₁ s₂ rfl (run_cons_eq_ok.mpr ⟨s₀, hj, hrun⟩) hi

theorem always_append_iff {Q : ι → σ → σ → Prop} : Always step Q (is ++ js) s ↔
    Always step Q is s ∧ ∀ s₁, run step is s = .ok s₁ → Always step Q js s₁ := by
  induction is generalizing s with
  | nil => simp [Always]
  | cons i is ih =>
      simp only [List.cons_append, Always, ih, run_cons_eq_ok]
      constructor
      · intro h
        refine ⟨fun s₁ hi => ⟨(h s₁ hi).1, (h s₁ hi).2.1⟩, ?_⟩
        rintro s₂ ⟨s₁, hi, hrun⟩
        exact (h s₁ hi).2.2 s₂ hrun
      · rintro ⟨h₁, h₂⟩ s₁ hi
        exact ⟨(h₁ s₁ hi).1, (h₁ s₁ hi).2, fun s₂ hrun => h₂ s₂ ⟨s₁, hi, hrun⟩⟩

/-- A property of the steps so far and the state they lead to holds at the end if every step of the run
keeps it. -/
theorem run_history {P : List ι → σ → Prop} (h₀ : P [] s)
    (hstep : ∀ before i after s₁ s₂, is = before ++ i :: after → run step before s = .ok s₁ →
      P before s₁ → step i s₁ = .ok s₂ → P (before ++ [i]) s₂)
    (h : run step is s = .ok s') : P is s' := by
  induction is using List.reverseRecOn generalizing s' with
  | nil => exact run_nil_eq_ok.mp h ▸ h₀
  | append_singleton is i ih =>
      obtain ⟨s₁, hrun, hlast⟩ := run_concat_eq_ok.mp h
      refine hstep is i [] s₁ s' rfl hrun (ih ?_ hrun) hlast
      intro before j after s₂ s₃ hsplit
      exact hstep before j (after ++ [i]) s₂ s₃ (by simp [hsplit])

/-- An invariant that every step keeps under its condition gives `P` along a run whose steps meet their conditions. -/
theorem Always.along {P I : σ → Prop} {Q : ι → σ → σ → Prop} (h : Always step Q is s) (h₀ : I s)
    (hstep : ∀ i ∈ is, ∀ s₁ s₂, I s₁ → Q i s₁ s₂ → step i s₁ = .ok s₂ → I s₂) (hI : ∀ s, I s → P s) :
    Along step P is s := by
  induction is generalizing s with
  | nil => exact hI s h₀
  | cons i is ih =>
      refine ⟨hI s h₀, fun s' hi => ?_⟩
      obtain ⟨hQ, hrest⟩ := h s' hi
      exact ih hrest (hstep i (by simp) s s' h₀ hQ hi) fun j hj => hstep j (by simp [hj])

/-- A view that depends on some of the inputs only: what is read off them rewrites it in their order. -/
theorem view_run {β δ : Type} {f : σ → β} {read : ι → Option δ} {rewrite : β → δ → β}
    (hstep : ∀ before i after s₁ s₂, is = before ++ i :: after → run step before s = .ok s₁ → step i s₁ = .ok s₂ →
      f s₂ = (read i).elim (f s₁) (rewrite (f s₁)))
    (h : run step is s = .ok s') : f s' = (is.filterMap read).foldl rewrite (f s) := by
  refine run_history (P := fun is s' => f s' = (is.filterMap read).foldl rewrite (f s)) rfl ?_ h
  intro before i after s₁ s₂ hsplit hrun hview hi
  rw [hstep before i after s₁ s₂ hsplit hrun hi, hview, List.filterMap_append, List.foldl_append]
  cases hread : read i with
  | none => simp [hread]
  | some d => simp [hread]

/-- A relation between the states of a run and the value that is collected along it. -/
theorem collect_run {β : Type} {rewrite : ι → σ → β → β} {P : β → σ → Prop} {b : β} (h₀ : P b s)
    (hstep : ∀ before i after s₁ s₂ b, is = before ++ i :: after → run step before s = .ok s₁ → P b s₁ →
      step i s₁ = .ok s₂ → P (rewrite i s₁ b) s₂)
    (h : run step is s = .ok s') : P (collect step rewrite is s b) s' := by
  induction is generalizing s b with
  | nil => exact run_nil_eq_ok.mp h ▸ h₀
  | cons i is ih =>
      obtain ⟨s₁, hi, hrun⟩ := run_cons_eq_ok.mp h
      rw [collect, hi]
      refine ih (hstep [] i is s s₁ b rfl (run_nil_eq_ok.mpr rfl) h₀ hi) ?_ hrun
      intro before j after s₂ s₃ b' hsplit hbefore
      exact hstep (i :: before) j after s₂ s₃ b' (by rw [hsplit]; rfl) (run_cons_eq_ok.mpr ⟨s₁, hi, hbefore⟩)

theorem run_invariant {P : σ → Prop} (h₀ : P s)
    (hstep : ∀ i ∈ is, ∀ s₁ s₂, P s₁ → step i s₁ = .ok s₂ → P s₂)
    (h : run step is s = .ok s') : P s' := by
  refine run_history (P := fun _ s => P s) h₀ ?_ h
  rintro before i after s₁ s₂ rfl _ hP hi
  exact hstep i (by simp) s₁ s₂ hP hi

/-- What does not hold at first and holds at the end is brought about by a step of the run. -/
theorem exists_step_of_run {P : σ → Prop} (h : run step is s = .ok s') (h₀ : ¬ P s) (h₁ : P s') :
    ∃ before i after s₁ s₂, is = before ++ i :: after ∧ run step before s = .ok s₁ ∧ step i s₁ = .ok s₂ ∧
      ¬ P s₁ ∧ P s₂ := by
  induction is generalizing s with
  | nil => exact absurd (run_nil_eq_ok.mp h ▸ h₁) h₀
  | cons j is ih =>
      obtain ⟨s₂, hj, h⟩ := run_cons_eq_ok.mp h
      by_cases hP : P s₂
      · exact ⟨[], j, is, s, s₂, rfl, run_nil_eq_ok.mpr rfl, hj, h₀, hP⟩
      · obtain ⟨before, i, after, s₃, s₄, rfl, hrun, hi, hnot, hP'⟩ := ih h hP
        exact ⟨j :: before, i, after, s₃, s₄, rfl, run_cons_eq_ok.mpr ⟨s₂, hj, hrun⟩, hi, hnot, hP'⟩

/-! ## What can be reached -/

/-- Some run of allowed inputs leads from one state to the other. -/
def Reaches (step : ι → σ → Except ε σ) (allowed : ι → Prop) (s s' : σ) : Prop :=
  ∃ is, (∀ i ∈ is, allowed i) ∧ run step is s = .ok s'

namespace Reaches

variable {allowed : ι → Prop} {s'' : σ}

theorem refl : Reaches step allowed s s := ⟨[], by simp, run_nil_eq_ok.mpr rfl⟩

theorem one (hi : allowed i) (h : step i s = .ok s') : Reaches step allowed s s' :=
  ⟨[i], by simp [hi], run_cons_eq_ok.mpr ⟨s', h, run_nil_eq_ok.mpr rfl⟩⟩

theorem trans : Reaches step allowed s s' → Reaches step allowed s' s'' → Reaches step allowed s s'' := by
  rintro ⟨is, his, h⟩ ⟨js, hjs, h'⟩
  refine ⟨is ++ js, fun i hi => ?_, run_append_eq_ok.mpr ⟨s', h, h'⟩⟩
  rcases List.mem_append.mp hi with hi | hi
  · exact his i hi
  · exact hjs i hi

theorem invariant {P : σ → Prop} (h : Reaches step allowed s s') (h₀ : P s)
    (hstep : ∀ i s₁ s₂, allowed i → P s₁ → step i s₁ = .ok s₂ → P s₂) : P s' := by
  obtain ⟨is, his, h⟩ := h
  exact run_invariant h₀ (fun i hi s₁ s₂ => hstep i s₁ s₂ (his i hi)) h

/-- A level that can rise by up to `d` at once can rise up to the top. -/
theorem climb {f : Nat → σ} {d bottom top : Nat} (hd : 0 < d)
    (hstep : ∀ n m, bottom ≤ n → n < m → m ≤ n + d → m ≤ top → Reaches step allowed (f n) (f m)) {n : Nat}
    (hge : bottom ≤ n) (hle : n ≤ top) : Reaches step allowed (f n) (f top) := by
  induction hk : top - n using Nat.strongRecOn generalizing n with
  | ind k ih =>
      rcases Nat.eq_or_lt_of_le hle with rfl | hlt
      · exact .refl
      · have hnext : min (n + d) top ≤ top := Nat.min_le_right ..
        have hrise := hstep n (min (n + d) top) hge (by omega) (Nat.min_le_left ..) hnext
        exact hrise.trans (ih _ (by omega) (by omega) hnext rfl)

end Reaches

section
variable {τ : Type} {f : τ → σ} {step' : ι → τ → Except ε τ} {t t' : τ}

/-- A run is a run of what its states are read as, if each step is one. -/
theorem run_map (hstep : ∀ i t t', step' i t = .ok t' → step i (f t) = .ok (f t')) (h : run step' is t = .ok t') :
    run step is (f t) = .ok (f t') := by
  induction is generalizing t with
  | nil =>
      obtain rfl := run_nil_eq_ok.mp h
      rfl
  | cons i is ih =>
      obtain ⟨t₁, hi, h⟩ := run_cons_eq_ok.mp h
      exact run_cons_eq_ok.mpr ⟨f t₁, hstep i t t₁ hi, ih h⟩

theorem Along.map {P : σ → Prop} (hstep : ∀ i t t', step' i t = .ok t' → step i (f t) = .ok (f t'))
    (h : Along step P is (f t)) : Along step' (fun t => P (f t)) is t := by
  refine along_iff.mpr fun before after t' hsplit hrun => ?_
  exact along_iff.mp h before after (f t') hsplit (run_map hstep hrun)

/-- A run with more in its states, if no step is hindered by it. -/
theorem exists_run_of_map (hstep : ∀ i t s', step i (f t) = .ok s' → ∃ t', step' i t = .ok t' ∧ f t' = s')
    (h : run step is (f t) = .ok s') : ∃ t', run step' is t = .ok t' ∧ f t' = s' := by
  induction is generalizing t with
  | nil => exact ⟨t, run_nil_eq_ok.mpr rfl, run_nil_eq_ok.mp h⟩
  | cons i is ih =>
      obtain ⟨s₁, hi, h⟩ := run_cons_eq_ok.mp h
      obtain ⟨t₁, ht₁, rfl⟩ := hstep i t s₁ hi
      obtain ⟨t', hrun, heq⟩ := ih h
      exact ⟨t', run_cons_eq_ok.mpr ⟨t₁, ht₁, hrun⟩, heq⟩

end

/-- A step function that accepts more has the same runs and others. -/
theorem run_mono {step' : ι → σ → Except ε σ} (hstep : ∀ i s₁ s₂, step i s₁ = .ok s₂ → step' i s₁ = .ok s₂)
    (h : run step is s = .ok s') : run step' is s = .ok s' :=
  run_map (f := id) hstep h

/-! ## Two machines on the same inputs -/

/-- Both computations end in related values, or both fail with one error. -/
inductive SameOutcome {α β : Type} (R : α → β → Prop) : Except ε α → Except ε β → Prop
  | ok {a : α} {b : β} (h : R a b) : SameOutcome R (.ok a) (.ok b)
  | error (e : ε) : SameOutcome R (.error e) (.error e)

theorem SameOutcome.map {α β : Type} {R : α → β → Prop} {g : α → β} {x : Except ε α} {y : Except ε β}
    (h : SameOutcome R x y) (hg : ∀ a b, R a b → g a = b) : x.map g = y := by
  cases h with
  | ok h => exact congrArg Except.ok (hg _ _ h)
  | error e => rfl

/-- Steps that keep two states related do so over a run. -/
theorem run_sameOutcome {τ : Type} {R : τ → σ → Prop} {step' : ι → τ → Except ε τ} {t : τ} (h₀ : R t s)
    (hstep : ∀ before i after s₁ t₁, is = before ++ i :: after → run step before s = .ok s₁ → R t₁ s₁ →
      SameOutcome R (step' i t₁) (step i s₁)) : SameOutcome R (run step' is t) (run step is s) := by
  induction is generalizing s t with
  | nil => exact .ok h₀
  | cons i is ih =>
      have hi := hstep [] i is s t rfl (run_nil_eq_ok.mpr rfl) h₀
      rw [run, run]
      generalize hs : step i s = x at hi
      generalize step' i t = y at hi
      cases hi with
      | error e => exact .error e
      | @ok t₁ s₁ h₁ =>
          refine ih h₁ ?_
          intro before j after s₂ t₂ hsplit hrun
          exact hstep (i :: before) j after s₂ t₂ (by rw [hsplit]; rfl) (run_cons_eq_ok.mpr ⟨s₁, hs, hrun⟩)

theorem avoids_run {bad : ε → Bool} (h : ∀ i s, Avoids bad (step i s)) (is : List ι) (s : σ) :
    Avoids bad (run step is s) := by
  induction is generalizing s with
  | nil => exact avoids_pure
  | cons i is ih => exact avoids_bind.mpr ⟨h i s, fun s' _ => ih s'⟩

end

end Sigil.Library
