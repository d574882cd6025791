import Mathlib.Data.Fintype.Basic
import Mathlib.Data.List.Induction
import Mathlib.Order.Nat

/-!
# Asynchronous functions

The calls of an asynchronous function take turns on a state that they share. In one turn a call begins or is answered,
and it runs until it waits again or settles. A log has an entry for every turn.
-/

namespace Sigil.Library

/-- What holds of every element of a list and those before it. -/
def Throughout {ε : Type} (P : List ε → ε → Prop) (l : List ε) : Prop :=
  ∀ before e later, l = before ++ e :: later → P before e

theorem throughout_nil {ε : Type} {P : List ε → ε → Prop} : Throughout P [] := by
  intro before e later heq
  simp at heq

theorem throughout_concat {ε : Type} {P : List ε → ε → Prop} {l : List ε} {e : ε} :
    Throughout P (l ++ [e]) ↔ Throughout P l ∧ P l e := by
  constructor
  · intro h
    refine ⟨?_, h l e [] rfl⟩
    intro before d later heq
    exact h before d (later ++ [e]) (by rw [heq, List.append_assoc, List.cons_append])
  · rintro ⟨hinit, hlast⟩ before d later heq
    cases later using List.reverseRecOn with
    | nil =>
        obtain ⟨rfl, hd⟩ := List.append_inj' heq rfl
        cases hd
        exact hlast
    | append_singleton later last =>
        have hsplit : l ++ [e] = (before ++ d :: later) ++ [last] := by
          rw [heq, List.append_assoc, List.cons_append]
        exact hinit before d later (List.append_inj' hsplit rfl).1

theorem throughout_iff {ε : Type} {P : List ε → ε → Prop} {l : List ε} :
    Throughout P l ↔ ∀ k : Fin l.length, P (l.take k) l[k] := by
  constructor
  · intro h k
    refine h _ _ (l.drop (k + 1)) ?_
    rw [Fin.getElem_fin, List.getElem_cons_drop, List.take_append_drop]
  · rintro h before e later rfl
    have hlt : before.length < (before ++ e :: later).length := by simp
    have := h ⟨before.length, hlt⟩
    simpa using this

instance Throughout.decidable {ε : Type} {P : List ε → ε → Prop} [∀ before e, Decidable (P before e)] (l : List ε) :
    Decidable (Throughout P l) := decidable_of_iff _ throughout_iff.symm

/-- Where a call stands between two turns. -/
inductive Stage (ω ο : Type) where
  | waits (w : ω)
  | settled (o : ο)
  deriving DecidableEq

def Stage.waiting {ω ο : Type} : Stage ω ο → Option ω
  | .waits w => some w
  | .settled _ => none

@[simp] theorem Stage.waiting_eq_some {ω ο : Type} {s : Stage ω ο} {w : ω} : s.waiting = some w ↔ s = .waits w := by
  cases s <;> simp [waiting]

/-- A call that waits for something else is not resumed by an answer. -/
structure AsyncFunction (σ ι ω α ο : Type) where
  call : σ → ι → σ × Stage ω ο
  resume : σ → ι → ω → α → Option (σ × Stage ω ο)

namespace AsyncFunction

variable {σ ι ω α ο : Type}

inductive Turn (ι α : Type) where
  | call (input : ι)
  | answer (i : Nat) (a : α)

/-- What a call has got, unless it has begun, and where it stands then. -/
structure Entry (ι ω α ο : Type) where
  call : Nat
  input : ι
  answered : Option (ω × α)
  stage : Stage ω ο

structure Tasks (σ ι ω α ο : Type) where
  shared : σ
  calls : List (ι × Stage ω ο)
  log : List (Entry ι ω α ο)

variable (f : AsyncFunction σ ι ω α ο)

def begin (t : Tasks σ ι ω α ο) (input : ι) : Tasks σ ι ω α ο :=
  let r := f.call t.shared input
  { shared := r.1
    calls := t.calls ++ [(input, r.2)]
    log := t.log ++ [⟨t.calls.length, input, none, r.2⟩] }

def resumed (t : Tasks σ ι ω α ο) (i : Nat) (input : ι) (w : ω) (a : α) (r : σ × Stage ω ο) : Tasks σ ι ω α ο :=
  { shared := r.1
    calls := t.calls.set i (input, r.2)
    log := t.log ++ [⟨i, input, some (w, a), r.2⟩] }

def answer (t : Tasks σ ι ω α ο) (i : Nat) (a : α) : Option (Tasks σ ι ω α ο) :=
  t.calls[i]?.bind fun c => c.2.waiting.bind fun w => (f.resume t.shared c.1 w a).map (resumed t i c.1 w a)

def exec (t : Tasks σ ι ω α ο) : Turn ι α → Tasks σ ι ω α ο
  | .call input => f.begin t input
  | .answer i a => (f.answer t i a).getD t

/-- After turns, from a state without calls. -/
def after (s : σ) (turns : List (Turn ι α)) : Tasks σ ι ω α ο :=
  turns.foldl f.exec { shared := s, calls := [], log := [] }

variable {f}

theorem answer_eq_some {t t' : Tasks σ ι ω α ο} {i : Nat} {a : α} : f.answer t i a = some t' ↔
    ∃ input w r, t.calls[i]? = some (input, .waits w) ∧ f.resume t.shared input w a = some r ∧
      resumed t i input w a r = t' := by
  simp only [answer, Option.bind_eq_some_iff, Option.map_eq_some_iff, Stage.waiting_eq_some, Prod.exists]
  constructor
  · rintro ⟨input, stage, hcall, w, rfl, s, stage', hresume, rfl⟩
    exact ⟨input, w, s, stage', hcall, hresume, rfl⟩
  · rintro ⟨input, w, s, stage', hcall, hresume, rfl⟩
    exact ⟨input, .waits w, hcall, w, rfl, s, stage', hresume, rfl⟩

theorem after_concat (s : σ) (turns : List (Turn ι α)) (turn : Turn ι α) :
    f.after s (turns ++ [turn]) = f.exec (f.after s turns) turn := by
  rw [after, List.foldl_append]
  rfl

/-! ## Proof outlines

What is known of the shared state and of every call that waits, given the log, and what an entry says of the log before
it. The turns of other calls must leave the knowledge of a call as it is. -/

section
variable {Shared : List (Entry ι ω α ο) → σ → Prop} {Waiting : List (Entry ι ω α ο) → Nat → ι → ω → Prop}
  {Entered : List (Entry ι ω α ο) → Entry ι ω α ο → Prop}

variable (Shared Waiting Entered) in
/-- An entry and the shared state after its turn. -/
structure Established (log : List (Entry ι ω α ο)) (e : Entry ι ω α ο) (s : σ) : Prop where
  shared : Shared (log ++ [e]) s
  waiting : ∀ w, e.stage = .waits w → Waiting (log ++ [e]) e.call e.input w
  entered : Entered log e

variable (f Shared Waiting Entered) in
structure Outline : Prop where
  stable : ∀ {log i input w e}, Waiting log i input w → e.call ≠ i → Waiting (log ++ [e]) i input w
  call : ∀ {log s i input}, Shared log s → (∀ e ∈ log, e.call ≠ i) →
    Established Shared Waiting Entered log ⟨i, input, none, (f.call s input).2⟩ (f.call s input).1
  resume : ∀ {log s i input w a r}, Shared log s → Waiting log i input w → f.resume s input w a = some r →
    Established Shared Waiting Entered log ⟨i, input, some (w, a), r.2⟩ r.1

variable (Shared Waiting Entered) in
/-- What an outline proves of a state. -/
structure Sound (t : Tasks σ ι ω α ο) : Prop where
  shared : Shared t.log t.shared
  waiting : ∀ i input w, t.calls[i]? = some (input, .waits w) → Waiting t.log i input w
  entered : Throughout Entered t.log
  known : ∀ e ∈ t.log, e.call < t.calls.length

theorem Sound.begin {t : Tasks σ ι ω α ο} (ho : Outline f Shared Waiting Entered)
    (h : Sound Shared Waiting Entered t) (input : ι) : Sound Shared Waiting Entered (f.begin t input) := by
  have hnew : ∀ e ∈ t.log, e.call ≠ t.calls.length := fun e he => (h.known e he).ne
  have hturn : Established Shared Waiting Entered t.log ⟨t.calls.length, input, none, (f.call t.shared input).2⟩
    (f.call t.shared input).1 := ho.call h.shared hnew
  refine ⟨hturn.shared, ?_, throughout_concat.mpr ⟨h.entered, hturn.entered⟩, ?_⟩
  · intro i input' w hcall
    simp only [AsyncFunction.begin, List.getElem?_append, List.getElem?_singleton] at hcall
    split at hcall
    · next hlt => exact ho.stable (h.waiting i input' w hcall) hlt.ne'
    · split at hcall
      · next hge heq =>
          obtain rfl : i = t.calls.length := by omega
          obtain ⟨rfl, hstage⟩ := Prod.mk.inj (Option.some.inj hcall)
          exact hturn.waiting w hstage
      · cases hcall
  · intro e he
    simp only [AsyncFunction.begin, List.mem_append, List.mem_singleton] at he
    simp only [AsyncFunction.begin, List.length_append, List.length_singleton]
    rcases he with he | rfl
    · exact (h.known e he).trans (Nat.lt_succ_self _)
    · exact Nat.lt_succ_self _

theorem Sound.resumed {t : Tasks σ ι ω α ο} {i : Nat} {input : ι} {w : ω} {a : α} {r : σ × Stage ω ο}
    (ho : Outline f Shared Waiting Entered) (h : Sound Shared Waiting Entered t)
    (hcall : t.calls[i]? = some (input, .waits w)) (hresume : f.resume t.shared input w a = some r) :
    Sound Shared Waiting Entered (AsyncFunction.resumed t i input w a r) := by
  have hturn := ho.resume h.shared (h.waiting i input w hcall) hresume
  have hlt : i < t.calls.length := (List.getElem?_eq_some_iff.mp hcall).1
  refine ⟨hturn.shared, ?_, throughout_concat.mpr ⟨h.entered, hturn.entered⟩, ?_⟩
  · intro j input' w' hj
    simp only [AsyncFunction.resumed, List.getElem?_set] at hj
    split at hj
    · next heq =>
        subst heq
        obtain ⟨rfl, hstage⟩ := Prod.mk.inj (Option.some.inj hj)
        exact hturn.waiting w' hstage
    · next hne => exact ho.stable (h.waiting j input' w' hj) hne
  · intro e he
    simp only [AsyncFunction.resumed, List.mem_append, List.mem_singleton] at he
    simp only [AsyncFunction.resumed, List.length_set]
    rcases he with he | rfl
    · exact h.known e he
    · exact hlt

/-- An outline holds in every interleaving of any number of calls. -/
theorem Outline.sound (ho : Outline f Shared Waiting Entered) {s : σ} (hs : Shared [] s) (turns : List (Turn ι α)) :
    Sound Shared Waiting Entered (f.after s turns) := by
  induction turns using List.reverseRecOn with
  | nil => exact ⟨hs, by simp [after], throughout_nil, by simp [after]⟩
  | append_singleton turns turn ih =>
      rw [after_concat]
      cases turn with
      | call input => exact ih.begin ho input
      | answer i a =>
          rw [exec]
          cases hanswer : f.answer (f.after s turns) i a with
          | none => exact ih
          | some t =>
              obtain ⟨input, w, r, hcall, hresume, rfl⟩ := answer_eq_some.mp hanswer
              exact ih.resumed ho hcall hresume

end

end AsyncFunction

end Sigil.Library
