import Sigil.Sdk.VelocityTracker

/-!
# Dry runs of the velocity check

A dry run leaves no timestamp behind, but it starts a cooldown like any other check. Runs with and without dry runs are
compared by what their other calls show.
-/

namespace Sigil.Sdk

inductive VelocityCall where
  | check (dryRun : Bool)
  | recordTransaction (usdAmount : Option Int)
  | reset
  | getStats
  deriving DecidableEq, Repr

inductive VelocityEvent where
  | call (now : Int) (c : VelocityCall)
  /-- A dry run that is put between the calls. -/
  | inserted (now : Int)
  deriving DecidableEq, Repr

inductive VelocityObservation where
  | outcome (thrown : List VelocityViolation)
  | stats (s : VelocityStats)
  deriving DecidableEq, Repr

namespace VelocityEvent

def now : VelocityEvent → Int
  | call now _ => now
  | inserted now => now

def isCall : VelocityEvent → Bool
  | call _ _ => true
  | inserted _ => false

end VelocityEvent

namespace VelocityTracker

def exec (t : VelocityTracker) : VelocityEvent → VelocityTracker
  | .call now (.check dryRun) => t.check now dryRun
  | .call now (.recordTransaction usdAmount) => t.recordTransaction now usdAmount
  | .call _ .reset => t.reset
  | .call _ .getStats => t
  | .inserted now => t.check now true

/-- Checks that are no dry runs, and statistics. -/
def observation (t : VelocityTracker) : VelocityEvent → List VelocityObservation
  | .call now (.check false) => [.outcome (t.outcome now)]
  | .call now .getStats => [.stats (t.getStats now)]
  | _ => []

def observe : VelocityTracker → List VelocityEvent → List VelocityObservation
  | _, [] => []
  | t, e :: events => t.observation e ++ observe (t.exec e) events

/-- A check that finds a violation, and no cooldown. -/
def StartsCooldown (t : VelocityTracker) (now : Int) : Prop :=
  t.isInCooldown now = false ∧ t.violations now ≠ [] ∧ 0 < t.config.cooldownMs

instance {now : Int} : DecidablePred (StartsCooldown · now) := fun t =>
  inferInstanceAs (Decidable (t.isInCooldown now = false ∧ t.violations now ≠ [] ∧ 0 < t.config.cooldownMs))

/-- No inserted dry run of a run starts a cooldown. -/
def QuietRun : VelocityTracker → List VelocityEvent → Prop
  | _, [] => True
  | t, .inserted now :: events => ¬ t.StartsCooldown now ∧ QuietRun (t.check now true) events
  | t, .call now c :: events => QuietRun (t.exec (.call now c)) events

instance QuietRun.decidable : ∀ events t, Decidable (QuietRun t events)
  | [], _ => isTrue trivial
  | .inserted now :: events, t =>
      have : Decidable (QuietRun (t.check now true) events) := decidable events _
      inferInstanceAs (Decidable (¬ t.StartsCooldown now ∧ QuietRun (t.check now true) events))
  | .call now c :: events, t => decidable events (t.exec (.call now c))

/-- From `clock` on the two trackers cannot be told apart. -/
structure Agree (clock : Int) (t t' : VelocityTracker) : Prop where
  state : t'.state = t.state
  config : t'.config = t.config
  cooldown : t'.cooldownUntil = t.cooldownUntil ∨ t.cooldownUntil ≤ clock ∧ t'.cooldownUntil ≤ clock
  recent : t'.recentTimestamps clock = t.recentTimestamps clock

section
variable {t t' : VelocityTracker} {clock now : Int} {events : List VelocityEvent}

theorem Agree.refl : Agree clock t t := ⟨rfl, rfl, .inl rfl, rfl⟩

theorem recentTimestamps_later (h : clock ≤ now) :
    t.recentTimestamps now = (t.recentTimestamps clock).filter fun time =>
      now - t.config.rapidFireThreshold.windowMs ≤ time := by
  rw [recentTimestamps, recentTimestamps, List.filter_filter]
  apply List.filter_congr
  intro time _
  rw [← Bool.decide_and, decide_eq_decide]
  omega

theorem recentTimestamps_recent :
    recentTimestamps { t with txTimestamps := t.recentTimestamps now } now = t.recentTimestamps now := by
  simp [recentTimestamps, List.filter_filter]

theorem Agree.later (h : Agree clock t t') (hle : clock ≤ now) : Agree now t t' where
  state := h.state
  config := h.config
  cooldown := h.cooldown.imp_right fun hboth => ⟨hboth.1.trans hle, hboth.2.trans hle⟩
  recent := by rw [recentTimestamps_later hle, recentTimestamps_later hle, h.recent, h.config]

/-! ## What is shown -/

theorem Agree.isInCooldown (h : Agree now t t') : t'.isInCooldown now = t.isInCooldown now := by
  unfold VelocityTracker.isInCooldown
  rw [decide_eq_decide]
  rcases h.cooldown with heq | ⟨hle, hle'⟩
  · rw [heq]
  · omega

theorem Agree.cooldownUntil_eq (h : Agree now t t') (hcooldown : t.isInCooldown now = true) :
    t'.cooldownUntil = t.cooldownUntil := by
  rcases h.cooldown with heq | ⟨hle, -⟩
  · exact heq
  · exact absurd (of_decide_eq_true hcooldown) hle.not_gt

theorem Agree.violations (h : Agree now t t') : t'.violations now = t.violations now := by
  simp only [VelocityTracker.violations, checkState, checkRapidFire, h.state, h.config, h.recent]

theorem Agree.outcome (h : Agree now t t') : t'.outcome now = t.outcome now := by
  unfold VelocityTracker.outcome
  rw [h.isInCooldown, h.violations]
  cases hcooldown : t.isInCooldown now with
  | false => rfl
  | true => rw [h.cooldownUntil_eq hcooldown]

theorem Agree.getStats (h : Agree now t t') : t'.getStats now = t.getStats now := by
  have hremaining : t'.getCooldownRemainingMs now = t.getCooldownRemainingMs now := by
    unfold getCooldownRemainingMs
    rcases h.cooldown with heq | ⟨hle, hle'⟩
    · rw [heq]
    · rw [if_neg (by omega), if_neg (by omega)]
  simp only [VelocityTracker.getStats, h.state, h.isInCooldown, hremaining]

theorem Agree.observation {e : VelocityEvent} (h : Agree e.now t t') (hcall : e.isCall) :
    t'.observation e = t.observation e := by
  cases e with
  | inserted now => cases hcall
  | call now c =>
      cases c with
      | check dryRun =>
          cases dryRun with
          | false => exact congrArg (fun thrown => [VelocityObservation.outcome thrown]) (Agree.outcome h)
          | true => rfl
      | recordTransaction usdAmount => rfl
      | reset => rfl
      | getStats => exact congrArg (fun s => [VelocityObservation.stats s]) (Agree.getStats h)

/-! ## What is left behind -/

theorem check_of_cooldown {dryRun : Bool} (h : t.isInCooldown now = true) : t.check now dryRun = t := by
  rw [VelocityTracker.check, if_pos h]

theorem check_of_passed {dryRun : Bool} (h : t.isInCooldown now = false) (hnone : t.violations now = []) :
    t.check now dryRun =
      { t with txTimestamps := t.recentTimestamps now ++ if dryRun then [] else [now] } := by
  cases dryRun <;> simp [VelocityTracker.check, h, hnone]

theorem check_of_violation {dryRun : Bool} (h : t.isInCooldown now = false) (hsome : t.violations now ≠ []) :
    t.check now dryRun =
      { t with txTimestamps := t.recentTimestamps now, cooldownUntil := now + t.config.cooldownMs } := by
  simp [VelocityTracker.check, h, hsome]

/-- The trackers are given the same timestamps. -/
theorem Agree.timestamps (h : Agree now t t') {c c' : Int} (hcooldown : c' = c ∨ c ≤ now ∧ c' ≤ now)
    (times : List Int) : Agree now { t with txTimestamps := times, cooldownUntil := c }
      { t' with txTimestamps := times, cooldownUntil := c' } where
  state := h.state
  config := h.config
  cooldown := hcooldown
  recent := by simp only [recentTimestamps, h.config]

theorem Agree.check {dryRun : Bool} (h : Agree now t t') : Agree now (t.check now dryRun) (t'.check now dryRun) := by
  cases hcooldown : t.isInCooldown now with
  | true =>
      rw [check_of_cooldown hcooldown, check_of_cooldown (h.isInCooldown.trans hcooldown)]
      exact h
  | false =>
      have hcooldown' := h.isInCooldown.trans hcooldown
      by_cases hviolations : t.violations now = []
      · rw [check_of_passed hcooldown hviolations, check_of_passed hcooldown' (h.violations.trans hviolations),
          h.recent]
        exact h.timestamps h.cooldown _
      · rw [check_of_violation hcooldown hviolations,
          check_of_violation hcooldown' (h.violations ▸ hviolations), h.recent]
        exact h.timestamps (.inl (by rw [h.config])) _

theorem Agree.exec {e : VelocityEvent} (h : Agree e.now t t') (hcall : e.isCall) :
    Agree e.now (t.exec e) (t'.exec e) := by
  cases e with
  | inserted now => cases hcall
  | call now c =>
      cases c with
      | check dryRun => exact Agree.check h
      | recordTransaction usdAmount =>
          constructor
          case state => simp only [VelocityTracker.exec, VelocityTracker.recordTransaction, h.state]
          case config => exact h.config
          case cooldown => exact h.cooldown
          case recent => exact h.recent
      | reset => exact Agree.timestamps h (.inl rfl) []
      | getStats => exact h

/-- A dry run that starts no cooldown leaves nothing to be seen. -/
theorem Agree.inserted (h : Agree now t t') (hquiet : ¬ t'.StartsCooldown now) : Agree now t (t'.check now true) := by
  cases hcooldown : t'.isInCooldown now with
  | true =>
      rw [check_of_cooldown hcooldown]
      exact h
  | false =>
      have hover : t'.cooldownUntil ≤ now := Int.not_lt.mp (of_decide_eq_false hcooldown)
      have hover' : t.cooldownUntil ≤ now := by
        rcases h.cooldown with heq | ⟨hle, -⟩
        · rw [← heq]
          exact hover
        · exact hle
      by_cases hviolations : t'.violations now = []
      · rw [check_of_passed hcooldown hviolations]
        constructor
        case state => exact h.state
        case config => exact h.config
        case cooldown => exact h.cooldown
        case recent => simpa using recentTimestamps_recent.trans h.recent
      · have hnever : t'.config.cooldownMs ≤ 0 := by
          by_contra hpos
          exact hquiet ⟨hcooldown, hviolations, Int.not_le.mp hpos⟩
        rw [check_of_violation hcooldown hviolations]
        constructor
        case state => exact h.state
        case config => exact h.config
        case cooldown => exact .inr ⟨hover', by dsimp only; omega⟩
        case recent => exact recentTimestamps_recent.trans h.recent

/-! ## Runs -/

theorem Agree.observe (h : Agree clock t t') (hclock : (clock :: events.map VelocityEvent.now).Pairwise (· ≤ ·))
    (hquiet : t'.QuietRun events) : t'.observe events = t.observe (events.filter VelocityEvent.isCall) := by
  induction events generalizing clock t t' with
  | nil => rfl
  | cons e events ih =>
      obtain ⟨hle, hrest⟩ := List.pairwise_cons.mp hclock
      have hnow := h.later (hle e.now List.mem_cons_self)
      cases e with
      | call now c =>
          have hcall : (VelocityEvent.call now c).isCall := rfl
          rw [List.filter_cons_of_pos hcall, VelocityTracker.observe, VelocityTracker.observe, hnow.observation hcall,
            ih (hnow.exec hcall) hrest hquiet]
      | inserted now =>
          rw [List.filter_cons_of_neg (by simp [VelocityEvent.isCall])]
          exact ih (hnow.inserted hquiet.1) hrest hquiet.2

theorem quietRun_of_calls (h : ∀ e ∈ events, e.isCall) : t.QuietRun events := by
  induction events generalizing t with
  | nil => trivial
  | cons e events ih =>
      cases e with
      | call now c => exact ih fun e he => h e (List.mem_cons_of_mem _ he)
      | inserted now => cases h (.inserted now) List.mem_cons_self

end

/-- A dry run is never seen later if and only if it starts no cooldown. -/
theorem inserted_unseen_iff (t : VelocityTracker) (now : Int) :
    (∀ calls, (∀ e ∈ calls, e.isCall) → (now :: calls.map VelocityEvent.now).Pairwise (· ≤ ·) →
      (t.check now true).observe calls = t.observe calls) ↔ ¬ t.StartsCooldown now := by
  constructor
  · rintro hunseen ⟨hcooldown, hviolations, hpos⟩
    have hstats := hunseen [.call now .getStats] (by simp [VelocityEvent.isCall]) (by simp [VelocityEvent.now])
    rw [check_of_violation hcooldown hviolations] at hstats
    have hlater : now < now + t.config.cooldownMs := by omega
    simp [VelocityTracker.observe, VelocityTracker.observation, VelocityTracker.getStats, hcooldown] at hstats
    simp [VelocityTracker.isInCooldown, hlater] at hstats
  · intro hquiet calls hcalls hclock
    have hagree : Agree now t (t.check now true) := Agree.refl.inserted hquiet
    rw [hagree.observe hclock (quietRun_of_calls hcalls), List.filter_eq_self.mpr hcalls]

end VelocityTracker

/-- Dry runs that start no cooldown change nothing that other calls show, as long as the clock does not run
backwards. -/
theorem dry_runs_unseen {t : VelocityTracker} {events : List VelocityEvent}
    (hclock : (events.map VelocityEvent.now).Pairwise (· ≤ ·)) (hquiet : t.QuietRun events) :
    t.observe events = t.observe (events.filter VelocityEvent.isCall) := by
  cases events with
  | nil => rfl
  | cons e events =>
      have hsame : VelocityTracker.Agree e.now t t := .refl
      apply hsame.observe _ hquiet
      apply List.pairwise_cons.mpr
      refine ⟨fun time htime => ?_, hclock⟩
      rcases List.mem_cons.mp htime with rfl | hlater
      · exact le_refl _
      · exact (List.pairwise_cons.mp hclock).1 time hlater

/-! ### Four checks, a dry run and a check twenty seconds later -/

def idleTracker : VelocityTracker := .create .initial {}

def checksAt (times : List Int) : List VelocityEvent := times.map fun now => .call now (.check false)

def seenDryRun : List VelocityEvent := checksAt [0, 1, 2, 3] ++ [.inserted 4] ++ checksAt [20000]

def unseenDryRun : List VelocityEvent := checksAt [0, 1, 2] ++ [.inserted 3] ++ checksAt [4]

theorem dry_runs_unseen_fourth : idleTracker.observe unseenDryRun = idleTracker.observe (checksAt [0, 1, 2, 4]) :=
  dry_runs_unseen (by decide) (by decide)

/-- The dry run is the fifth within ten seconds, and its cooldown stops the last check. -/
theorem dry_run_seen : ¬ ∀ (t : VelocityTracker) (events : List VelocityEvent),
    (events.map VelocityEvent.now).Pairwise (· ≤ ·) →
    t.observe events = t.observe (events.filter VelocityEvent.isCall) := by
  intro h
  exact absurd (h idleTracker seenDryRun (by decide)) (by decide)

end Sigil.Sdk
