import Sigil.Library.EpochLog

/-!
# Counters whose window starts over

A counter remembers when its window has started and what was recorded since. The first record that comes `n` epochs
after the start or later begins another window. Any `n` consecutive epochs meet two such windows at most.
-/

namespace Sigil.Library.EpochLog

/-- The log falls into the records of the running window and older ones. Behind the start of the running window, `n`
epochs reach back into the window before it and no further. -/
structure Split (n : Int) (cap : Nat) (start : Int) (recent old : EpochLog) : Prop where
  started : start ∈ recent.epochs
  range : ∀ k ∈ recent.epochs, start ≤ k ∧ k < start + n
  within : (recent.map Prod.snd).sum ≤ cap
  older : ∀ k ∈ old.epochs, k < start
  previous : ∀ e, start ≤ e → old.windowTotal (e - (n - 1)) e ≤ cap
  bounded : ∀ e, old.windowTotal (e - (n - 1)) e ≤ 2 * cap

/-- A counter that holds `spend` since `start` has counted the log. -/
def Windowed (n : Int) (cap : Nat) (start : Int) (spend : Nat) (log : EpochLog) : Prop :=
  ∃ recent old, log = recent ++ old ∧ spend = (recent.map Prod.snd).sum ∧ Split n cap start recent old

theorem windowTotal_le_sum (l : EpochLog) (a b : Int) : l.windowTotal a b ≤ (l.map Prod.snd).sum := by
  induction l with
  | nil => exact le_rfl
  | cons r l ih =>
      rw [windowTotal_cons, List.map_cons, List.sum_cons]
      split <;> omega

theorem windowTotal_eq_zero_of_lt {l : EpochLog} {start a b : Int} (h : ∀ k ∈ l.epochs, k < start) (ha : start ≤ a) :
    l.windowTotal a b = 0 := by
  apply windowTotal_eq_zero
  intro k hak hk
  have := h k hk
  omega

theorem windowTotal_eq_zero_of_gt {l : EpochLog} {start a b : Int} (h : ∀ k ∈ l.epochs, start ≤ k) (hb : b < start) :
    l.windowTotal a b = 0 := by
  induction l with
  | nil => rfl
  | cons r l ih =>
      have hr := h r.1 List.mem_cons_self
      rw [windowTotal_cons, if_neg (by omega), Nat.zero_add]
      exact ih fun k hk => h k (List.mem_cons_of_mem _ hk)

theorem sum_eq_windowTotal {l : EpochLog} {a b : Int} (h : ∀ k ∈ l.epochs, a ≤ k ∧ k ≤ b) :
    (l.map Prod.snd).sum = l.windowTotal a b := by
  induction l with
  | nil => rfl
  | cons r l ih =>
      rw [windowTotal_cons, List.map_cons, List.sum_cons, if_pos (h r.1 List.mem_cons_self),
        ih fun k hk => h k (List.mem_cons_of_mem _ hk)]

namespace Windowed

variable {n start now : Int} {cap spend x : Nat} {log : EpochLog}

/-- The first record of all. -/
theorem first (hn : 0 < n) (hx : x ≤ cap) : Windowed n cap now x [(now, x)] := by
  refine ⟨[(now, x)], [], rfl, by simp, ?_⟩
  constructor
  case started => simp [epochs]
  case range => simp [epochs, hn]
  case within => simpa using hx
  case older => simp [epochs]
  case previous => simp
  case bounded => simp

/-- A record in the running window. -/
theorem extend (h : Windowed n cap start spend log) (hge : start ≤ now) (hlt : now - start < n)
    (hx : spend + x ≤ cap) : Windowed n cap start (spend + x) ((now, x) :: log) := by
  obtain ⟨recent, old, rfl, rfl, hsplit⟩ := h
  refine ⟨(now, x) :: recent, old, rfl, by simp [Nat.add_comm], ?_⟩
  constructor
  case started => exact List.mem_cons_of_mem _ hsplit.started
  case range =>
    intro k hk
    rcases List.mem_cons.mp hk with rfl | hk
    · omega
    · exact hsplit.range k hk
  case within =>
    rw [List.map_cons, List.sum_cons]
    omega
  case older => exact hsplit.older
  case previous => exact hsplit.previous
  case bounded => exact hsplit.bounded

theorem window_le (h : Windowed n cap start spend log) (e : Int) : log.windowTotal (e - (n - 1)) e ≤ 2 * cap := by
  obtain ⟨recent, old, rfl, -, hsplit⟩ := h
  rw [windowTotal_append]
  rcases lt_or_ge e start with hlt | hge
  · have hrecent : recent.windowTotal (e - (n - 1)) e = 0 :=
      windowTotal_eq_zero_of_gt (fun k hk => (hsplit.range k hk).1) hlt
    have := hsplit.bounded e
    omega
  · have hrecent := windowTotal_le_sum recent (e - (n - 1)) e
    have := hsplit.within
    have := hsplit.previous e hge
    omega

/-- A record after the window has expired. -/
theorem restart (h : Windowed n cap start spend log) (hn : 0 < n) (hge : n ≤ now - start) (hx : x ≤ cap) :
    Windowed n cap now x ((now, x) :: log) := by
  have hbounded := h.window_le
  obtain ⟨recent, old, rfl, -, hsplit⟩ := h
  refine ⟨[(now, x)], recent ++ old, rfl, by simp, ?_⟩
  constructor
  case started => simp [epochs]
  case range => simp [epochs, hn]
  case within => simpa using hx
  case older =>
    intro k hk
    simp only [epochs, List.map_append, List.mem_append] at hk
    rcases hk with hk | hk
    · have := (hsplit.range k hk).2
      omega
    · have := hsplit.older k hk
      omega
  case previous =>
    intro e he
    -- the window before the last one is out of reach
    have hold : old.windowTotal (e - (n - 1)) e = 0 := windowTotal_eq_zero_of_lt hsplit.older (by omega)
    have hrecent := windowTotal_le_sum recent (e - (n - 1)) e
    have := hsplit.within
    rw [windowTotal_append]
    omega
  case bounded => exact hbounded

theorem start_mem (h : Windowed n cap start spend log) : start ∈ log.epochs := by
  obtain ⟨_, _, rfl, -, hsplit⟩ := h
  rw [epochs, List.map_append]
  exact List.mem_append_left _ hsplit.started

theorem spend_le (h : Windowed n cap start spend log) : spend ≤ cap := by
  obtain ⟨_, _, -, rfl, hsplit⟩ := h
  exact hsplit.within

/-- What is recorded since the start is what the counter holds, and it lies in `n` epochs. -/
theorem since (h : Windowed n cap start spend log) :
    (∀ k ∈ log.epochs, start ≤ k → k < start + n) ∧ log.windowTotal start (start + (n - 1)) = spend := by
  obtain ⟨recent, old, rfl, rfl, hsplit⟩ := h
  constructor
  · intro k hk hge
    simp only [epochs, List.map_append, List.mem_append] at hk
    rcases hk with hk | hk
    · exact (hsplit.range k hk).2
    · have := hsplit.older k hk
      omega
  · rw [windowTotal_append, windowTotal_eq_zero_of_lt hsplit.older le_rfl, Nat.add_zero]
    refine (sum_eq_windowTotal fun k hk => ?_).symm
    have := hsplit.range k hk
    omega

end Windowed

end Sigil.Library.EpochLog
