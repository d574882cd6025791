import Sigil.Sdk.Hooks

/-!
# Composition of hooks

A composed stage runs its two hooks inside one call of `invokeHook`, so a hook that throws ends both.
-/

namespace Sigil.Sdk

variable {σ α : Type} {outer inner third : Option (SealHooks σ α)} {key : HookStage} {args : α} {w : HookWorld σ}

/-! ## One call of a stage -/

/-- The call of a stage; a hook that is absent returns at once. -/
def callStage (hooks : Option (SealHooks σ α)) (key : HookStage) : Hook σ α key.Result :=
  awaitHook key.undefined (hooks.bind fun h => h.get key)

/-- What `invokeHook` makes of a call. -/
def settle (key : HookStage) (warnings : List HookWarning) (call : Except String key.Result × σ) :
    key.Result × HookWorld σ :=
  match call.1 with
  | .ok result => (result, { state := call.2, warnings := warnings })
  | .error e => (key.undefined, { state := call.2, warnings := warnings ++ [hookWarning key e] })

theorem invokeHook_eq (hooks : Option (SealHooks σ α)) (key : HookStage) (args : α) (w : HookWorld σ) :
    invokeHook hooks key args w = settle key w.warnings (callStage hooks key args w.state) := by
  rw [invokeHook, callStage]
  cases hooks.bind fun h => h.get key with
  | none => rfl
  | some fn =>
      show _ = settle key w.warnings (fn args w.state)
      dsimp only
      split <;> rename_i hcall <;> rw [hcall] <;> rfl

/-- The seal is skipped. -/
def aborts : (key : HookStage) → key.Result → Bool
  | .onBeforeBuild, result => result.isSome
  | _, _ => false

/-- Two calls in a row, the second only if the first returned and did not stop it. -/
def sequence {β : Type} (stops : β → Bool) (first second : Hook σ α β) : Hook σ α β := fun args s =>
  match first args s with
  | (.error e, s') => (.error e, s')
  | (.ok result, s') => if stops result then (.ok result, s') else second args s'

theorem callStage_none (key : HookStage) (args : α) (s : σ) : callStage none key args s = (.ok key.undefined, s) := rfl

theorem aborts_undefined (key : HookStage) : aborts key key.undefined = false := by
  cases key <;> rfl

theorem composedBeforeBuild_eq (f g : Option (Hook σ α (Option SealHookAbort))) :
    composedBeforeBuild f g = sequence Option.isSome (awaitHook none f) (awaitHook none g) := by
  funext args s
  rw [composedBeforeBuild, sequence]
  rcases awaitHook none f args s with ⟨e | (_ | abort), s'⟩ <;> rfl

theorem composedStage_eq (f g : Option (Hook σ α Unit)) :
    composedStage f g = sequence (fun _ => false) (awaitHook () f) (awaitHook () g) := by
  funext args s
  rw [composedStage, sequence]
  rcases awaitHook () f args s with ⟨e | _, s'⟩ <;> rfl

theorem callStage_compose (outer inner : Option (SealHooks σ α)) (key : HookStage) (args : α) (s : σ) :
    callStage (composeHooks outer inner) key args s =
      sequence (aborts key) (callStage outer key) (callStage inner key) args s := by
  cases outer with
  | none =>
      rw [composeHooks, sequence, callStage_none]
      simp only [aborts_undefined, Bool.false_eq_true, if_false]
  | some f =>
      cases inner with
      | none =>
          rw [composeHooks, sequence]
          rcases callStage (some f) key args s with ⟨e | result, s'⟩
          · rfl
          · dsimp only
            split
            · rfl
            · rename_i hcontinue
              rw [callStage_none]
              cases key with
              | onBeforeBuild =>
                  cases result with
                  | none => rfl
                  | some abort => exact absurd rfl hcontinue
              | _ => rfl
      | some g =>
          cases key with
          | onBeforeBuild => exact congrFun₂ (composedBeforeBuild_eq f.onBeforeBuild g.onBeforeBuild) args s
          | onBeforeSign => exact congrFun₂ (composedStage_eq f.onBeforeSign g.onBeforeSign) args s
          | onAfterSend => exact congrFun₂ (composedStage_eq f.onAfterSend g.onAfterSend) args s
          | onError => exact congrFun₂ (composedStage_eq f.onError g.onError) args s
          | onFinalize => exact congrFun₂ (composedStage_eq f.onFinalize g.onFinalize) args s

/-! ## Associativity -/

theorem sequence_assoc {β : Type} (stops : β → Bool) (f g h : Hook σ α β) :
    sequence stops (sequence stops f g) h = sequence stops f (sequence stops g h) := by
  funext args s
  simp only [sequence]
  rcases f args s with ⟨e | result, s'⟩
  · rfl
  · cases hstop : stops result with
    | true => simp only [hstop, if_true]
    | false => simp only [hstop, Bool.false_eq_true, if_false]

theorem composeHooks_assoc (outer inner third : Option (SealHooks σ α)) :
    composeHooks (composeHooks outer inner) third = composeHooks outer (composeHooks inner third) := by
  cases outer with
  | none => rfl
  | some f =>
      cases inner with
      | none => rfl
      | some g =>
          cases third with
          | none => rfl
          | some h =>
              simp only [composeHooks, composedBeforeBuild_eq, composedStage_eq]
              have hsome {β : Type} (u : β) (k : Hook σ α β) : awaitHook u (some k) = k := rfl
              simp only [hsome, sequence_assoc]

/-! ## The uncomposed meaning -/

/-- `invokeHook` on the one and, unless it aborted, on the other. -/
def invokeBoth (outer inner : Option (SealHooks σ α)) (key : HookStage) (args : α) (w : HookWorld σ) :
    key.Result × HookWorld σ :=
  let first := invokeHook outer key args w
  if aborts key first.1 then first else invokeHook inner key args first.2

/-- Where the outer hook throws, the inner one has nothing to do: it is absent, or leaves the state and returns
nothing. -/
def Unsuppressed (outer inner : Option (SealHooks σ α)) (key : HookStage) (args : α) (s : σ) : Prop :=
  ∀ e s', callStage outer key args s = (.error e, s') → callStage inner key args s' = (.ok key.undefined, s')

theorem settle_ok (key : HookStage) (warnings : List HookWarning) (result : key.Result) (s : σ) :
    settle key warnings (.ok result, s) = (result, { state := s, warnings := warnings }) := rfl

theorem settle_error (key : HookStage) (warnings : List HookWarning) (e : String) (s : σ) :
    settle key warnings (.error e, s) =
      (key.undefined, { state := s, warnings := warnings ++ [hookWarning key e] }) := rfl

theorem settle_eq_undefined {warnings : List HookWarning} {call : Except String key.Result × σ} {s : σ} :
    settle key warnings call = (key.undefined, { state := s, warnings := warnings }) ↔
      call = (.ok key.undefined, s) := by
  obtain ⟨e | result, s'⟩ := call
  · simp [settle]
  · simp [settle]

/-- A composed stage has the effect of its two hooks in a row exactly if no throw suppresses the inner one, and
composition is associative. -/
theorem invokeHook_compose_iff (outer inner third : Option (SealHooks σ α)) (key : HookStage) (args : α)
    (w : HookWorld σ) :
    (invokeHook (composeHooks outer inner) key args w = invokeBoth outer inner key args w ↔
      Unsuppressed outer inner key args w.state) ∧
    composeHooks (composeHooks outer inner) third = composeHooks outer (composeHooks inner third) := by
  constructor
  · rw [invokeBoth, invokeHook_eq, invokeHook_eq, callStage_compose, sequence, Unsuppressed]
    cases hcall : callStage outer key args w.state with
    | mk value s' =>
        cases value with
        | ok result =>
            rw [settle_ok]
            constructor
            · intro _ e s'' hthrow
              cases hthrow
            · intro _
              dsimp only
              split
              · rfl
              · rw [invokeHook_eq]
        | error e =>
            rw [settle_error]
            dsimp only
            rw [aborts_undefined, if_neg Bool.false_ne_true, invokeHook_eq, eq_comm]
            constructor
            · intro h e' s'' hthrow
              cases hthrow
              exact settle_eq_undefined.mp h
            · intro h
              exact settle_eq_undefined.mpr (h e s' rfl)
  · exact composeHooks_assoc outer inner third

theorem unsuppressed_of_returns {s s' : σ} {result : key.Result}
    (h : callStage outer key args s = (.ok result, s')) : Unsuppressed outer inner key args s := by
  intro e s'' hthrow
  cases h.symm.trans hthrow

/-! ## A throw that suppresses -/

/-- Tracing that is down. -/
def tracing : SealHooks Nat Unit := { onFinalize := some fun _ s => (.error "collector unreachable", s) }

/-- Counts the payments that are final. -/
def accounting : SealHooks Nat Unit := { onFinalize := some fun _ s => (.ok (), s + 1) }

theorem composed_throw_suppresses :
    ¬ invokeHook (composeHooks (some tracing) (some accounting)) .onFinalize () ⟨0, []⟩ =
      invokeBoth (some tracing) (some accounting) .onFinalize () ⟨0, []⟩ := by
  intro h
  have hcount := congrArg (fun r => r.2.state) h
  cases hcount

end Sigil.Sdk
