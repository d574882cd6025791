import Mathlib.Tactic.Common

/-!
# Hooks of a seal

`hooks.ts`. A hook acts on a state of its own choosing; the warnings of the module logger are next to it.
-/

namespace Sigil.Sdk

/-- What `onBeforeBuild` returns to skip the seal. -/
structure SealHookAbort where
  reason : String
  deriving DecidableEq, Repr

/-- A call of a hook: it returns or throws a text, and leaves a state. -/
abbrev Hook (σ α β : Type) : Type := α → σ → Except String β × σ

structure SealHooks (σ α : Type) where
  onBeforeBuild : Option (Hook σ α (Option SealHookAbort)) := none
  onBeforeSign : Option (Hook σ α Unit) := none
  onAfterSend : Option (Hook σ α Unit) := none
  onError : Option (Hook σ α Unit) := none
  onFinalize : Option (Hook σ α Unit) := none

inductive HookStage where
  | onBeforeBuild | onBeforeSign | onAfterSend | onError | onFinalize
  deriving DecidableEq, Repr

namespace HookStage

def name : HookStage → String
  | onBeforeBuild => "onBeforeBuild"
  | onBeforeSign => "onBeforeSign"
  | onAfterSend => "onAfterSend"
  | onError => "onError"
  | onFinalize => "onFinalize"

/-- Only `onBeforeBuild` returns anything. -/
abbrev Result : HookStage → Type
  | onBeforeBuild => Option SealHookAbort
  | _ => Unit

def undefined : (key : HookStage) → key.Result
  | onBeforeBuild => none
  | onBeforeSign => ()
  | onAfterSend => ()
  | onError => ()
  | onFinalize => ()

end HookStage

variable {σ α : Type}

/-- `hooks[key]` -/
def SealHooks.get (hooks : SealHooks σ α) : (key : HookStage) → Option (Hook σ α key.Result)
  | .onBeforeBuild => hooks.onBeforeBuild
  | .onBeforeSign => hooks.onBeforeSign
  | .onAfterSend => hooks.onAfterSend
  | .onError => hooks.onError
  | .onFinalize => hooks.onFinalize

/-! ## Composition -/

/-- `await hook?.(args)` -/
def awaitHook {β : Type} (undefined : β) (hook : Option (Hook σ α β)) : Hook σ α β := fun args w =>
  match hook with
  | none => (.ok undefined, w)
  | some f => f args w

def composedBeforeBuild (outer inner : Option (Hook σ α (Option SealHookAbort))) :
    Hook σ α (Option SealHookAbort) := fun args w =>
  match awaitHook none outer args w with
  | (.error e, w') => (.error e, w')
  | (.ok (some abort), w') => (.ok (some abort), w')
  | (.ok none, w') => awaitHook none inner args w'

/-- The other four stages. -/
def composedStage (outer inner : Option (Hook σ α Unit)) : Hook σ α Unit := fun args w =>
  match awaitHook () outer args w with
  | (.error e, w') => (.error e, w')
  | (.ok (), w') => awaitHook () inner args w'

def composeHooks (outer inner : Option (SealHooks σ α)) : Option (SealHooks σ α) :=
  match outer, inner with
  | none, inner => inner
  | some outer, none => some outer
  | some outer, some inner =>
      some
        { onBeforeBuild := some (composedBeforeBuild outer.onBeforeBuild inner.onBeforeBuild)
          onBeforeSign := some (composedStage outer.onBeforeSign inner.onBeforeSign)
          onAfterSend := some (composedStage outer.onAfterSend inner.onAfterSend)
          onError := some (composedStage outer.onError inner.onError)
          onFinalize := some (composedStage outer.onFinalize inner.onFinalize) }

/-! ## Invocation -/

structure HookWarning where
  message : String
  hook : String
  error : String
  deriving DecidableEq, Repr

def hookWarning (key : HookStage) (error : String) : HookWarning :=
  { message := "[SealHooks] " ++ key.name ++ " threw — swallowed to preserve seal() atomicity"
    hook := key.name
    error := error }

/-- The state of the hooks, and what was logged. -/
structure HookWorld (σ : Type) where
  state : σ
  warnings : List HookWarning := []
  deriving DecidableEq, Repr

def invokeHook (hooks : Option (SealHooks σ α)) (key : HookStage) (args : α) (w : HookWorld σ) :
    key.Result × HookWorld σ :=
  match hooks.bind fun h => h.get key with
  | none => (key.undefined, w)
  | some fn =>
      match fn args w.state with
      | (.ok result, state) => (result, { w with state := state })
      | (.error e, state) => (key.undefined, { state := state, warnings := w.warnings ++ [hookWarning key e] })

end Sigil.Sdk
