import Sigil.Sdk.Shield
import Sigil.Sdk.X402

/-!
# Payments and policies

`evaluateX402Payment` of `x402/policy-bridge.ts` with the check of the shield that it asks for.
-/

namespace Sigil.Sdk

open Library

namespace PaymentRequirements

variable (address : String → Pubkey) (selected : PaymentRequirements) (signerAddress : Pubkey)

/-- An instruction of the token program without data. -/
def syntheticIx : InspectableInstruction :=
  { programAddress := splTokenProgramId
    accounts := [signerAddress, address selected.asset, address selected.payTo, signerAddress] }

/-- A `TransferChecked` of the same amount. -/
def transferChecked (amount : Nat) (source : Pubkey) (decimals : UInt8) : InspectableInstruction :=
  { programAddress := splTokenProgramId
    accounts := [source, address selected.asset, address selected.payTo, signerAddress]
    data := 12 :: (leDigits 8 amount ++ [decimals]) }

end PaymentRequirements

/-- `message` gives the texts of violations, `base58` and `address` those of addresses. -/
def ShieldedContext.evaluateX402Payment (base58 : Pubkey → String) (address : String → Pubkey)
    (message : PolicyViolation → String) (now : Int) (selected : PaymentRequirements) (config : X402Config)
    (signerAddress : Pubkey) (c : ShieldedContext) : Except X402Error (List Violation) :=
  Sdk.evaluateX402Payment now selected c.state.toShieldState c.paused
    ((c.check base58 now [selected.syntheticIx address signerAddress] signerAddress).map message) config
    (base58 signerAddress)

end Sigil.Sdk
