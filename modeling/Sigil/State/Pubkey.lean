import Mathlib.Tactic.Common

/-!
# Addresses

An address is a key, given by the number its 32 bytes spell, or is derived from seeds. Derived addresses
are kept symbolic: derivations with different seeds differ, and no derived address is a key.
-/

namespace Sigil

inductive Pubkey where
  | key (n : Nat)
  | vault (owner : Pubkey) (vaultId : Nat)
  | session (vault agent tokenMint : Pubkey)
  | escrow (sourceVault destinationVault : Pubkey) (escrowId : Nat)
  | constraints (vault : Pubkey)
  | pendingConstraints (vault : Pubkey)
  | postAssertions (vault : Pubkey)
  | pendingAgentPerms (vault agent : Pubkey)
  | policy (vault : Pubkey)
  | tracker (vault : Pubkey)
  | agentSpend (vault : Pubkey)
  | pendingPolicy (vault : Pubkey)
  | pendingCloseConstraints (vault : Pubkey)
  /-- Associated token account. -/
  | ata (owner mint : Pubkey)
  /-- Derived by another program, which signs for it. -/
  | programDerived (program : Pubkey) (n : Nat)
  deriving DecidableEq, Repr

namespace Pubkey

/-- Number spelled by bytes, most significant first. -/
def ofBytes (bytes : List Nat) : Pubkey := .key (bytes.foldl (fun n b => n * 256 + b) 0)

/-- `Pubkey::default()`, the address of the system program. -/
def default : Pubkey := .key 0

/-- An address that a keypair can sign for. -/
def isKey : Pubkey → Bool
  | .key _ => true
  | _ => false

def isProgramDerived : Pubkey → Bool
  | .programDerived _ _ => true
  | _ => false

def isVault : Pubkey → Bool
  | .vault _ _ => true
  | _ => false

def isEscrow : Pubkey → Bool
  | .escrow _ _ _ => true
  | _ => false

def isPendingAgentPerms : Pubkey → Bool
  | .pendingAgentPerms _ _ => true
  | _ => false

end Pubkey

/-! ## Constants of the devnet build -/

/-- Address of this program. -/
def crateId : Pubkey := .ofBytes
  [52, 240, 8, 84, 135, 21, 102, 185, 215, 9, 131, 42, 56, 39, 101, 165, 244, 183, 109, 10, 219,
   31, 21, 231, 226, 55, 153, 248, 254, 89, 88, 39]

def protocolTreasury : Pubkey := .ofBytes
  [140, 51, 155, 5, 120, 99, 25, 69, 20, 4, 163, 87, 229, 124, 111, 239, 107, 28, 230, 192, 254,
   239, 33, 251, 37, 93, 179, 29, 45, 226, 14, 172]

def usdcMint : Pubkey := .ofBytes
  [183, 123, 243, 77, 18, 80, 250, 164, 199, 89, 146, 151, 150, 233, 12, 20, 206, 135, 29, 138,
   218, 153, 91, 77, 84, 71, 174, 53, 139, 167, 156, 54]

def usdtMint : Pubkey := .ofBytes
  [45, 62, 128, 117, 22, 254, 177, 202, 78, 70, 249, 101, 252, 36, 244, 42, 82, 77, 95, 72, 170,
   154, 33, 171, 68, 12, 82, 27, 106, 105, 202, 15]

def jupiterProgram : Pubkey := .ofBytes
  [4, 121, 213, 91, 242, 49, 192, 110, 238, 116, 197, 110, 206, 104, 21, 7, 253, 177, 178, 222,
   163, 244, 142, 81, 2, 177, 205, 162, 86, 188, 19, 143]

def flashTradeProgram : Pubkey := .ofBytes
  [212, 236, 82, 74, 222, 71, 209, 50, 127, 252, 246, 137, 90, 104, 93, 148, 41, 240, 55, 144, 196,
   35, 87, 71, 243, 123, 215, 163, 221, 165, 30, 221]

def jupiterLendProgram : Pubkey := .ofBytes
  [4, 113, 24, 1, 43, 4, 76, 56, 240, 98, 104, 189, 87, 231, 52, 36, 154, 118, 168, 157, 132, 58,
   30, 222, 238, 9, 26, 161, 252, 73, 18, 120]

def jupiterEarnProgram : Pubkey := .ofBytes
  [10, 254, 27, 145, 46, 72, 94, 149, 253, 21, 235, 41, 55, 223, 252, 75, 55, 163, 22, 208, 166,
   56, 18, 255, 2, 186, 73, 180, 198, 193, 141, 30]

def jupiterBorrowProgram : Pubkey := .ofBytes
  [10, 254, 31, 147, 34, 167, 161, 209, 195, 102, 29, 103, 23, 145, 202, 155, 48, 211, 32, 47, 30,
   31, 214, 135, 58, 119, 204, 220, 113, 143, 17, 51]

def jupiterPerpsProgram : Pubkey := .ofBytes
  [5, 177, 243, 202, 241, 148, 98, 239, 135, 96, 240, 171, 222, 117, 205, 61, 158, 227, 27, 58,
   50, 198, 32, 232, 148, 18, 46, 156, 155, 129, 69, 250]

def driftV2Program : Pubkey := .ofBytes
  [9, 84, 219, 190, 158, 201, 96, 201, 138, 122, 41, 63, 226, 19, 54, 150, 111, 225, 128, 209, 81,
   174, 75, 129, 121, 86, 31, 137, 133, 74, 83, 246]

def driftJitProxyProgram : Pubkey := .ofBytes
  [252, 180, 245, 243, 227, 226, 41, 248, 219, 192, 203, 167, 225, 83, 228, 133, 83, 109, 79, 110,
   62, 225, 115, 177, 71, 201, 141, 78, 240, 248, 168, 126]

def token2022ProgramId : Pubkey := .ofBytes
  [6, 221, 246, 225, 238, 117, 143, 222, 24, 66, 93, 188, 228, 108, 205, 218, 182, 26, 252, 77,
   131, 185, 13, 39, 254, 189, 249, 40, 216, 161, 139, 252]

def splTokenProgramId : Pubkey := .ofBytes
  [6, 221, 246, 225, 215, 101, 161, 147, 217, 203, 225, 70, 206, 235, 121, 172, 28, 180, 133, 237,
   95, 91, 55, 145, 58, 140, 245, 133, 126, 255, 0, 169]

def computeBudgetProgramId : Pubkey := .ofBytes
  [3, 6, 70, 111, 229, 33, 23, 50, 255, 236, 173, 186, 114, 195, 155, 231, 188, 140, 229, 187,
   197, 247, 18, 107, 44, 67, 155, 58, 64, 0, 0, 0]

def systemProgramId : Pubkey := .default

def knownAsyncFulfillmentPrograms : List Pubkey := [jupiterPerpsProgram, driftV2Program, driftJitProxyProgram]

def isStablecoinMint (mint : Pubkey) : Bool := mint = usdcMint || mint = usdtMint

end Sigil
