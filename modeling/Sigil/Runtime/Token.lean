import Mathlib.Logic.Function.Basic
import Sigil.State.Constants

/-!
# The SPL token program

Mints, token accounts and the instructions that move tokens or change who may move them. Balances are
naturals: `mintTo` keeps the supply in 64 bits, and no account holds more than the supply. Native accounts
and multisignatures are left out.
-/

namespace Sigil

open Library

structure Mint where
  decimals : Nat
  mintAuthority : Option Pubkey
  freezeAuthority : Option Pubkey := none
  supply : Nat := 0
  deriving DecidableEq, Repr

structure TokenAccount where
  mint : Pubkey
  owner : Pubkey
  amount : Nat := 0
  delegate : Option Pubkey := none
  delegatedAmount : Nat := 0
  closeAuthority : Option Pubkey := none
  frozen : Bool := false
  deriving DecidableEq, Repr

structure Ledger where
  mints : Pubkey → Option Mint := fun _ => none
  accounts : Pubkey → Option TokenAccount := fun _ => none

namespace Ledger

def setAccount (ledger : Ledger) (address : Pubkey) (account : TokenAccount) : Ledger :=
  { ledger with accounts := Function.update ledger.accounts address (some account) }

def setMint (ledger : Ledger) (address : Pubkey) (mint : Mint) : Ledger :=
  { ledger with mints := Function.update ledger.mints address (some mint) }

def getAccount (ledger : Ledger) (address : Pubkey) : Result TokenAccount :=
  okOr (ledger.accounts address) TokenError.uninitializedState

def getMint (ledger : Ledger) (address : Pubkey) : Result Mint :=
  okOr (ledger.mints address) TokenError.uninitializedState

/-- Balance of an account, zero where there is none. -/
def balance (ledger : Ledger) (address : Pubkey) : Nat :=
  match ledger.accounts address with
  | some account => account.amount
  | none => 0

def initializeMint (ledger : Ledger) (address : Pubkey) (mint : Mint) : Result Ledger := do
  require (ledger.mints address = none ∧ ledger.accounts address = none) TokenError.alreadyInUse
  pure (ledger.setMint address { mint with supply := 0 })

def initializeAccount (ledger : Ledger) (address mint owner : Pubkey) : Result Ledger := do
  require (ledger.mints address = none ∧ ledger.accounts address = none) TokenError.alreadyInUse
  let _ ← ledger.getMint mint
  pure (ledger.setAccount address { mint := mint, owner := owner })

/-- Who pays: a delegate out of its allowance, the owner otherwise. -/
def debit (account : TokenAccount) (authority : Pubkey) (amount : Nat) : Result TokenAccount :=
  if account.delegate = some authority then do
    require (amount ≤ account.delegatedAmount) TokenError.insufficientFunds
    let left := account.delegatedAmount - amount
    pure { account with
      amount := account.amount - amount
      delegatedAmount := left
      delegate := if left = 0 then none else account.delegate }
  else do
    require (authority = account.owner) TokenError.ownerMismatch
    pure { account with amount := account.amount - amount }

def credit (account : TokenAccount) (amount : Nat) : TokenAccount :=
  { account with amount := account.amount + amount }

def transfer (ledger : Ledger) (source destination authority : Pubkey) (amount : Nat) : Result Ledger := do
  let src ← ledger.getAccount source
  let dst ← ledger.getAccount destination
  require (src.frozen = false ∧ dst.frozen = false) TokenError.accountFrozen
  require (amount ≤ src.amount) TokenError.insufficientFunds
  require (src.mint = dst.mint) TokenError.mintMismatch
  let src' ← debit src authority amount
  if source = destination then
    -- a transfer to itself is checked but changes nothing
    pure ledger
  else
    pure ((ledger.setAccount source src').setAccount destination (credit dst amount))

def approve (ledger : Ledger) (address delegate authority : Pubkey) (amount : Nat) : Result Ledger := do
  let account ← ledger.getAccount address
  require (account.frozen = false) TokenError.accountFrozen
  require (authority = account.owner) TokenError.ownerMismatch
  pure (ledger.setAccount address { account with delegate := some delegate, delegatedAmount := amount })

def revoke (ledger : Ledger) (address authority : Pubkey) : Result Ledger := do
  let account ← ledger.getAccount address
  require (account.frozen = false) TokenError.accountFrozen
  require (authority = account.owner) TokenError.ownerMismatch
  pure (ledger.setAccount address { account with delegate := none, delegatedAmount := 0 })

/-- A new owner starts without a delegate. -/
def setOwner (ledger : Ledger) (address newOwner authority : Pubkey) : Result Ledger := do
  let account ← ledger.getAccount address
  require (account.frozen = false) TokenError.accountFrozen
  require (authority = account.owner) TokenError.ownerMismatch
  pure (ledger.setAccount address { account with owner := newOwner, delegate := none, delegatedAmount := 0 })

def setCloseAuthority (ledger : Ledger) (address : Pubkey) (new : Option Pubkey) (authority : Pubkey) :
    Result Ledger := do
  let account ← ledger.getAccount address
  require (account.frozen = false) TokenError.accountFrozen
  require (authority = account.closeAuthority.getD account.owner) TokenError.ownerMismatch
  pure (ledger.setAccount address { account with closeAuthority := new })

def setFrozen (ledger : Ledger) (address : Pubkey) (frozen : Bool) (authority : Pubkey) : Result Ledger := do
  let account ← ledger.getAccount address
  let mint ← ledger.getMint account.mint
  require (mint.freezeAuthority = some authority) TokenError.ownerMismatch
  pure (ledger.setAccount address { account with frozen := frozen })

def mintTo (ledger : Ledger) (address authority : Pubkey) (amount : Nat) : Result Ledger := do
  let account ← ledger.getAccount address
  require (account.frozen = false) TokenError.accountFrozen
  let mint ← ledger.getMint account.mint
  require (mint.mintAuthority = some authority) TokenError.fixedSupply
  let supply ← okOr (checkedAdd 64 mint.supply amount) TokenError.overflow
  pure ((ledger.setMint account.mint { mint with supply := supply }).setAccount address (credit account amount))

def burn (ledger : Ledger) (address authority : Pubkey) (amount : Nat) : Result Ledger := do
  let account ← ledger.getAccount address
  require (account.frozen = false) TokenError.accountFrozen
  let mint ← ledger.getMint account.mint
  require (amount ≤ account.amount) TokenError.insufficientFunds
  let account' ← debit account authority amount
  pure ((ledger.setMint account.mint { mint with supply := mint.supply - amount }).setAccount address account')

def closeAccount (ledger : Ledger) (address authority : Pubkey) : Result Ledger := do
  let account ← ledger.getAccount address
  require (account.amount = 0) TokenError.nonNativeHasBalance
  require (authority = account.closeAuthority.getD account.owner) TokenError.ownerMismatch
  pure { ledger with accounts := Function.update ledger.accounts address none }

end Ledger

/-- One instruction of the token program, or of the program that creates associated accounts. -/
inductive TokenInstruction where
  | initializeMint (address : Pubkey) (mint : Mint)
  | initializeAccount (address mint owner : Pubkey)
  | createAssociated (owner mint : Pubkey)
  | transfer (source destination authority : Pubkey) (amount : Nat)
  | approve (address delegate authority : Pubkey) (amount : Nat)
  | revoke (address authority : Pubkey)
  | setOwner (address newOwner authority : Pubkey)
  | setCloseAuthority (address : Pubkey) (new : Option Pubkey) (authority : Pubkey)
  | setFrozen (address : Pubkey) (frozen : Bool) (authority : Pubkey)
  | mintTo (address authority : Pubkey) (amount : Nat)
  | burn (address authority : Pubkey) (amount : Nat)
  | closeAccount (address authority : Pubkey)
  deriving DecidableEq, Repr

namespace TokenInstruction

/-- The address that has to sign. An account to be initialized signs for its creation. -/
def authority : TokenInstruction → Option Pubkey
  | .initializeMint address _ => some address
  | .initializeAccount address _ _ => some address
  | .createAssociated _ _ => none
  | .transfer _ _ authority _ => some authority
  | .approve _ _ authority _ => some authority
  | .revoke _ authority => some authority
  | .setOwner _ _ authority => some authority
  | .setCloseAuthority _ _ authority => some authority
  | .setFrozen _ _ authority => some authority
  | .mintTo _ authority _ => some authority
  | .burn _ authority _ => some authority
  | .closeAccount _ authority => some authority

def exec (ledger : Ledger) : TokenInstruction → Result Ledger
  | .initializeMint address mint => ledger.initializeMint address mint
  | .initializeAccount address mint owner => ledger.initializeAccount address mint owner
  | .createAssociated owner mint => ledger.initializeAccount (.ata owner mint) mint owner
  | .transfer source destination authority amount => ledger.transfer source destination authority amount
  | .approve address delegate authority amount => ledger.approve address delegate authority amount
  | .revoke address authority => ledger.revoke address authority
  | .setOwner address newOwner authority => ledger.setOwner address newOwner authority
  | .setCloseAuthority address new authority => ledger.setCloseAuthority address new authority
  | .setFrozen address frozen authority => ledger.setFrozen address frozen authority
  | .mintTo address authority amount => ledger.mintTo address authority amount
  | .burn address authority amount => ledger.burn address authority amount
  | .closeAccount address authority => ledger.closeAccount address authority

/-- First data byte of the instruction, where it is a plain instruction of the token program. -/
def opcodes : TokenInstruction → List UInt8
  | .initializeMint _ _ => [0, 20]
  | .initializeAccount _ _ _ => [1, 16, 18]
  | .createAssociated _ _ => []
  | .transfer _ _ _ _ => [3, 12]
  | .approve _ _ _ _ => [4, 13]
  | .revoke _ _ => [5]
  | .setOwner _ _ _ => [6]
  | .setCloseAuthority _ _ _ => [6]
  | .setFrozen _ frozen _ => if frozen then [10] else [11]
  | .mintTo _ _ _ => [7, 14]
  | .burn _ _ _ => [8, 15]
  | .closeAccount _ _ => [9]

end TokenInstruction

end Sigil
