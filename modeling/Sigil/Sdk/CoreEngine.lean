import Sigil.Sdk.ShieldState
import Sigil.Sdk.Shield

/-!
# The core engine

`core/engine.ts`: what the core checks of the analysis of a transaction, and what it records. Its addresses are texts.
-/

namespace Sigil.Sdk.Core

/-! ## Registry -/

/-- The text of the key of zeros. -/
abbrev defaultAddress : String := "11111111111111111111111111111111"

/-- `SYSTEM_PROGRAMS` -/
def systemPrograms : List String :=
  ["11111111111111111111111111111111",
   "TokenkegQfeZyiNwAJbNbGKPFXCWuBvf9Ss623VQ5DA",
   "ATokenGPvbdGVxr1b2hvZbsiqW5xWH25efTNsLJA8knL",
   "TokenzQdBNbLqP5VEhdkAS6EPFLC1PHnBqCXEpPxuEb",
   "ComputeBudget111111111111111111111111111111",
   "SysvarRent111111111111111111111111111111111",
   "SysvarC1ock11111111111111111111111111111111"]

/-- The programs of `KNOWN_PROTOCOLS`, in which the system programs come last. -/
def knownProtocols : List String :=
  ["JUP6LkbZbjS1jKKwapdHNy74zcZ3tLUZoi5QNyVTaV4",
   "JUP4Fb2cqiRUcaTHdrPC8h2gNsA2ETXiPDD33WcPX7a",
   "JUP2jxvXaqu7NQY1GmNF4m1vodw12LVXYxbFL2uN4e7",
   "JLend2fEim9xUFcaHsyGePEoBzFLvkjMi3MnPcSuCdu",
   "j1to2GQCsfSHNPfVKMcrUNyRBK8DPYECpEVPLkz1MKv",
   "DCA265Vj8a9CEuX1eb1LWRnDT7uK6q1xMipnNyatn23M",
   "whirLbMiicVdio4qvUfM5KAg6Ct8VwpYzGff3uctyCc",
   "9W959DqEETiGZocYWCQPaJ6sBmUzgfxXfqGeTEdp3aQP",
   "675kPX9MHTjS2zt1qfr1NYHuzeLXfQM9H24wFSUt1Mp8",
   "CAMMCzo5YL8w4VFF8KVHrK22GGUsp5VTaW7grrKgrWqK",
   "CPMMoo8L3F4NbTegBCKVNunggL7H1ZpdTHKxQB5qKP1C",
   "LBUZKhRxPF3XUpBCjp4YzTKgLccjZhTSDM9YuVaPwxo",
   "Eo7WjKq67rjJQSZxS6z3YkapzY3eMj6Xy8X5EQVn5UaB",
   "SSwpkEEcbUqx4vtoEByFjSkhKdCT862DNVb52nZg1UZ",
   "DecZY86MU5Gj7kppfUCEmd4LbXXuyZH1yHaP2NTqdiZB",
   "FLASH6Lo6h3iasJKWDs2F8TkW2UKf3s15C8PMGuVfgBn",
   "FSWAPViR8ny5K96hezav8jynVubP2dJ2L7SbKzds2hwm",
   "dRiftyHA39MWEi3m9aunc5MzRF1JYuBsbn6VPcn33UH",
   "MNGOHoFrnGrovWiCc9kHZB8xEBKM1XPYnZCpWFbRCev",
   "KLend2g3cP87ber8CzRaqeECGwNvLFM9acPVcRkRHvM",
   "MFv2hWf31Z9kbCa1snEPYctwafyhdvnV7FZnsebVacA",
   "So1endDq2YkqhipRh3WViPa8hFMqDSRbsHTE15WSnBt",
   "MarBmsSgKXdrN1egZf5sqe1TMai9K1rChYNDJgjq7aD",
   "SPoo1Ku8WFXoNDMHPsrGSTSG1Y47rzgn41SLUNakuHy",
   "J1toso1uCk3RLmjorhTtrVwY9HJ7X8V9yYac6Y7kGCPn"] ++ systemPrograms

def isSystemProgram (programId : String) : Bool := systemPrograms.contains programId

def isKnownProtocol (programId : String) : Bool := knownProtocols.contains programId

/-! ## Policies -/

structure SpendLimit where
  mint : String
  amount : Int
  windowMs : Option Int
  deriving DecidableEq, Repr

structure ResolvedPolicies where
  spendLimits : List SpendLimit
  maxTransactionSize : Option Int
  allowedProtocols : Option (List String)
  allowedTokens : Option (List String)
  blockUnknownPrograms : Bool
  maxTransactions : Int
  rateWindowMs : Int
  deriving DecidableEq, Repr

structure TokenTransfer where
  mint : String
  amount : Int
  direction : Direction
  destination : String
  deriving DecidableEq, Repr

structure TransactionAnalysis where
  programIds : List String
  transfers : List TokenTransfer
  estimatedValueLamports : Int
  deriving DecidableEq, Repr

inductive PolicyViolation where
  /-- "Protocol … is not in the allowlist" -/
  | protocolNotAllowed (programId : String)
  /-- "Unknown program … — not in the known protocol registry" -/
  | unknownProgram (programId : String)
  /-- "Token … is not in the allowed token list" -/
  | tokenNotAllowed (tokenMint : String)
  /-- "Spending cap exceeded for …: attempting …, limit …, already spent …" -/
  | spendingCap (tokenMint : String) (limit attempted remaining : Int)
  /-- "Transaction value … exceeds max transaction size …" -/
  | transactionSize (limit attempted : Int)
  /-- "Rate limit exceeded: …/… transactions in the last …" -/
  | rateLimit (count : Nat) (maxTransactions windowMs : Int)
  deriving DecidableEq, Repr

/-- The key that a mint is recorded and limited under. -/
def mintKey (mint : String) : String := if mint = defaultAddress ∨ mint = "" then "unknown" else mint

/-! ## Evaluation -/

section
variable (now : Int) (analysis : TransactionAnalysis) (policies : ResolvedPolicies) (state : ShieldState)

def checkProgram (programId : String) : Option PolicyViolation :=
  if isSystemProgram programId then none
  else
    match policies.allowedProtocols with
    | some allowed => if programId ∈ allowed then none else some (.protocolNotAllowed programId)
    | none =>
        if policies.blockUnknownPrograms ∧ ¬ isKnownProtocol programId then some (.unknownProgram programId) else none

def checkToken (allowed : List String) (t : TokenTransfer) : Option PolicyViolation :=
  if t.direction ≠ .outgoing then none
  else if t.mint = defaultAddress ∨ t.mint = "" then none
  else if t.mint ∈ allowed then none
  else some (.tokenNotAllowed t.mint)

def checkTokens : List PolicyViolation :=
  match policies.allowedTokens with
  | some allowed => analysis.transfers.filterMap (checkToken allowed)
  | none => []

def checkSpendingCap (limit : SpendLimit) : Option PolicyViolation :=
  let txSpend := ((analysis.transfers.filter fun t =>
    t.direction = .outgoing ∧ mintKey t.mint = limit.mint).map TokenTransfer.amount).sum
  let currentSpend := state.getSpendInWindow now limit.mint (limit.windowMs.getD dayMs)
  if txSpend = 0 then none
  else if currentSpend + txSpend > limit.amount then
    some (.spendingCap limit.mint limit.amount txSpend
      (if limit.amount > currentSpend then limit.amount - currentSpend else 0))
  else none

/-- A limit of zero is none. -/
def checkTransactionSize : List PolicyViolation :=
  match policies.maxTransactionSize with
  | some limit =>
      if limit ≠ 0 ∧ analysis.estimatedValueLamports > limit then
        [.transactionSize limit analysis.estimatedValueLamports]
      else []
  | none => []

def checkRateLimit : List PolicyViolation :=
  let count := state.getTransactionCountInWindow now policies.rateWindowMs
  if count ≥ policies.maxTransactions then [.rateLimit count policies.maxTransactions policies.rateWindowMs] else []

/-- Without a violation the transaction is allowed. -/
def evaluatePolicy : List PolicyViolation :=
  analysis.programIds.filterMap (checkProgram policies) ++
    checkTokens analysis policies ++
    policies.spendLimits.filterMap (checkSpendingCap now analysis state) ++
    checkTransactionSize analysis policies ++
    checkRateLimit now policies state

end

/-! ## Recording -/

namespace Engine

def recordTransfer (now : Int) (state : ShieldState) (t : TokenTransfer) : ShieldState :=
  if t.direction = .outgoing then recordSpend state now (mintKey t.mint) t.amount else state

/-- What is recorded of a signed transaction. -/
def recordTransaction (now : Int) (analysis : TransactionAnalysis) (state : ShieldState) : ShieldState :=
  Core.recordTransaction (analysis.transfers.foldl (recordTransfer now) state) now

end Engine

end Core

/-! ## The same transaction and the same policies -/

/-- `toCoreAnalysis` -/
def TransactionAnalysis.toCore (base58 : Pubkey → String) (analysis : TransactionAnalysis) :
    Core.TransactionAnalysis :=
  { programIds := analysis.programIds.map base58
    transfers := analysis.transfers.map fun t =>
      { mint := t.mint, amount := t.amount, direction := t.direction, destination := base58 t.destination }
    estimatedValueLamports := analysis.estimatedValueLamports }

/-- The addresses of the kit are texts already. -/
def ResolvedPolicies.toCore (base58 : Pubkey → String) (resolved : ResolvedPolicies) : Core.ResolvedPolicies :=
  { spendLimits := resolved.spendLimits.map fun limit =>
      { mint := base58 limit.mint, amount := limit.amount, windowMs := limit.windowMs }
    maxTransactionSize := resolved.maxTransactionSize
    allowedProtocols := resolved.allowedProtocols.map (List.map base58)
    allowedTokens := resolved.allowedTokens.map (List.map base58)
    blockUnknownPrograms := resolved.blockUnknownPrograms
    maxTransactions := resolved.maxTransactions
    rateWindowMs := resolved.rateWindowMs }

end Sigil.Sdk
