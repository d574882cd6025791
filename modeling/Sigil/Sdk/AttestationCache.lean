import Mathlib.Data.Rat.Defs
import Mathlib.Algebra.Order.Ring.Rat
import Sigil.Sdk.Strings

/-!
# Cache of attestations

`AttestationCache` of `tee/cache.ts`, and the dispatcher of `tee/verify.ts` on the cache of the module. Times are in
milliseconds. A `Map` is the list of its entries in the order of insertion.
-/

namespace Sigil.Sdk

def defaultCacheTtlMs : ℚ := 3600000

def maxCacheEntries : Nat := 1000

structure CacheEntry (ρ : Type) where
  result : ρ
  expiresAt : ℚ

structure AttestationCache (ρ : Type) where
  entries : List (String × CacheEntry ρ) := []

namespace AttestationCache

variable {ρ : Type} (cache : AttestationCache ρ)

def delete (key : String) : AttestationCache ρ :=
  { entries := cache.entries.filter fun entry => entry.1 ≠ key }

def deleteByPrefix (start : String) : AttestationCache ρ :=
  { entries := cache.entries.filter fun entry => !startsWith entry.1 start }

/-- The entry of a key, unless it has expired. -/
def live (key : String) (now : Int) : Option (CacheEntry ρ) :=
  (cache.entries.lookup key).filter fun entry => ¬ (now : ℚ) ≥ entry.expiresAt

/-- An expired entry is deleted. -/
def get (key : String) (now : Int) : Option ρ × AttestationCache ρ :=
  match cache.entries.lookup key with
  | none => (none, cache)
  | some entry => if (now : ℚ) ≥ entry.expiresAt then (none, cache.delete key) else (some entry.result, cache)

/-- A full cache loses its oldest entry. A key that is there keeps its place. -/
def set (key : String) (result : ρ) (ttlMs : ℚ) (now : Int) : AttestationCache ρ :=
  let entry : CacheEntry ρ := { result := result, expiresAt := now + ttlMs }
  match cache.entries.lookup key with
  | some _ => { entries := cache.entries.map fun old => if old.1 = key then (key, entry) else old }
  | none =>
      let kept := if cache.entries.length ≥ maxCacheEntries then cache.entries.tail else cache.entries
      { entries := kept ++ [(key, entry)] }

end AttestationCache

/-! ## The dispatcher -/

inductive TeeProvider where
  | crossmint | turnkey | privy
  deriving DecidableEq, Repr

inductive AttestationStatus where
  | cryptographicallyVerified | providerVerified | providerTrusted | failed | unavailable
  deriving DecidableEq, Repr

inductive AttestationLevel where
  | providerTrusted | providerVerified | cryptographic
  deriving DecidableEq, Repr

structure AttestationResult where
  status : AttestationStatus
  provider : TeeProvider
  publicKey : String
  message : String
  deriving DecidableEq, Repr

/-- A lifetime that is not finite is the inner `none`. -/
structure AttestationConfig where
  requireAttestation : Option Bool := none
  cacheTtlMs : Option (Option ℚ) := none
  /-- A callback is given. -/
  onDegraded : Bool := false
  minAttestationLevel : Option AttestationLevel := none
  expectedPcr3 : Option String := none
  deriving DecidableEq

/-- A public key that cannot be read is the empty text. -/
structure WalletLike where
  publicKey : String
  provider : Option String
  deriving DecidableEq, Repr

def detectProvider (wallet : WalletLike) : Option TeeProvider :=
  match wallet.provider with
  | some "crossmint" => some .crossmint
  | some "privy" => some .privy
  | some "turnkey" => some .turnkey
  | _ => none

inductive TeeAttestationError where
  /-- "verifyTeeAttestation called with `requireAttestation: false` but no `onDegraded` callback. …" -/
  | missingCallback
  /-- "Wallet rejected attestation introspection — …" -/
  | unreadable
  /-- "TEE attestation required but verification …" -/
  | required (result : AttestationResult)
  /-- "Attestation level … does not meet minimum required level: …" -/
  | belowMinimum (result : AttestationResult) (level : AttestationLevel)
  deriving DecidableEq, Repr

def AttestationStatus.isVerified : AttestationStatus → Bool
  | cryptographicallyVerified => true
  | providerVerified => true
  | providerTrusted => true
  | failed => false
  | unavailable => false

def attestationStatusMeetsLevel : AttestationStatus → AttestationLevel → Bool
  | .cryptographicallyVerified, _ => true
  | .providerVerified, level => level ≠ .cryptographic
  | .providerTrusted, level => level = .providerTrusted
  | .failed, _ => false
  | .unavailable, _ => false

/-- A call, with the answer that the verifier of the wallet's provider gives if it is asked, at `finish`. -/
structure AttestationCall where
  wallet : WalletLike
  config : AttestationConfig
  start : Int
  finish : Int
  answer : AttestationResult
  deriving DecidableEq

/-- A result, and the call that it was produced for. The second is there for the statements only. -/
structure Attested where
  result : AttestationResult
  madeFor : AttestationCall

namespace AttestationCall

variable (c : AttestationCall)

def detected : Option TeeProvider := detectProvider c.wallet

/-- Lifetime that the call asks for; `none` if it does without the cache. -/
def ttl : Option ℚ := ((c.config.cacheTtlMs.getD (some defaultCacheTtlMs)).filter fun ttl => ttl > 0)

def requireAttestation : Bool := c.config.requireAttestation.getD true

def cacheKey : String :=
  match c.config.expectedPcr3 with
  | some expected => if expected = "" then c.wallet.publicKey else c.wallet.publicKey ++ "|pcr3=" ++ expected
  | none => c.wallet.publicKey

def unreadableResult : AttestationResult :=
  { status := .failed
    provider := .crossmint
    publicKey := "<unreadable>"
    message := "Wallet rejected attestation introspection — `publicKey` or `provider` getter threw. " ++
      "This indicates a hostile or buggy wallet adapter." }

/-- What a call without the cache answers. -/
def fresh : AttestationResult :=
  match c.detected with
  | some _ => c.answer
  | none =>
      { status := .unavailable
        provider := .crossmint
        publicKey := c.wallet.publicKey
        message := "Wallet does not expose a recognized TEE provider." }

def minimumLevel : Option AttestationLevel :=
  match c.config.minAttestationLevel with
  | some level => some level
  | none => if c.requireAttestation then some .providerVerified else none

def enforce (result : AttestationResult) : Except TeeAttestationError AttestationResult :=
  if c.requireAttestation && !result.status.isVerified then .error (.required result)
  else
    match c.minimumLevel with
    | some level =>
        if attestationStatusMeetsLevel result.status level then .ok result else .error (.belowMinimum result level)
    | none => .ok result

/-- What is in the cache for the call, and the cache without it if it has expired. -/
def lookup (cache : AttestationCache Attested) : Option Attested × AttestationCache Attested :=
  match c.ttl with
  | some _ => cache.get c.cacheKey c.start
  | none => (none, cache)

/-- Only verified outcomes are stored. -/
def store (cache : AttestationCache Attested) : AttestationCache Attested :=
  match c.ttl with
  | some ttl =>
      if c.fresh.status.isVerified then
        cache.set c.cacheKey { result := c.fresh, madeFor := c } ttl c.finish
      else cache
  | none => cache

def resolve (cache : AttestationCache Attested) : Attested × AttestationCache Attested :=
  let (found, cache') := c.lookup cache
  match found with
  | some attested => (attested, cache')
  | none => ({ result := c.fresh, madeFor := c }, c.store cache')

end AttestationCall

def verifyTeeAttestation (cache : AttestationCache Attested) (c : AttestationCall) :
    Except TeeAttestationError AttestationResult × AttestationCache Attested :=
  if !c.requireAttestation && !c.config.onDegraded then (.error .missingCallback, cache)
  else if c.wallet.publicKey = "" then
    (if c.requireAttestation then .error .unreadable else .ok AttestationCall.unreadableResult, cache)
  else
    let (attested, cache') := c.resolve cache
    (c.enforce attested.result, cache')

def deleteFromAttestationCache (cache : AttestationCache Attested) (publicKey : String) : AttestationCache Attested :=
  (cache.delete publicKey).deleteByPrefix (publicKey ++ ":")

/-! ## Sequences of calls -/

inductive CacheEvent where
  | verify (c : AttestationCall)
  | delete (publicKey : String) (time : Int)
  | clear (time : Int)

namespace CacheEvent

def start : CacheEvent → Int
  | verify c => c.start
  | delete _ time => time
  | clear time => time

def finish : CacheEvent → Int
  | verify c => c.finish
  | delete _ time => time
  | clear time => time

def exec (cache : AttestationCache Attested) : CacheEvent → AttestationCache Attested
  | verify c => (verifyTeeAttestation cache c).2
  | delete publicKey _ => deleteFromAttestationCache cache publicKey
  | clear _ => {}

end CacheEvent

/-- The cache after the calls, from the empty one. -/
def cacheAfter (events : List CacheEvent) : AttestationCache Attested := events.foldl CacheEvent.exec {}

end Sigil.Sdk
