import Sigil.Library.Double

/-!
# Errors of the network

`isTransportError` and `redactCause` of `network-errors.ts` on values that are thrown. Objects are shared and may form
cycles, and any read of a property may throw.
-/

namespace Sigil.Sdk

open Library

def providerDenialNames : List String :=
  ["ProviderDeniedError", "CustodyDeniedError", "UnauthorizedError", "ForbiddenError"]

def transportCodes : List String :=
  ["ECONNREFUSED", "ECONNRESET", "ETIMEDOUT", "ENOTFOUND", "EAI_AGAIN", "ENETUNREACH", "EPIPE",
   "UND_ERR_CONNECT_TIMEOUT", "UND_ERR_HEADERS_TIMEOUT", "UND_ERR_BODY_TIMEOUT", "UND_ERR_SOCKET", "UND_ERR_ABORTED",
   "CERT_HAS_EXPIRED", "UNABLE_TO_VERIFY_LEAF_SIGNATURE", "DEPTH_ZERO_SELF_SIGNED_CERT",
   "ERR_TLS_CERT_ALTNAME_INVALID", "ERR_HTTP2_STREAM_ERROR", "ERR_HTTP2_SESSION_ERROR", "ERR_HTTP2_GOAWAY_SESSION",
   "HTTP_5XX"]

def transportCauseNames : List String :=
  ["ConnectTimeoutError", "HeadersTimeoutError", "BodyTimeoutError", "SocketError"]

/-! ## Values -/

inductive HostValue (Ref : Type) where
  | undefined
  | null
  | bool (b : Bool)
  /-- A finite number. -/
  | number (x : Double)
  | nan
  | infinity (negative : Bool)
  | bigint (n : Int)
  | string (s : String)
  | symbol
  | object (r : Ref)

namespace HostValue

variable {Ref : Type}

def isNullish : HostValue Ref → Bool
  | undefined => true
  | null => true
  | _ => false

def asString : HostValue Ref → Option String
  | string s => some s
  | _ => none

end HostValue

/-- What a read throws is not looked at. -/
abbrev Guarded (α : Type) := Except Unit α

/-- `try { return x } catch { return fallback }`. -/
def recover {α : Type} (x : Guarded α) (fallback : α) : α :=
  match x with
  | .ok a => a
  | .error _ => fallback

/-- `none` where the object does not have the property. -/
abbrev Property (Ref : Type) := Guarded (Option (HostValue Ref))

inductive ErrorClass where
  | domException | aggregateError | error | typeError
  deriving DecidableEq, Repr

/-- An element of an array: a hole, one whose read throws, or a value. -/
inductive Element (Ref : Type) where
  | hole
  | unreadable
  | value (v : HostValue Ref)

structure HostObject (Ref : Type) where
  /-- `typeof` is `"function"`. -/
  callable : Bool := false
  instanceOf : ErrorClass → Guarded Bool := fun _ => .ok false
  name : Property Ref := .ok none
  message : Property Ref := .ok none
  cause : Property Ref := .ok none
  code : Property Ref := .ok none
  statusCode : Property Ref := .ok none
  status : Property Ref := .ok none
  /-- `none` if the value of the property is no array. -/
  errors : Guarded (Option (List (Element Ref))) := .ok none

structure Host (Ref : Type) where
  object : Ref → HostObject Ref
  /-- The text of a number. -/
  numberText : Double → String

namespace Host

variable {Ref : Type} (host : Host Ref)

/-! ## Guarded reads -/

def safeInstanceOf (v : HostValue Ref) (ctor : ErrorClass) : Bool :=
  match v with
  | .object r => recover ((host.object r).instanceOf ctor) false
  | _ => false

/-- A property of a value whose `typeof` is `"object"`. -/
def property (field : HostObject Ref → Property Ref) (v : HostValue Ref) : Property Ref :=
  match v with
  | .object r => if (host.object r).callable then .ok none else field (host.object r)
  | _ => .ok none

def safeGetName (v : HostValue Ref) : Option String :=
  recover ((host.property HostObject.name v).map fun p => p.bind HostValue.asString) none

def safeGetCause (v : HostValue Ref) : HostValue Ref :=
  recover ((host.property HostObject.cause v).map fun p => p.getD .undefined) .undefined

/-- The text of a code that is a string, a number or a `bigint`. -/
def codeText : HostValue Ref → Option String
  | .string s => some s
  | .number x => some (host.numberText x)
  | .nan => some "NaN"
  | .infinity negative => some (if negative then "-Infinity" else "Infinity")
  | .bigint n => some (toString n)
  | _ => none

def safeGetCode (v : HostValue Ref) : Option String :=
  recover ((host.property HostObject.code v).map fun p => p.bind host.codeText) none

def finiteNumber : HostValue Ref → Option Double
  | .number x => some x
  | _ => none

/-- The first of `statusCode` and `status` that is a finite number; a read that throws ends the loop. -/
def safeGetStatusCode (v : HostValue Ref) : Option Double :=
  recover ((host.property HostObject.statusCode v).bind fun statusCode =>
    match statusCode.bind finiteNumber with
    | some x => .ok (some x)
    | none => (host.property HostObject.status v).map fun status => status.bind finiteNumber) none

/-! ## `isTransportError` -/

def isDenied (v : HostValue Ref) : Bool := (host.safeGetName v).any (· ∈ providerDenialNames)

/-- The name of an abort or a timeout. -/
def isTimeout (v : HostValue Ref) : Bool := (host.safeGetName v).any (· ∈ ["AbortError", "TimeoutError"])

def causeSignals (v : HostValue Ref) : Bool :=
  let cause := host.safeGetCause v
  !cause.isNullish &&
    ((host.safeGetName cause).any (· ∈ transportCauseNames) || (host.safeGetCode cause).any (· ∈ transportCodes))

/-- `TypeError("fetch failed")` without a cause. -/
def fetchFailed (v : HostValue Ref) : Bool :=
  match v with
  | .object r =>
      host.safeInstanceOf v .typeError &&
        (match host.safeGetCause v with
          | .undefined => true
          | _ => false) &&
        recover ((host.object r).message.map fun m => m.bind HostValue.asString) none = some "fetch failed"
  | _ => false

/-- The checks of a plain error. -/
def errorSignals (v : HostValue Ref) : Bool :=
  host.isTimeout v || host.causeSignals v || (host.safeGetCode v).any (· ∈ transportCodes) ||
    (host.safeGetStatusCode v).any (fun x => 500 ≤ x.value ∧ x.value < 600) || host.fetchFailed v

/-- The elements of `errors`, if that is an array. -/
def wrappedErrors (v : HostValue Ref) : Guarded (Option (List (Element Ref))) :=
  match v with
  | .object r => (host.object r).errors
  | _ => .ok none

end Host

/-- `some` of an array: holes are skipped, and a read that throws ends it. The outer `none` is a call that does not
return. -/
def someElement {Ref : Type} (call : HostValue Ref → Option (Guarded Bool)) :
    List (Element Ref) → Option (Guarded Bool)
  | [] => some (.ok false)
  | .hole :: rest => someElement call rest
  | .unreadable :: _ => some (.error ())
  | .value v :: rest =>
      (call v).bind fun returned =>
        match returned with
        | .error _ => some (.error ())
        | .ok true => some (.ok true)
        | .ok false => someElement call rest

namespace Host

variable {Ref : Type} (host : Host Ref)

/-- `none` if the recursion goes deeper than the number of calls. -/
def isTransportError : Nat → HostValue Ref → Option (Guarded Bool)
  | 0, _ => none
  | calls + 1, err =>
      if err.isNullish then some (.ok false)
      else if host.isDenied err then some (.ok false)
      else if host.safeInstanceOf err .domException then some (.ok (host.isTimeout err))
      else if host.safeInstanceOf err .aggregateError then
        match host.wrappedErrors err with
        | .ok (some wrapped) =>
            (someElement (isTransportError calls) wrapped).map fun returned => .ok (recover returned false)
        | _ => some (.ok false)
      else some (.ok (host.safeInstanceOf err .error && host.errorSignals err))

end Host

/-! ## `redactCause` -/

/-- The code units of a text. -/
def utf16 (s : String) : List UInt16 :=
  s.toList.flatMap fun c =>
    let n := c.toNat
    if n < 0x10000 then [.ofNat n]
    else [.ofNat (0xD800 + (n - 0x10000) / 0x400), .ofNat (0xDC00 + (n - 0x10000) % 0x400)]

structure Redacted where
  name : Option String := none
  /-- Code units; the last one may be half a character. -/
  message : Option (List UInt16) := none
  code : Option String := none
  deriving DecidableEq, Repr

def maxCauseWalkDepth : Nat := 16

/-- `err.slice(0, 200)`. -/
def sliceMessage (s : String) : List UInt16 := (utf16 s).take 200

def HostValue.typeText {Ref : Type} (callable : Ref → Bool) : HostValue Ref → String
  | .undefined => "undefined"
  | .null => "object"
  | .bool _ => "boolean"
  | .number _ => "number"
  | .nan => "number"
  | .infinity _ => "number"
  | .bigint _ => "bigint"
  | .string _ => "string"
  | .symbol => "symbol"
  | .object r => if callable r then "function" else "object"

namespace Host

variable {Ref : Type} (host : Host Ref)

def redactedMessage (message : HostValue Ref) : Option (List UInt16) :=
  match message with
  | .string s => some (sliceMessage s)
  | .undefined => none
  | .null => none
  | v => some (utf16 ("<non-string " ++ v.typeText (fun r => (host.object r).callable) ++ ">"))

/-- The walk along the causes, which stops at an object that it has seen. -/
def causeCode [DecidableEq Ref] : Nat → List Ref → HostValue Ref → Option String
  | 0, _, _ => none
  | depth + 1, visited, current =>
      match current with
      | .object r =>
          if (host.object r).callable ∨ r ∈ visited then none
          else
            let nextCause := host.safeGetCause current
            if nextCause.isNullish then none
            else (host.safeGetCode nextCause).or (causeCode depth (r :: visited) nextCause)
      | _ => none

def redactCause [DecidableEq Ref] (err : HostValue Ref) : Guarded Redacted :=
  match err with
  | .undefined => .ok {}
  | .null => .ok {}
  | .string s => .ok { message := some (sliceMessage s) }
  | .object r =>
      if (host.object r).callable then .ok {}
      else
        .ok { name := host.safeGetName err
              message := recover ((host.object r).message.map fun m => m.bind host.redactedMessage) none
              code := (host.safeGetCode err).or (host.causeCode maxCauseWalkDepth [] err) }
  | v => .ok { code := match v with
    | .bool _ => none
    | _ => host.codeText v }

end Host

end Sigil.Sdk
