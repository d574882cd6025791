import Sigil.Library.JsValue
import Sigil.Library.Result
import Sigil.Sdk.AttestationCache

/-!
# Attestations of Turnkey

`tee/providers/turnkey.ts`. Certificates, signatures, the codec of CBOR, base64 and the codec of addresses are
parameters.
-/

namespace Sigil.Sdk

open Library

abbrev ByteString := List UInt8

/-- What a CBOR document decodes to. -/
inductive Cbor where
  | null
  | bool (b : Bool)
  | number (n : Int)
  | text (s : String)
  | bytes (b : ByteString)
  | array (items : List Cbor)
  /-- A `Map`, read by numbers. -/
  | map (entries : List (Int × Cbor))
  | object (fields : List (String × Cbor))
  | tagged (tag : Int) (value : Cbor)

namespace Cbor

/-- A property of an object. -/
def get (v : Cbor) (key : String) : Option Cbor :=
  match v with
  | object fields => fields.lookup key
  | _ => none

def isNull : Cbor → Bool
  | null => true
  | _ => false

def truthy : Cbor → Bool
  | null => false
  | bool b => b
  | number n => n ≠ 0
  | text s => s ≠ ""
  | bytes _ => true
  | array _ => true
  | map _ => true
  | object _ => true
  | tagged _ _ => true

end Cbor

/-- Everything that `node:crypto`, `cbor-x`, `Buffer` and the codec of addresses do. -/
structure Primitives where
  Certificate : Type
  PublicKey : Type
  rootCert : Certificate
  parseCertificate : ByteString → Option Certificate
  checkIssued : Certificate → Certificate → Bool
  certVerify : Certificate → PublicKey → Bool
  publicKey : Certificate → PublicKey
  validFrom : Certificate → Int
  validTo : Certificate → Int
  /-- `crypto.verify("SHA384", …)` -/
  verifySha384 : PublicKey → ByteString → ByteString → Bool
  /-- `crypto.verify("SHA256", …)` with the key of an uncompressed P-256 point; `none` if it is not on the curve -/
  verifySha256 : ByteString → ByteString → ByteString → Option Bool
  cborDecode : ByteString → Option Cbor
  cborEncode : List Cbor → ByteString
  /-- `Buffer.from` of a decoded value; `none` stands for an error. -/
  bufferFrom : Cbor → Option ByteString
  base64Decode : String → ByteString
  /-- The 32 bytes of an address. -/
  addressBytes : String → Option ByteString

inductive TurnkeyError where
  /-- A `TeeAttestationError` of `getAttestation`, or "Turnkey getAttestation() timed out after 30s" -/
  | attestation
  /-- "Invalid attestation bundle: bootProof must be a non-empty base64 string" -/
  | invalidBootProof
  /-- "Boot proof exceeds maximum size …" -/
  | tooLarge (length : Nat)
  /-- "Invalid COSE tag: expected 18 (COSE_Sign1), got …" -/
  | invalidTag
  /-- "Invalid COSE_Sign1: expected 4-element array" -/
  | notArray
  /-- "Invalid COSE_Sign1: expected 4 elements, got …" -/
  | wrongLength (length : Nat)
  /-- "Invalid COSE_Sign1: … must be a byte string" -/
  | notByteString (name : String)
  /-- "No x5chain (key 33) in COSE_Sign1 unprotected headers" -/
  | noChain
  /-- "x5chain entry at index … is not a byte string" -/
  | chainEntry (i : Nat)
  /-- "Empty certificate chain" -/
  | emptyChain
  /-- "Certificate at index … was not issued by certificate at index …" -/
  | notIssued (i : Nat)
  /-- "Certificate signature verification failed at chain index …" -/
  | badSignature (i : Nat)
  /-- "Certificate at index … is outside its validity period …" -/
  | outsideValidity (i : Nat)
  /-- "Invalid raw ECDSA signature: expected … bytes, got …" -/
  | signatureLength (got : Nat)
  /-- "COSE_Sign1 signature verification failed" -/
  | coseSignature
  /-- PCR3, the expected value and the one that is there -/
  | pcrMismatch (expected actual : String)
  /-- "App proof provided but attestation document lacks public_key — …" -/
  | noBootKey
  /-- "App proof fields present but empty — possible attestation tampering" -/
  | emptyAppProof
  /-- "Invalid attestation bundle: appSignature and appPublicKey must be strings" -/
  | appProofTypes
  /-- "Invalid app public key: expected 65 bytes (uncompressed P-256), got …" -/
  | appKeyLength (got : Nat)
  /-- "App proof P-256 signature verification failed" -/
  | appSignature
  /-- "Turnkey attestation verification failed: …" -/
  | failed
  deriving DecidableEq, Repr

/-! ## Encodings -/

def hexDigits : List Char := "0123456789abcdef".toList

/-- `toString("hex")`. -/
def hexText (bytes : ByteString) : String :=
  .ofList (bytes.flatMap fun b => [hexDigits.getD (b.toNat / 16) '0', hexDigits.getD (b.toNat % 16) '0'])

/-- `Buffer.from(…, "hex")`: pairs of digits, as far as there are any. -/
def hexBytes : List Char → ByteString
  | a :: b :: cs =>
      match digitOf 16 a, digitOf 16 b with
      | some x, some y => UInt8.ofNat (x * 16 + y) :: hexBytes cs
      | _, _ => []
  | _ => []

/-- A DER integer. -/
def encodeInt (val : ByteString) : ByteString :=
  let stripped := val.dropWhile (· = 0)
  let val := if stripped = [] then val.drop (val.length - 1) else stripped
  let padded := if val.headD 0 ≥ 128 then 0 :: val else val
  2 :: UInt8.ofNat padded.length :: padded

def rawSigToDer (rawSig : ByteString) (curveByteLen : Nat) : Except TurnkeyError ByteString := do
  require (rawSig.length = curveByteLen * 2) (.signatureLength rawSig.length)
  let body := encodeInt (rawSig.take curveByteLen) ++ encodeInt (rawSig.drop curveByteLen)
  let header : ByteString :=
    if body.length < 128 then [48, UInt8.ofNat body.length] else [48, 129, UInt8.ofNat body.length]
  pure (header ++ body)

/-! ## The boot proof -/

structure CoseSign1 where
  protectedHeaders : ByteString
  unprotectedHeaders : Cbor
  payload : ByteString
  signature : ByteString

/-- The array, bare or in a tag. -/
def coseArray : Cbor → Except TurnkeyError (List Cbor)
  | .array items => pure items
  | .tagged tag (.array items) => if tag = 18 then pure items else throw .invalidTag
  | .object fields =>
      match fields.lookup "value", fields.lookup "tag" with
      | some (.array items), none => pure items
      | some (.array items), some (.number tag) => if tag = 18 then pure items else throw .invalidTag
      | some (.array _), some _ => throw .invalidTag
      | _, _ => throw .notArray
  | _ => throw .notArray

def assertByteString (v : Cbor) (name : String) : Except TurnkeyError ByteString :=
  match v with
  | .bytes b => pure b
  | _ => throw (.notByteString name)

def coseOf : List Cbor → Except TurnkeyError CoseSign1
  | [a, b, c, d] => do
      let protectedHeaders ← assertByteString a "protected_headers"
      let payload ← assertByteString c "payload"
      let signature ← assertByteString d "signature"
      pure { protectedHeaders := protectedHeaders, unprotectedHeaders := b, payload := payload
             signature := signature }
  | items => throw (.wrongLength items.length)

def decodeCoseSign1 (prim : Primitives) (bytes : ByteString) : Except TurnkeyError CoseSign1 := do
  let decoded ← okOr (prim.cborDecode bytes) .failed
  let items ← coseArray decoded
  coseOf items

/-- `parseInt(key, 10)`. -/
def parseInt (key : String) : Option Int :=
  match key.toList.dropWhile isWhiteSpace with
  | '-' :: cs => (parseDigits 10 (cs.takeWhile Char.isDigit)).map Neg.neg
  | '+' :: cs => parseDigits 10 (cs.takeWhile Char.isDigit)
  | cs => parseDigits 10 (cs.takeWhile Char.isDigit)

/-- A header by its number; of two with one number the last. -/
def header (headers : Cbor) (n : Nat) : Option Cbor :=
  match headers with
  | .map entries => entries.reverse.lookup (n : Int)
  | .object fields => (fields.reverse.map fun field => (parseInt field.1, field.2)).lookup (some (n : Int))
  | .array items => items[n]?
  | _ => none

def chainEntries (headers : Cbor) : Except TurnkeyError (List Cbor) :=
  match header headers 33 with
  | some (.array entries) => pure entries
  | _ => throw .noChain

def certBuffer (entry : Nat × Cbor) : Except TurnkeyError ByteString :=
  match entry.2 with
  | .bytes b => pure b
  | _ => throw (.chainEntry entry.1)

/-- One turn of the loop over the chain. -/
def checkCertificate (prim : Primitives) (now : Int) (i : Nat) (cert issuer : prim.Certificate) :
    Except TurnkeyError Unit := do
  require (prim.checkIssued cert issuer) (.notIssued i)
  require (prim.certVerify cert (prim.publicKey issuer)) (.badSignature i)
  require (prim.validFrom cert ≤ now ∧ now ≤ prim.validTo cert) (.outsideValidity i)

/-- The issuer of the last certificate is the root. -/
def checkChain (prim : Primitives) (now : Int) : Nat → List prim.Certificate → Except TurnkeyError Unit
  | _, [] => pure ()
  | i, [cert] => checkCertificate prim now i cert prim.rootCert
  | i, cert :: issuer :: certs => do
      checkCertificate prim now i cert issuer
      checkChain prim now (i + 1) (issuer :: certs)

def firstCertificate {α : Type} : List α → Except TurnkeyError α
  | [] => throw .emptyChain
  | cert :: _ => pure cert

/-- The signing certificate. -/
def validateCertChain (prim : Primitives) (now : Int) (buffers : List ByteString) :
    Except TurnkeyError prim.Certificate := do
  require (buffers ≠ []) .emptyChain
  let certs ← buffers.mapM fun b => okOr (if b = [] then none else prim.parseCertificate b) TurnkeyError.failed
  checkChain prim now 0 certs
  firstCertificate certs

def buildSigStructure (prim : Primitives) (cose : CoseSign1) : ByteString :=
  prim.cborEncode [.text "Signature1", .bytes cose.protectedHeaders, .bytes [], .bytes cose.payload]

/-- A value of the document; what is absent or falsy is no value. -/
def documentBytes (prim : Primitives) : Option Cbor → Except TurnkeyError (Option ByteString)
  | none => pure none
  | some v => if v.truthy then (okOr (prim.bufferFrom v) .failed).map some else pure none

def pcrEntry (document : Cbor) (index : Nat) : Option Cbor :=
  match document.get "pcrs" with
  | some (.map entries) => entries.lookup (index : Int)
  | some (.array items) => items[index]?
  | some (.bytes b) => b[index]?.map fun n => .number n.toNat
  | some v => v.get (toString index)
  | none => none

def checkPcr3 (actual : Option ByteString) (expected : Option String) : Except TurnkeyError Unit :=
  match expected with
  | none => pure ()
  | some expected =>
      if expected = "" then pure ()
      else
        match actual with
        | none => throw (.pcrMismatch expected "<absent>")
        | some actual =>
            require ((hexText actual).toLower = expected.toLower) (.pcrMismatch expected (hexText actual))

/-- The boot proof, and its document. -/
def verifyBootProof (prim : Primitives) (now : Int) (config : AttestationConfig) (bootBytes : ByteString) :
    Except TurnkeyError Cbor := do
  let cose ← decodeCoseSign1 prim bootBytes
  let entries ← chainEntries cose.unprotectedHeaders
  let buffers ← entries.zipIdx.mapM fun entry => certBuffer (entry.2, entry.1)
  let signingCert ← validateCertChain prim now buffers
  let derSig ← rawSigToDer cose.signature 48
  require (prim.verifySha384 (prim.publicKey signingCert) (buildSigStructure prim cose) derSig) .coseSignature
  let document ← okOr (prim.cborDecode cose.payload) .failed
  require (document.isNull = false) .failed
  let _ ← documentBytes prim (pcrEntry document 0)
  let _ ← documentBytes prim (pcrEntry document 1)
  let _ ← documentBytes prim (pcrEntry document 2)
  let pcr3 ← documentBytes prim (pcrEntry document 3)
  checkPcr3 pcr3 config.expectedPcr3
  pure document

/-! ## The app proof, and the verdict -/

/-- Fields that come from outside may have any type. -/
structure TurnkeyAttestationBundle where
  bootProof : JsValue
  appSignature : JsValue
  appPublicKey : JsValue

def asText (v : JsValue) (e : TurnkeyError) : Except TurnkeyError String := okOr v.asString e

def verifyAppProof (prim : Primitives) (wallet : WalletLike) (bundle : TurnkeyAttestationBundle) (document : Cbor) :
    Except TurnkeyError Unit := do
  let bootKey ← documentBytes prim (document.get "public_key")
  require (bootKey.getD [] ≠ []) .noBootKey
  require (bundle.appSignature.truthy ∧ bundle.appPublicKey.truthy) .emptyAppProof
  let appSignature ← asText bundle.appSignature .appProofTypes
  let appPublicKey ← asText bundle.appPublicKey .appProofTypes
  let appPubKeyBytes := hexBytes appPublicKey.toList
  require (appPubKeyBytes.length = 65) (.appKeyLength appPubKeyBytes.length)
  let walletPubKeyBytes ← okOr (prim.addressBytes wallet.publicKey) .failed
  let appVerified ← okOr (prim.verifySha256 appPubKeyBytes walletPubKeyBytes (hexBytes appSignature.toList)) .failed
  require appVerified .appSignature

/-- An app proof is there if both of its fields are. -/
def TurnkeyAttestationBundle.hasAppProof (bundle : TurnkeyAttestationBundle) : Bool :=
  !bundle.appSignature.isUndefined && !bundle.appPublicKey.isUndefined

def checkAppProof (prim : Primitives) (wallet : WalletLike) (bundle : TurnkeyAttestationBundle) (document : Cbor) :
    Except TurnkeyError Unit :=
  if bundle.hasAppProof then verifyAppProof prim wallet bundle document else pure ()

def maxAttestationBytes : Nat := 64 * 1024

def verifyBundle (prim : Primitives) (now : Int) (wallet : WalletLike) (config : AttestationConfig)
    (bundle : TurnkeyAttestationBundle) : Except TurnkeyError AttestationResult := do
  let bootProof ← asText bundle.bootProof .invalidBootProof
  require (bootProof ≠ "") .invalidBootProof
  let bootBytes := prim.base64Decode bootProof
  require (bootBytes.length ≤ maxAttestationBytes) (.tooLarge bootBytes.length)
  let document ← verifyBootProof prim now config bootBytes
  checkAppProof prim wallet bundle document
  pure { status := .cryptographicallyVerified
         provider := .turnkey
         publicKey := wallet.publicKey
         message := "Turnkey attestation cryptographically verified: " ++
           "COSE_Sign1 P-384 signature valid, cert chain trusted, PCR values checked." }

/-- What `getAttestation` comes to. -/
inductive Attestation where
  /-- The wallet has no such function. -/
  | missing
  /-- It throws a `TeeAttestationError`, or takes longer than 30 seconds. -/
  | rejected
  /-- It throws something else. -/
  | threw (transport : Bool) (cause : String)
  | null
  | bundle (b : TurnkeyAttestationBundle)

def unverified (wallet : WalletLike) (status : AttestationStatus) (message : String) : AttestationResult :=
  { status := status, provider := .turnkey, publicKey := wallet.publicKey, message := message }

def verifyTurnkey (prim : Primitives) (now : Int) (wallet : WalletLike) (config : AttestationConfig) :
    Attestation → Except TurnkeyError AttestationResult
  | .missing => pure (unverified wallet .unavailable
      ("Turnkey wallet does not expose getAttestation() — cannot verify enclave identity. " ++
        "Pass a wallet with getAttestation() for cryptographic verification."))
  | .rejected => throw .attestation
  | .threw transport cause => pure (unverified wallet .failed
      (if transport then
        "Turnkey attestation fetch failed: transport error reaching the attestation API. Retry after network recovery."
      else "Turnkey attestation fetch failed: " ++ cause))
  | .null => pure (unverified wallet .unavailable
      "Turnkey getAttestation() returned null — cannot verify enclave identity.")
  | .bundle b => verifyBundle prim now wallet config b

end Sigil.Sdk
